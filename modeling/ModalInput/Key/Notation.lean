import ModalInput.Key.Press
import ModalInput.Text.Decimal

/-!
# Key notation

Presses written as text, such as `3j<C-o>dd<Esc>`.  A character stands for itself; a bracket holds
modifier letters, each with a dash, and then one character or the name of a key.  The text is first
cut into pieces and each piece is then read, so the leftmost bad bracket is the one reported.

    parse s = (pieces 0 s.toList).mapM Piece.press
-/

namespace ModalInput.Notation

/-! ## Faults -/

/-- Both faults carry the byte offset of the bracket that they are about. -/
inductive Fault where
  | unterminated (offset : Nat)
  | unknownName (offset : Nat) (token : String)
  deriving DecidableEq, Repr

def Fault.offset : Fault → Nat
  | .unterminated offset => offset
  | .unknownName offset _ => offset

def Fault.reason : Fault → String
  | .unterminated _ => "unterminated '<'"
  | .unknownName _ token => "unknown key name '" ++ token ++ "'"

def Fault.message (f : Fault) : String :=
  "Invalid key notation at position " ++ Text.decimal f.offset ++ ": " ++ f.reason

/-! ## Pieces -/

inductive Piece where
  | plain (c : Char)
  | bracket (offset : Nat) (token : List Char)
  | unclosed (offset : Nat)
  deriving DecidableEq, Repr

mutual

/-- Cuts text that starts at byte `here`. -/
def pieces (here : Nat) : List Char → List Piece
  | [] => []
  | c :: rest =>
    if c = '<' then
      match closing (here + c.utf8Size) rest with
      | some (token, after) => .bracket here token :: after
      | none => [.unclosed here]
    else .plain c :: pieces (here + c.utf8Size) rest

/-- The rest of a bracket up to the first `>`, a second `<` included, and the pieces after it. -/
def closing (here : Nat) : List Char → Option (List Char × List Piece)
  | [] => none
  | c :: rest =>
    if c = '>' then some ([], pieces (here + c.utf8Size) rest)
    else (closing (here + c.utf8Size) rest).map fun (token, after) => (c :: token, after)

end

/-! ## Brackets -/

def modifierOfLetter (c : Char) : Option Modifier :=
  match c.toLower with
  | 'c' => some .control
  | 'a' => some .alt
  | 'm' => some .super
  | 'd' => some .super
  | 's' => some .shift
  | _ => none

/-- Splits the modifiers off a token.  At least one character stays, so `C--` is the dash. -/
def splitModifiers : List Char → List Modifier × List Char
  | letter :: '-' :: c :: rest =>
    match modifierOfLetter letter with
    | some m =>
      let (ms, name) := splitModifiers (c :: rest)
      (m :: ms, name)
    | none => ([], letter :: '-' :: c :: rest)
  | name => ([], name)

/-- The names that a bracket may hold, in lower case, each with the name of its key. -/
def keyNames : List (String × String) :=
  [("esc", NamedKey.escape.name), ("escape", NamedKey.escape.name),
   ("cr", NamedKey.enter.name), ("enter", NamedKey.enter.name), ("return", NamedKey.enter.name),
   ("bs", NamedKey.backspace.name), ("backspace", NamedKey.backspace.name),
   ("del", NamedKey.delete.name), ("delete", NamedKey.delete.name),
   ("tab", NamedKey.tab.name), ("space", " "), ("lt", "<"),
   ("left", NamedKey.left.name), ("right", NamedKey.right.name),
   ("up", NamedKey.up.name), ("down", NamedKey.down.name),
   ("home", NamedKey.home.name), ("end", NamedKey.end.name)]

/-- Letter case matters for a single character and for nothing else. -/
def keyOfName (name : List Char) : Option String :=
  match name with
  | [c] => some (String.singleton c)
  | _ => keyNames.lookup (String.ofList (name.map Char.toLower))

def pressOfToken (token : List Char) : Option Press :=
  let (ms, name) := splitModifiers token
  (keyOfName name).map fun key => (Press.ofName key).holdAll ms

/-! ## Reading -/

def Piece.press : Piece → Except Fault Press
  | .plain c => .ok (.ofChar c)
  | .bracket offset token =>
    match pressOfToken token with
    | some p => .ok p
    | none => .error (.unknownName offset (String.ofList token))
  | .unclosed offset => .error (.unterminated offset)

def parse (s : String) : Except Fault (List Press) := (pieces 0 s.toList).mapM Piece.press

end ModalInput.Notation
