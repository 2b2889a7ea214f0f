import ModalInput.Toml.Calendar
import ModalInput.Toml.Number
import ModalInput.Toml.Tree

/-!
# TOML documents

A document is read line by line, and its lines are then put together into one table.

    parse s = (document.run s).bind assemble
-/

namespace ModalInput.Toml

open Reader

/-! ## Values -/

def boolean : Reader Bool := (do word "true"; pure true) <|> (do word "false"; pure false)

/-- A date is tried before a number, and a float before an integer, since each may start like the
next. -/
def scalar : Reader Value :=
  (do let s ← string; pure (.string s)) <|>
  (do let b ← boolean; pure (.boolean b)) <|>
  (do let d ← dateTime; pure (.dateTime d)) <|>
  (do let r ← float; pure (.real r)) <|>
  (do let n ← integer; pure (.integer n))

/-- A comma may follow the last item, but an array of nothing else has none. -/
def array (item : Reader Value) : Reader Value := do
  char '['
  let items ← sepBy (char ',') (do gap; let v ← item; gap; pure v)
  if !items.isEmpty then
    let _ ← optional (char ',')
  gap
  char ']'
  pure (.array items)

def pair (item : Reader Value) : Reader (List String × String × Value) := do
  let (path, k) ← key
  char '='
  blanks
  let v ← item
  pure (path, k, v)

/-- On one line, and without a comma after the last entry. -/
def inlineTable (item : Reader Value) : Reader Value := do
  char '\x7b'
  let pairs ← sepBy (char ',') (do let p ← pair item; blanks; pure p)
  blanks
  char '\x7d'
  match pairs.foldlM (fun t (path, k, v) => t.insert path k v) Section.root with
  | some t => pure (.table t.toTable)
  | none => failure

/-- A value in which arrays and inline tables nest at most `depth` times. -/
def value : Nat → Reader Value
  | 0 => scalar
  | depth + 1 => scalar <|> array (value depth) <|> inlineTable (value depth)

/-! ## Lines -/

inductive Line where
  | empty
  | table (path : List String) (k : String)
  | arrayTable (path : List String) (k : String)
  | pair (path : List String) (k : String) (v : Value)

def emptyLine : Reader Line := do
  (do comment; lineEnd) <|> newline
  pure .empty

def header : Reader Line := do
  char '['
  let (path, k) ← key
  char ']'
  restOfLine
  pure (.table path k)

def arrayHeader : Reader Line := do
  word "[["
  let (path, k) ← key
  word "]]"
  restOfLine
  pure (.arrayTable path k)

def pairLine : Reader Line := do
  let (path, k, v) ← pair (value maxDepth)
  restOfLine
  pure (.pair path k v)

def line : Reader Line := do
  blanks
  emptyLine <|> arrayHeader <|> header <|> pairLine

/-- A byte order mark may come first. -/
def document : Reader (List Line) := do
  let _ ← optional (char '\ufeff')
  let lines ← many line
  blanks
  endOfText
  pure lines

/-! ## Assembly -/

/-- The document so far, and the path of the table that the next values go to. -/
structure Assembly where
  root : Section
  here : List String

def Assembly.add (a : Assembly) : Line → Option Assembly
  | .empty => some a
  | .table path k => (a.root.declareTable path k).map fun t => ⟨t, path ++ [k]⟩
  | .arrayTable path k => (a.root.appendTable path k).map fun t => ⟨t, path ++ [k]⟩
  | .pair path k v =>
    (a.root.within .implied (fun t => t.insert path k v) a.here).map fun t => ⟨t, a.here⟩

def assemble (lines : List Line) : Option Table :=
  (lines.foldlM Assembly.add ⟨.root, []⟩).map fun a => a.root.toTable

def parse (s : String) : Option Table := (document.run s).bind assemble

end ModalInput.Toml
