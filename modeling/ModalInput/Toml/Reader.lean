/-!
# Readers

A reader takes something from the start of a text and leaves the rest, or fails and leaves
everything.  An alternative starts again where the first choice started.
-/

namespace ModalInput.Toml

abbrev Reader (α : Type) := StateT (List Char) Option α

namespace Reader

variable {α : Type}

def satisfy (p : Char → Bool) : Reader Char := fun cs =>
  match cs with
  | c :: rest => if p c then some (c, rest) else none
  | [] => none

def char (c : Char) : Reader Unit := do
  let _ ← satisfy (· == c)

def word (s : String) : Reader Unit := s.toList.forM char

def takeWhile (p : Char → Bool) : Reader (List Char) := fun cs =>
  some (cs.takeWhile p, cs.dropWhile p)

def takeWhile1 (p : Char → Bool) : Reader (List Char) := do
  let c ← satisfy p
  let cs ← takeWhile p
  pure (c :: cs)

def exactly (n : Nat) (r : Reader α) : Reader (List α) := (List.replicate n r).mapM id

/-- As often as the reader succeeds, but no more often than `limit` has characters. -/
def atMost (r : Reader α) (limit : List Char) : Reader (List α) := fun cs =>
  match limit with
  | [] => some ([], cs)
  | _ :: limit =>
    match r cs with
    | some (a, rest) => (atMost r limit rest).map fun (as, rest) => (a :: as, rest)
    | none => some ([], cs)

/-- As often as the reader succeeds.  A reader that takes at least one character each time can do so
no more often than there are characters. -/
def many (r : Reader α) : Reader (List α) := fun cs => atMost r cs cs

def sepBy1 (separator : Reader Unit) (item : Reader α) : Reader (List α) := do
  let a ← item
  let as ← many (do separator; item)
  pure (a :: as)

def sepBy (separator : Reader Unit) (item : Reader α) : Reader (List α) :=
  sepBy1 separator item <|> pure []

def endOfText : Reader Unit := fun cs => if cs.isEmpty then some ((), cs) else none

/-- Reads a whole text, to its end. -/
def run (r : Reader α) (s : String) : Option α :=
  match r s.toList with
  | some (a, []) => some a
  | _ => none

end Reader

end ModalInput.Toml
