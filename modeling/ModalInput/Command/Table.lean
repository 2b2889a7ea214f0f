import ModalInput.Surface.Call

/-!
# Command tables

Which character means what in each mode.  A lookup knows nothing of counts or state; what is typed
for a command is in `Command.Gesture`.  Normal mode and the visual modes have tables of their own,
which agree on the motions.

    Motion.ofChar? c = some m → VisualEntry.ofChar? c = some (.extend m)      (ofChar?_eq_extend_iff)
-/

namespace ModalInput

/-! ## Operators and leaders -/

/-- What is done with a selection. -/
inductive Operator where
  | delete
  | change
  | yank
  /-- Only over a visual selection. -/
  | put
  deriving DecidableEq, Repr

def Operator.letter : Operator → Char
  | .delete => 'd'
  | .change => 'c'
  | .yank => 'y'
  | .put => 'p'

/-- The operators that a motion or a second press of the same letter completes. -/
def Operator.ofChar? (c : Char) : Option Operator :=
  match c with
  | 'd' => some .delete
  | 'c' => some .change
  | 'y' => some .yank
  | _ => none

/-- The first key of a sequence of two. -/
inductive Leader where
  /-- Sets a mark. -/
  | mark
  /-- Goes to a mark, or to the start of its line. -/
  | jump (linewise : Bool)
  | go
  | operator (op : Operator)
  deriving DecidableEq, Repr

def Leader.letter : Leader → Char
  | .mark => 'm'
  | .jump true => '\''
  | .jump false => '\x60'
  | .go => 'g'
  | .operator op => op.letter

def Leader.ofChar? (c : Char) : Option Leader :=
  match c with
  | 'm' => some .mark
  | '\'' => some (.jump true)
  | '\x60' => some (.jump false)
  | 'g' => some .go
  | _ => (Operator.ofChar? c).map .operator

/-! ## Motions -/

inductive Direction where
  | left
  | down
  | up
  | right
  deriving DecidableEq, Repr

def Direction.ofChar? (c : Char) : Option Direction :=
  match c with
  | 'h' => some .left
  | 'j' => some .down
  | 'k' => some .up
  | 'l' => some .right
  | _ => none

/-- Towards the start of the document or towards its end. -/
inductive Way where
  | back
  | forward
  deriving DecidableEq, Repr

inductive Motion where
  | step (d : Direction)
  | word (w : Way)
  | paragraph (w : Way)
  | document (w : Way)
  deriving DecidableEq, Repr

/-- The motions that Normal mode and the visual modes share. -/
def Motion.ofChar? (c : Char) : Option Motion :=
  match c with
  | 'b' => some (.word .back)
  | 'w' => some (.word .forward)
  | '\x7b' => some (.paragraph .back)
  | '\x7d' => some (.paragraph .forward)
  | _ => (Direction.ofChar? c).map .step

/-- What a selection may take as a whole. -/
inductive TextObject where
  | word
  | paragraph
  deriving DecidableEq, Repr

def TextObject.ofChar? (c : Char) : Option TextObject :=
  match c with
  | 'w' => some .word
  | 'p' => some .paragraph
  | _ => none

/-! ## Normal mode -/

/-- Where Insert mode starts, as seen from the caret. -/
inductive InsertPoint where
  | here
  | after
  | lineStart
  | lineEnd
  deriving DecidableEq, Repr

/-- Commands of one key. -/
inductive Command where
  | motion (m : Motion)
  /-- The end of the document, or the line that the count names. -/
  | toLine
  /-- The start or the end of the line. -/
  | lineEdge (w : Way)
  | insert (p : InsertPoint)
  /-- A new line above or below. -/
  | openLine (w : Way)
  /-- A visual mode. -/
  | select (linewise : Bool)
  | action (a : Action)
  | deleteChar (w : Way)
  /-- Up to the end of the line, going on in Insert mode or not. -/
  | cutLineEnd (insert : Bool)
  | joinLines
  | find
  | findAgain (w : Way)
  deriving DecidableEq, Repr

def Command.ofChar? (c : Char) : Option Command :=
  match c with
  | 'G' => some .toLine
  | '^' => some (.lineEdge .back)
  | '_' => some (.lineEdge .back)
  | '0' => some (.lineEdge .back)
  | '$' => some (.lineEdge .forward)
  | 'i' => some (.insert .here)
  | 'a' => some (.insert .after)
  | 'I' => some (.insert .lineStart)
  | 'A' => some (.insert .lineEnd)
  | 'o' => some (.openLine .forward)
  | 'O' => some (.openLine .back)
  | 'v' => some (.select false)
  | 'V' => some (.select true)
  | 'p' => some (.action .paste)
  | 'u' => some (.action .undo)
  | 'r' => some (.action .redo)
  | 'x' => some (.deleteChar .forward)
  | 'X' => some (.deleteChar .back)
  | 'D' => some (.cutLineEnd false)
  | 'C' => some (.cutLineEnd true)
  | 'J' => some .joinLines
  | '/' => some .find
  | 'n' => some (.findAgain .forward)
  | 'N' => some (.findAgain .back)
  | _ => (Motion.ofChar? c).map .motion

/-- What a character means in Normal mode: a command, or the start of a sequence. -/
inductive NormalEntry where
  | command (c : Command)
  | leader (l : Leader)
  deriving DecidableEq, Repr

def NormalEntry.ofChar? (c : Char) : Option NormalEntry :=
  match Command.ofChar? c with
  | some cmd => some (.command cmd)
  | none => (Leader.ofChar? c).map .leader

/-! ## Visual modes -/

/-- What a character means in a visual mode. -/
inductive VisualEntry where
  | extend (m : Motion)
  | operate (op : Operator)
  /-- A text object comes next. -/
  | object
  deriving DecidableEq, Repr

def VisualEntry.ofChar? (c : Char) : Option VisualEntry :=
  match c with
  | 'h' => some (.extend (.step .left))
  | 'j' => some (.extend (.step .down))
  | 'k' => some (.extend (.step .up))
  | 'l' => some (.extend (.step .right))
  | 'b' => some (.extend (.word .back))
  | 'w' => some (.extend (.word .forward))
  | '\x7b' => some (.extend (.paragraph .back))
  | '\x7d' => some (.extend (.paragraph .forward))
  | 'G' => some (.extend (.document .forward))
  | 'g' => some (.extend (.document .back))
  | 'p' => some (.operate .put)
  | 'i' => some .object
  | 'a' => some .object
  | _ => (Operator.ofChar? c).map .operate

/-! ## Lemmas -/

theorem Operator.eq_letter {c : Char} {op : Operator} (h : Operator.ofChar? c = some op) :
    c = op.letter := by
  unfold Operator.ofChar? at h
  split at h <;> cases h <;> rfl

/-- Over a selection the shared motions are as in Normal mode, and both ends of the document have
a key of their own. -/
theorem VisualEntry.ofChar?_eq_extend_iff (c : Char) (m : Motion) :
    VisualEntry.ofChar? c = some (.extend m) ↔
      Motion.ofChar? c = some m ∨ c = 'G' ∧ m = .document .forward ∨
        c = 'g' ∧ m = .document .back := by
  constructor
  · intro h
    unfold VisualEntry.ofChar? at h
    split at h
    case h_9 =>
      cases h
      exact Or.inr (Or.inl ⟨rfl, rfl⟩)
    case h_10 =>
      cases h
      exact Or.inr (Or.inr ⟨rfl, rfl⟩)
    case h_11 | h_12 | h_13 => cases h
    case h_14 =>
      obtain ⟨op, -, hop⟩ := Option.map_eq_some_iff.1 h
      cases hop
    all_goals
      cases h
      exact Or.inl rfl
  · rintro (h | ⟨rfl, rfl⟩ | ⟨rfl, rfl⟩)
    · unfold Motion.ofChar? at h
      split at h
      case h_5 =>
        unfold Direction.ofChar? at h
        split at h <;> cases h <;> rfl
      all_goals
        cases h
        rfl
    · rfl
    · rfl

end ModalInput
