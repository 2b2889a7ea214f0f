import ModalInput.Command.Table

/-!
# Gestures

The calls behind motions, text objects and commands, as lists that are made in order.  To extend a
selection along a motion is to make the motion with shift held.  A count repeats the whole block of
a command, and only of those commands for which `Command.repeats` holds.

    m.extending = m.chords.map Chord.addShift      (extending_eq)
-/

namespace ModalInput

variable {S : Type}

def typed (chords : List Chord) : List (Call S) := chords.map .type

def times {α : Type} (n : Nat) (block : List α) : List α := (List.replicate n block).flatten

/-! ## Motions -/

def Direction.keyCap : Direction → KeyCap
  | .left => .left
  | .down => .down
  | .up => .up
  | .right => .right

/-- The end of a paragraph is passed, so that the next one starts behind it. -/
def Motion.chords : Motion → List Chord
  | .step d => [.plain d.keyCap]
  | .word .back => [.control .left]
  | .word .forward => [.control .right]
  | .paragraph .back => [.control .up]
  | .paragraph .forward => [.control .down, .plain .right]
  | .document .back => [.control .home]
  | .document .forward => [.control .end]

/-- A motion over a selection. -/
def Motion.extending : Motion → List Chord
  | .step d => [.shift d.keyCap]
  | .word .back => [.controlShift .left]
  | .word .forward => [.controlShift .right]
  | .paragraph .back => [.controlShift .up]
  | .paragraph .forward => [.controlShift .down, .shift .right]
  | .document .back => [.controlShift .home]
  | .document .forward => [.controlShift .end]

namespace Gesture

/-- From the start of the document down to a line; lines count from one. -/
def toLine (line : Nat) : List Chord :=
  (Motion.document .back).chords ++ List.replicate (line - 1) (.plain .down)

/-- Selects whole lines, the current one first. -/
def wholeLines (lines : Nat) : List Chord :=
  .plain .home :: List.replicate (lines - 1) (.shift .down) ++ [.shift .end]

end Gesture

/-! ## Text objects -/

def TextObject.motion : TextObject → Way → Motion
  | .word => .word
  | .paragraph => .paragraph

def TextObject.toStart (o : TextObject) : List Chord := (o.motion .back).chords

/-- A paragraph is taken up to its end and not past it. -/
def TextObject.extendToEnd : TextObject → List Chord
  | .word => [.controlShift .right]
  | .paragraph => [.controlShift .down]

/-- A visual selection of a whole object.  For a word, a first step leaves the selection that is
there; a paragraph is passed at its end. -/
def TextObject.selectAll : TextObject → List Chord
  | .word => TextObject.word.toStart ++ TextObject.word.toStart ++ TextObject.word.extendToEnd
  | .paragraph => TextObject.paragraph.toStart ++ (Motion.paragraph .forward).extending

/-! ## Commands -/

def InsertPoint.chords : InsertPoint → List Chord
  | .here => []
  | .after => [.plain .right]
  | .lineStart => [.plain .home]
  | .lineEnd => [.plain .end]

/-- One execution of a command. -/
def Command.block : Command → List (Call S)
  | .motion m => typed m.chords
  | .toLine => typed (Motion.document .forward).chords
  | .lineEdge .back => typed [.plain .home]
  | .lineEdge .forward => typed [.plain .end]
  | .insert p => typed p.chords
  | .openLine .forward => typed [.plain .end, .shift .enter]
  | .openLine .back => typed [.plain .home, .shift .enter, .plain .up]
  | .select _ => []
  | .action a => [.perform a]
  | .deleteChar .forward => typed [.plain .delete]
  | .deleteChar .back => typed [.plain .backspace]
  | .cutLineEnd _ => typed [.shift .end] ++ [.perform .cut]
  | .joinLines => typed [.plain .end, .plain .delete, .plain .space]
  | .find => typed [.control (.letter 'f')]
  | .findAgain .forward => typed [.plain .enter]
  | .findAgain .back => typed [.shift .enter]

/-- The commands that a count repeats; the others run once whatever was typed. -/
def Command.repeats : Command → Bool
  | .motion _ | .openLine _ | .action _ | .deleteChar _ | .joinLines => true
  | _ => false

/-- The calls of a command under a count, where `counted` says that one was typed. -/
def Command.calls (c : Command) (count : Nat) (counted : Bool) : List (Call S) :=
  if c = .toLine ∧ counted then typed (Gesture.toLine count)
  else times (if c.repeats then count else 1) c.block

/-! ## Operators -/

/-- Cutting whole lines leaves a line break behind, which a deletion takes away. -/
def Operator.calls : Operator → List (Call S)
  | .delete => .perform .cut :: typed [.plain .backspace]
  | .change => [.perform .cut]
  | .yank => [.perform .copy]
  | .put => [.perform .paste]

/-! ## Lemmas -/

theorem Motion.extending_eq (m : Motion) : m.extending = m.chords.map Chord.addShift := by
  cases m with
  | step => rfl
  | word w | paragraph w | document w => cases w <;> rfl

end ModalInput
