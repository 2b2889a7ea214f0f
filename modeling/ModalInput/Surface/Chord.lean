import ModalInput.Text.Json

/-!
# Chords

What an editing surface can be made to type: a key of its keyboard together with shift and
control.  A chord is written with the control key first, `ctrl+shift+right`.
-/

namespace ModalInput

/-! ## Keys -/

/-- A letter key goes by its lowercase letter. -/
inductive KeyCap where
  | letter (c : Char)
  | digit (c : Char)
  | backspace
  | enter
  | escape
  | space
  | end
  | home
  | left
  | up
  | right
  | down
  | delete
  deriving DecidableEq, Repr

/-- The key that types a character, shift aside; only ASCII letters, digits and the space have
one. -/
def KeyCap.ofChar? (c : Char) : Option KeyCap :=
  if c = ' ' then some .space
  else if c.isAlpha then some (.letter c.toLower)
  else if c.isDigit then some (.digit c)
  else none

def KeyCap.text : KeyCap → String
  | .letter c => String.singleton c
  | .digit c => String.singleton c
  | .backspace => "backspace"
  | .enter => "enter"
  | .escape => "esc"
  | .space => "space"
  | .end => "end"
  | .home => "home"
  | .left => "left"
  | .up => "up"
  | .right => "right"
  | .down => "down"
  | .delete => "delete"

/-- In JSON the escape key has its full name, and a letter or a digit is tagged. -/
def KeyCap.toJson : KeyCap → Text.Json
  | .letter c => .obj [("letter", .str (String.singleton c))]
  | .digit c => .obj [("digit", .str (String.singleton c))]
  | .escape => .str "escape"
  | k => .str k.text

/-! ## Modifiers -/

structure Held where
  shift : Bool
  control : Bool
  deriving DecidableEq, Repr

namespace Held

def bare : Held := ⟨false, false⟩
def onlyShift : Held := ⟨true, false⟩
def onlyControl : Held := ⟨false, true⟩
def both : Held := ⟨true, true⟩

/-- Shift is added, never taken away. -/
def addShift (h : Held) (shift : Bool) : Held := { h with shift := h.shift || shift }

def text (h : Held) : String :=
  (if h.control then "ctrl+" else "") ++ (if h.shift then "shift+" else "")

def toJson (h : Held) : Text.Json := .obj [("shift", .bool h.shift), ("control", .bool h.control)]

end Held

/-! ## Chords -/

@[ext]
structure Chord where
  key : KeyCap
  held : Held
  deriving DecidableEq, Repr

namespace Chord

def plain (k : KeyCap) : Chord := ⟨k, .bare⟩
def shift (k : KeyCap) : Chord := ⟨k, .onlyShift⟩
def control (k : KeyCap) : Chord := ⟨k, .onlyControl⟩
def controlShift (k : KeyCap) : Chord := ⟨k, .both⟩

def addShift (c : Chord) : Chord := { c with held := c.held.addShift true }

def text (c : Chord) : String := c.held.text ++ c.key.text

end Chord

end ModalInput
