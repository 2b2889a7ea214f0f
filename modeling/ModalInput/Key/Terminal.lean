import ModalInput.Key.Press

/-!
# Presses from a terminal

A terminal reports a key code and the modifiers held.  Keys without a counterpart among the host's
names become a key that no table knows.  The names of the others are those of the key notation.

    Code.name (.named k) = k.name      (name_named)
-/

namespace ModalInput.Terminal

inductive Code where
  | char (c : Char)
  | function (n : Nat)
  | named (k : NamedKey)
  | backTab
  | pageUp
  | pageDown
  | insert
  | null
  | capsLock
  | numLock
  | scrollLock
  | printScreen
  | pause
  | menu
  | keypadBegin
  | media
  /-- A modifier key on its own, on either side of the keyboard. -/
  | modifier
  deriving DecidableEq, Repr

/-- A modifier as a terminal reports it. -/
inductive Flag where
  | shift
  | control
  | alt
  | super
  | hyper
  | metaKey
  deriving DecidableEq, Repr

/-- The host's name of a key; a back tab is a tab, and any modifier key counts as the shift key. -/
def Code.name : Code → String
  | .char c => String.singleton c
  | .named .escape => "Escape"
  | .named .enter => "Enter"
  | .named .backspace => "Backspace"
  | .named .delete => "Delete"
  | .named .tab | .backTab => "Tab"
  | .named .left => "ArrowLeft"
  | .named .right => "ArrowRight"
  | .named .up => "ArrowUp"
  | .named .down => "ArrowDown"
  | .named .home => "Home"
  | .named .end => "End"
  | .capsLock => "CapsLock"
  | .modifier => "Shift"
  | _ => "Unidentified"

/-- Hyper has no counterpart and is dropped. -/
def Flag.modifier? : Flag → Option Modifier
  | .shift => some .shift
  | .control => some .control
  | .alt => some .alt
  | .super => some .super
  | .metaKey => some .super
  | .hyper => none

def press (code : Code) (flags : List Flag) : Press :=
  (Press.ofName code.name).holdAll (flags.filterMap Flag.modifier?)

/-! ## Lemmas -/

theorem Code.name_named (k : NamedKey) : Code.name (.named k) = k.name := by
  cases k <;> rfl

end ModalInput.Terminal
