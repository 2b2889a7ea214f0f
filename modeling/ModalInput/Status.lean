import ModalInput.Command.Pending
import ModalInput.Config.Settings
import ModalInput.Mode

/-!
# Status

What the mode indicator is told: the mode, a text, whether the caret of the surface shows, and the
style.  The text is the pending command if there is one, and else the label of the mode.
-/

namespace ModalInput

@[ext]
structure Status where
  mode : Mode
  text : String
  caretVisible : Bool
  style : Style
  deriving DecidableEq, Repr

def Theme.style (t : Theme) : Mode → Style
  | .normal => t.normal
  | .insert => t.insert
  | .visual | .visualLine => t.visual
  | .search => t.search
  | .operatorMotion | .operatorObject | .visualObject => t.pending

def Status.of (t : Theme) (m : Mode) (p : Pending) : Status where
  mode := m
  text := p.text?.getD m.label
  caretVisible := m ≠ .insert
  style := t.style m

def Status.line (s : Status) : String := "-- " ++ s.text ++ " --"

end ModalInput
