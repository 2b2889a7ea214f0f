/-!
# Modes

The modes of the interpreter, with the names that announcements carry and the labels that the
indicator shows.
-/

namespace ModalInput

inductive Mode where
  | normal
  /-- Keys go straight to the surface. -/
  | insert
  /-- A selection by characters. -/
  | visual
  /-- A selection by lines. -/
  | visualLine
  /-- The find box of the host has the keyboard. -/
  | search
  /-- An operator waits for its motion. -/
  | operatorMotion
  /-- An operator waits for its text object. -/
  | operatorObject
  /-- A visual selection waits for its text object. -/
  | visualObject
  deriving DecidableEq, Repr

namespace Mode

def name : Mode → String
  | .normal => "Normal"
  | .insert => "Insert"
  | .visual => "Visual"
  | .visualLine => "VisualLine"
  | .search => "Search"
  | .operatorMotion => "WaitForOperatorMotion1"
  | .operatorObject => "WaitForOperatorMotion2"
  | .visualObject => "WaitForVisualTextObject"

def label : Mode → String
  | .normal => "NORMAL"
  | .insert => "INSERT"
  | .visual => "VISUAL"
  | .visualLine => "VISUAL LINE"
  | .search => "SEARCH"
  | .operatorMotion => "OPERATOR"
  | .operatorObject => "OPERATOR OBJECT"
  | .visualObject => "VISUAL OBJECT"

def isSelecting : Mode → Bool
  | .visual | .visualLine => true
  | _ => false

/-- One more key is due before a command is complete. -/
def awaitsKey : Mode → Bool
  | .operatorMotion | .operatorObject | .visualObject => true
  | _ => false

end Mode

end ModalInput
