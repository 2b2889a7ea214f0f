import ModalInput.Key.Notation

/-!
# Writing presses in key notation

A press that a bare character reads back as is written as that character; any other goes into a
bracket, with its modifiers in the order control, alt, super, shift.
-/

namespace ModalInput.Notation

/-- The name that a bracket gives to a key. -/
def bracketNames : List (String × String) :=
  [(NamedKey.escape.name, "Esc"), (NamedKey.enter.name, "CR"), (NamedKey.backspace.name, "BS"),
   (NamedKey.delete.name, "Del"), (NamedKey.tab.name, "Tab"), (NamedKey.left.name, "Left"),
   (NamedKey.right.name, "Right"), (NamedKey.up.name, "Up"), (NamedKey.down.name, "Down"),
   (NamedKey.home.name, "Home"), (NamedKey.end.name, "End"), ("<", "lt")]

def bracketName (name : String) : String := (bracketNames.lookup name).getD name

def letterOfModifier : Modifier → Char
  | .control => 'C'
  | .alt => 'A'
  | .super => 'M'
  | .shift => 'S'

def renderBracket (p : Press) : List Char :=
  '<' :: p.modifiers.flatMap (fun m => [letterOfModifier m, '-']) ++
    (bracketName p.name).toList ++ ['>']

def render (p : Press) : List Char :=
  match p.name.toList with
  | [c] => if c ≠ '<' ∧ p = .ofChar c then [c] else renderBracket p
  | _ => renderBracket p

def renderAll (ps : List Press) : String := String.ofList (ps.flatMap render)

end ModalInput.Notation
