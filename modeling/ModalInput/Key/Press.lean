import ModalInput.Text.Uppercase

/-!
# Key presses

A press is a key under the name the host gives it, one character for a key that types and a word
for any other, with the modifiers held.  `Press.key` sorts the name into what the interpreter
tells apart.
-/

namespace ModalInput

/-! ## Names -/

/-- Keys that type nothing and have a name of their own. -/
inductive NamedKey where
  | escape
  | enter
  | backspace
  | delete
  | tab
  | left
  | right
  | up
  | down
  | home
  | end
  deriving DecidableEq, Repr

def NamedKey.name : NamedKey → String
  | .escape => "Escape"
  | .enter => "Enter"
  | .backspace => "Backspace"
  | .delete => "Delete"
  | .tab => "Tab"
  | .left => "ArrowLeft"
  | .right => "ArrowRight"
  | .up => "ArrowUp"
  | .down => "ArrowDown"
  | .home => "Home"
  | .end => "End"

/-! ## Keys -/

/-- A key as the interpreter sees it. -/
inductive Key where
  | char (c : Char)
  | escape
  | enter
  /-- A modifier pressed on its own. -/
  | modifier
  | other (name : String)
  deriving DecidableEq, Repr

def modifierNames : List String :=
  ["Shift", "Control", "Alt", "AltGraph", "Meta", "OS", "CapsLock", "Fn"]

/-- A name of exactly one character is that character, whatever it is. -/
def Key.ofName (name : String) : Key :=
  match name.toList with
  | [c] => .char c
  | _ =>
    if name = "Escape" ∨ name = "Esc" then .escape
    else if name = "Enter" then .enter
    else if name ∈ modifierNames then .modifier
    else .other name

def Key.char? : Key → Option Char
  | .char c => some c
  | _ => none

/-! ## Presses -/

inductive Modifier where
  | shift
  | control
  | alt
  | super
  deriving DecidableEq, Repr

@[ext]
structure Press where
  name : String
  shift : Bool
  control : Bool
  alt : Bool
  super : Bool
  deriving DecidableEq, Repr

/-- The press of a key alone; an uppercase character is typed with shift. -/
def Press.ofName (name : String) : Press where
  name := name
  shift :=
    match name.toList with
    | [c] => Text.isUppercase c
    | _ => false
  control := false
  alt := false
  super := false

def Press.ofChar (c : Char) : Press := .ofName (String.singleton c)

def Press.hold (p : Press) : Modifier → Press
  | .shift => { p with shift := true }
  | .control => { p with control := true }
  | .alt => { p with alt := true }
  | .super => { p with super := true }

def Press.holdAll (p : Press) (ms : List Modifier) : Press := ms.foldl Press.hold p

/-- The modifiers held, in the order control, alt, super, shift. -/
def Press.modifiers (p : Press) : List Modifier :=
  (if p.control then [.control] else []) ++ (if p.alt then [.alt] else []) ++
    (if p.super then [.super] else []) ++ (if p.shift then [.shift] else [])

def Press.key (p : Press) : Key := .ofName p.name

/-- The modifiers that hosts keep for shortcuts of their own. -/
def Press.hasHostModifier (p : Press) : Bool := p.control || p.alt || p.super

/-- What becomes of a press once the interpreter has seen it. -/
inductive Disposition where
  | suppress
  | pass
  deriving DecidableEq, Repr

end ModalInput
