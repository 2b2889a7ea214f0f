import ModalInput.Surface.Chord

/-!
# Calls to a surface

The requests that the interpreter makes of an editing surface: type a chord, perform an action of
the menu, or put back a selection.  `S` is what the surface uses for a selection.
-/

namespace ModalInput

/-! ## Actions -/

inductive Action where
  | copy
  | cut
  | paste
  | undo
  | redo
  deriving DecidableEq, Repr

def Action.name : Action → String
  | .copy => "copy"
  | .cut => "cut"
  | .paste => "paste"
  | .undo => "undo"
  | .redo => "redo"

/-- The caption of the menu item for an action. -/
def Action.menuItem : Action → String
  | .copy => "Copy"
  | .cut => "Cut"
  | .paste => "Paste"
  | .undo => "Undo"
  | .redo => "Redo"

/-- Why a surface turns an action down: it has no menu item for it. -/
inductive Refusal where
  | noMenuItem (action : Action)
  deriving DecidableEq, Repr

def Refusal.message : Refusal → String
  | .noMenuItem a => "could not find menu item with caption " ++ a.menuItem

/-! ## Calls -/

inductive Call (S : Type) where
  | type (chord : Chord)
  | perform (action : Action)
  | restore (selection : S)
  deriving DecidableEq, Repr

/-- A selection in a text, from one offset to another. -/
@[ext]
structure Span where
  start : Nat
  stop : Nat
  deriving DecidableEq, Repr

def Span.text (r : Span) : String := Text.decimal r.start ++ ".." ++ Text.decimal r.stop

def Call.text : Call Span → String
  | .type c => "emit " ++ c.text
  | .perform a => "perform " ++ a.name
  | .restore r => "restore " ++ r.text

def Call.toJson : Call Span → Text.Json
  | .type c => .obj [("call", .str "emit"), ("key", c.key.toJson), ("mods", c.held.toJson)]
  | .perform a => .obj [("call", .str "perform"), ("action", .str a.name)]
  | .restore r =>
    .obj [("call", .str "restore_selection"),
      ("range", .obj [("start", .nat r.start), ("end", .nat r.stop)])]

end ModalInput
