import ModalInput.Marks
import ModalInput.Status
import ModalInput.Surface.Call

/-!
# State and effects

The interpreter is a state machine that never touches a surface.  A step takes the state before
and a context, and gives the state after and the effects that it asks for.  The context has the
answers of the surface.  `S` is what the surface uses for a selection.
-/

namespace ModalInput

structure State (S : Type) where
  mode : Mode
  pending : Pending
  marks : Marks S
  /-- The operator that waits for its motion. -/
  operator : Option Operator
  /-- Normal mode was opened from Insert mode for one command. -/
  oneShot : Bool
  deriving DecidableEq, Repr

def State.initial {S : Type} : State S := ⟨.normal, .empty, .empty, none, false⟩

def State.status {S : Type} (t : Theme) (s : State S) : Status := .of t s.mode s.pending

/-- What a surface reports during a step: its selection, if it has one, and how it takes each
action that is asked for. -/
structure Host (S : Type) where
  selection : Option S
  perform : Action → Except Refusal Unit

/-- What a step may look at besides the state. -/
structure Context (S : Type) where
  config : Config
  host : Host S

/-- A call stands here as it is made, also where the surface turns it down; a warning goes to the
log, and the surface does not see it. -/
inductive Effect (S : Type) where
  | call (c : Call S)
  | announce (s : Status)
  | warn (r : Refusal)
  deriving DecidableEq, Repr

def Effect.call? {S : Type} : Effect S → Option (Call S)
  | .call c => some c
  | .announce _ | .warn _ => none

def Effect.status? {S : Type} : Effect S → Option Status
  | .announce s => some s
  | .call _ | .warn _ => none

def Effect.warning? {S : Type} : Effect S → Option Refusal
  | .warn r => some r
  | .call _ | .announce _ => none

end ModalInput
