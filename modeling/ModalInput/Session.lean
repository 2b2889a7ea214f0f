import ModalInput.Machine.Step
import ModalInput.Surface.Recording

/-!
# Sessions

The interpreter at work on a recording.  Besides presses a session takes the transitions and the
handlers of the interpreter on their own, and changes of the surface from outside.
-/

namespace ModalInput

/-! ## Inputs -/

/-- The changes of mode that a host may ask for. -/
inductive Transition where
  | insert
  | normal
  | visual
  | visualLine
  /-- By lines over a selection that is already in place. -/
  | visualLineInPlace
  | search
  | operatorMotion
  | operatorObject
  | visualObject
  deriving DecidableEq, Repr

def Transition.edit {S : Type} : Transition → Edit S
  | .insert => .enter .insert
  | .normal => .toNormal
  | .visual => .toVisual
  | .visualLine => .toVisualLine
  | .visualLineInPlace => .enter .visualLine
  | .search => .enter .search
  | .operatorMotion => .enter .operatorMotion
  | .operatorObject => .enter .operatorObject
  | .visualObject => .enter .visualObject

/-- The tables that a key may be given to, whatever the mode. -/
inductive Handler where
  | normal
  | visual
  | operatorMotion
  | operatorObject
  | visualObject
  deriving DecidableEq, Repr

def Handler.edit {S : Type} : Handler → Key → Edit S
  | .normal => .normalKey
  | .visual => .visualKey
  | .operatorMotion => .motionKey
  | .operatorObject => .objectKey
  | .visualObject => .visualObjectKey

inductive Input where
  | press (p : Press)
  /-- The indicator is told the present state. -/
  | start
  | transition (t : Transition)
  | handle (h : Handler) (k : Key)
  /-- The selection of the surface changes. -/
  | select (selection : Option Span)
  /-- The surface loses these actions and regains all others. -/
  | withdraw (actions : List Action)
  deriving DecidableEq, Repr

/-- What an input asks of the interpreter; a change from outside asks nothing. -/
def Input.edit : Input → Edit Span
  | .press p => .press p
  | .start => .announce
  | .transition t => t.edit
  | .handle h k => h.edit k
  | .select _ => .skip
  | .withdraw _ => .skip

/-! ## Sessions -/

structure Session where
  config : Config
  state : State Span
  surface : Recording

/-- What an input gives back beside what the surface has recorded. -/
structure Answer where
  /-- For presses only. -/
  disposition : Option Disposition
  /-- What is logged of actions that the surface turns down. -/
  warnings : List Refusal
  deriving DecidableEq, Repr

namespace Session

def new (config : Config) (surface : Recording) : Session := ⟨config, .initial, surface⟩

def context (s : Session) : Context Span := ⟨s.config, s.surface.host⟩

def disposition (s : Session) (p : Press) : Disposition :=
  ModalInput.disposition s.config.keys s.state.mode p

def status (s : Session) : Status := s.state.status s.config.theme

def apply (s : Session) (e : Edit Span) : Session :=
  let r := e s.context s.state
  { s with state := r.1, surface := s.surface.absorb r.2 }

def step (s : Session) (i : Input) : Session :=
  match i with
  | .select selection => { s with surface := { s.surface with selection } }
  | .withdraw actions => { s with surface := { s.surface with unavailable := actions } }
  | _ => s.apply i.edit

def answer (s : Session) (i : Input) : Answer where
  disposition :=
    match i with
    | .press p => some (s.disposition p)
    | _ => none
  warnings := (i.edit s.context s.state).2.filterMap Effect.warning?

def drain (s : Session) : Session := { s with surface := s.surface.drain }

end Session

end ModalInput
