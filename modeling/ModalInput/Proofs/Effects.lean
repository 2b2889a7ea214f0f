import ModalInput.Proofs.Run

/-!
# Effects of a run

All that presses ask of the surface and all that they log.  A step depends on the settings, on the
state and on what the surface reports, and not on what it has recorded.

    (s.pressAll ps).surface = s.surface.absorb (s.effects ps)                 (surface_pressAll)
    a.Agrees b → (a.step (.press p)).Agrees (b.step (.press p))               (Agrees.step)
-/

namespace ModalInput.Session

/-! ## Definitions -/

/-- What presses ask of the surface and what they log, in order. -/
def effects (s : Session) : List Press → List (Effect Span)
  | [] => []
  | p :: ps => (Edit.press p s.context s.state).2 ++ (s.step (.press p)).effects ps

def answers (s : Session) : List Press → List Answer
  | [] => []
  | p :: ps => s.answer (.press p) :: (s.step (.press p)).answers ps

/-- The same to an interpreter, which sees of a surface its selection and its answers. -/
structure Agrees (a b : Session) : Prop where
  config_eq : a.config = b.config
  state_eq : a.state = b.state
  selection_eq : a.surface.selection = b.surface.selection
  unavailable_eq : a.surface.unavailable = b.surface.unavailable

/-! ## What a surface makes of them -/

theorem surface_pressAll (s : Session) (ps : List Press) :
    (s.pressAll ps).surface = s.surface.absorb (s.effects ps) := by
  induction ps generalizing s with
  | nil => exact s.surface.absorb_nil.symm
  | cons p ps ih =>
    show ((s.step (.press p)).pressAll ps).surface = _
    rw [ih]
    exact (s.surface.absorb_append _ _).symm

theorem statuses_of_effects (s : Session) (ps : List Press) :
    (s.pressAll ps).surface.statuses =
      s.surface.statuses ++ (s.effects ps).filterMap Effect.status? := by
  rw [surface_pressAll]
  rfl

theorem calls_of_effects (s : Session) (ps : List Press) :
    (s.pressAll ps).surface.calls =
      s.surface.calls ++ ((s.effects ps).filterMap Effect.call?).filter
        fun c => !c.performs s.surface.unavailable := by
  rw [surface_pressAll, ← Recording.filterMap_accepted?]
  rfl

theorem warnings_answers (s : Session) (ps : List Press) :
    (s.answers ps).flatMap Answer.warnings = (s.effects ps).filterMap Effect.warning? := by
  induction ps generalizing s with
  | nil => rfl
  | cons p ps ih =>
    show _ ++ ((s.step (.press p)).answers ps).flatMap Answer.warnings = _
    rw [ih]
    exact List.filterMap_append.symm

/-! ## What they depend on -/

namespace Agrees

variable {a b : Session}

theorem context_eq (h : a.Agrees b) : a.context = b.context := by
  unfold context
  rw [h.config_eq, Recording.host_eq h.selection_eq h.unavailable_eq]

theorem step (h : a.Agrees b) (p : Press) : (a.step (.press p)).Agrees (b.step (.press p)) where
  config_eq := h.config_eq
  state_eq := by
    show (Edit.press p a.context a.state).1 = (Edit.press p b.context b.state).1
    rw [h.context_eq, h.state_eq]
  selection_eq := by
    rw [selection_step, selection_step, h.context_eq, h.state_eq, h.selection_eq]
  unavailable_eq := h.unavailable_eq

end Agrees

end ModalInput.Session
