import ModalInput.Proofs.Effects

/-!
# Refused actions

An action that a surface turns down shows in the log and nowhere else.  Every edit leaves the state
that it leaves on a surface with all actions, and it has the same effects, with a warning after each
action that is turned down.

    (press p).CarriesOn                                                     (carriesOn_press)
    a.effects ps = (b.effects ps).flatMap (Effect.heard (answer u))         (Lacks.effects_eq)
-/

namespace ModalInput

variable {S : Type}

/-! ## Definitions -/

/-- What a call is turned down with. -/
def Call.refusal? (perform : Action → Except Refusal Unit) : Call S → Option Refusal
  | .perform a =>
    match perform a with
    | .ok () => none
    | .error r => some r
  | .type _ | .restore _ => none

/-- An effect on a surface that answers with `perform`, from one on a surface with all actions.
There is no other reason for a warning than such an answer. -/
def Effect.heard (perform : Action → Except Refusal Unit) : Effect S → List (Effect S)
  | .call c => .call c :: (c.refusal? perform).toList.map .warn
  | .announce s => [.announce s]
  | .warn _ => []

/-- The same surface with all actions. -/
def Context.willing (cx : Context S) : Context S :=
  { cx with host := { cx.host with perform := fun _ => .ok () } }

/-- Whatever the surface turns down, the edit leaves the state that it leaves on a surface with all
actions, and it has the same effects and the warnings. -/
def Edit.CarriesOn (e : Edit S) : Prop :=
  ∀ cx s, e cx s =
    ((e cx.willing s).1, (e cx.willing s).2.flatMap (Effect.heard cx.host.perform))

/-! ## What is heard -/

section
variable (perform : Action → Except Refusal Unit) (es : List (Effect S))

/-- A view that leaves out the log sees no difference. -/
theorem filterMap_heard {α : Type} {view : Effect S → Option α}
    (hview : ∀ r, view (.warn r) = none) :
    (es.flatMap (Effect.heard perform)).filterMap view = es.filterMap view := by
  induction es with
  | nil => rfl
  | cons e es ih =>
    have hone : (e.heard perform).filterMap view = [e].filterMap view := by
      cases e with
      | announce => rfl
      | warn r => exact (List.filterMap_cons_none (hview r)).symm
      | call c =>
        have hlog : ((c.refusal? perform).toList.map Effect.warn).filterMap view = [] := by
          cases c.refusal? perform with
          | none => rfl
          | some r => exact List.filterMap_cons_none (hview r)
        show ([Effect.call c] ++ (c.refusal? perform).toList.map Effect.warn).filterMap view = _
        rw [List.filterMap_append, hlog, List.append_nil]
    rw [List.flatMap_cons, List.filterMap_append, hone, ih]
    exact List.filterMap_append.symm

/-- The log holds the answers to the calls that are turned down. -/
theorem warnings_heard :
    (es.flatMap (Effect.heard perform)).filterMap Effect.warning? =
      (es.filterMap Effect.call?).filterMap (Call.refusal? perform) := by
  induction es with
  | nil => rfl
  | cons e es ih =>
    have hone : (e.heard perform).filterMap Effect.warning? =
        ([e].filterMap Effect.call?).filterMap (Call.refusal? perform) := by
      cases e with
      | announce | warn => rfl
      | call c =>
        show ((c.refusal? perform).toList.map Effect.warn).filterMap Effect.warning? =
          [c].filterMap (Call.refusal? perform)
        rw [List.filterMap_cons]
        cases c.refusal? perform <;> rfl
    rw [List.flatMap_cons, List.filterMap_append, hone, ih, ← List.filterMap_append,
      ← List.filterMap_append]
    rfl

end

/-! ## Edits that carry on -/

namespace Edit

theorem CarriesOn.append {e f : Edit S} (h : e.CarriesOn) (k : f.CarriesOn) :
    (e ++ f).CarriesOn := by
  intro cx s
  rw [append_apply, append_apply, h cx s, k cx (e cx.willing s).1, List.flatMap_append]

theorem carriesOn_skip : (skip : Edit S).CarriesOn := fun _ _ => rfl

theorem carriesOn_update (f : State S → State S) : (update f).CarriesOn := fun _ _ => rfl

theorem carriesOn_announce : (announce : Edit S).CarriesOn := fun _ _ => rfl

/-- The choice is not made by what the surface turns down. -/
theorem carriesOn_look {f : Context S → State S → Edit S} (h : ∀ cx s, (f cx s).CarriesOn)
    (hf : ∀ cx s, f cx.willing s = f cx s) : (look f).CarriesOn := by
  intro cx s
  rw [look_apply, look_apply, hf cx s]
  exact h cx s cx s

theorem carriesOn_perform (a : Action) : (perform a : Edit S).CarriesOn := by
  intro cx s
  have hall : perform a cx.willing s = (s, [.call (.perform a)]) := rfl
  have hlog : log (cx.host.perform a) cx s =
      (s, ((Call.perform a : Call S).refusal? cx.host.perform).toList.map .warn) := by
    simp only [Call.refusal?]
    cases cx.host.perform a <;> rfl
  rw [hall]
  show (_, [Effect.call (.perform a)] ++ (log (cx.host.perform a) cx s).2) = _
  rw [List.flatMap_singleton]
  exact congrArg (fun r => (r.1, Effect.call (.perform a) :: r.2)) hlog

theorem carriesOn_call (c : Call S) : (call c).CarriesOn := by
  cases c with
  | type | restore => exact fun _ _ => rfl
  | perform a => exact carriesOn_perform a

theorem carriesOn_request (cs : List (Call S)) : (request cs).CarriesOn := by
  induction cs with
  | nil => exact carriesOn_skip
  | cons c cs ih => exact (carriesOn_call c).append ih

/-! ## Transitions and endings -/

theorem carriesOn_enter (m : Mode) : (enter m : Edit S).CarriesOn :=
  (carriesOn_update _).append carriesOn_announce

theorem carriesOn_toNormal : (toNormal : Edit S).CarriesOn := by
  refine carriesOn_look (fun _ s => ?_) (fun _ _ => rfl)
  split
  · exact (carriesOn_request _).append (carriesOn_enter _)
  · exact carriesOn_skip.append (carriesOn_enter _)

theorem carriesOn_toVisual : (toVisual : Edit S).CarriesOn :=
  (carriesOn_enter _).append (carriesOn_request _)

theorem carriesOn_toVisualLine : (toVisualLine : Edit S).CarriesOn :=
  (carriesOn_enter _).append (carriesOn_request _)

theorem carriesOn_clearPending : (clearPending : Edit S).CarriesOn :=
  (carriesOn_update _).append carriesOn_announce

/-- The mode changes after an operator also where its action is turned down. -/
theorem carriesOn_operate (op : Operator) : (operate op : Edit S).CarriesOn := by
  refine ((carriesOn_update _).append (carriesOn_request _)).append ?_
  cases op with
  | change => exact carriesOn_enter _
  | delete => exact carriesOn_enter _
  | yank | put => exact carriesOn_toNormal

theorem carriesOn_finish : (finish : Edit S).CarriesOn := by
  refine carriesOn_look (fun _ s => ?_) (fun _ _ => rfl)
  split
  · exact carriesOn_skip
  · refine (carriesOn_update _).append ?_
    split
    · exact carriesOn_enter _
    · exact carriesOn_skip

theorem carriesOn_abandon : (abandon : Edit S).CarriesOn :=
  (carriesOn_update _).append carriesOn_toNormal

/-! ## Keys -/

theorem carriesOn_motionKey (k : Key) : (motionKey k : Edit S).CarriesOn := by
  refine carriesOn_look (fun _ s => ?_) (fun _ _ => rfl)
  split
  · exact carriesOn_toNormal
  · exact carriesOn_abandon.append carriesOn_finish
  · split
    · exact carriesOn_enter _
    · split
      · exact ((carriesOn_request _).append (carriesOn_operate _)).append carriesOn_finish
      · split
        · exact ((carriesOn_request _).append (carriesOn_operate _)).append carriesOn_finish
        · exact carriesOn_abandon.append carriesOn_finish

theorem carriesOn_objectKey (k : Key) : (objectKey k : Edit S).CarriesOn := by
  unfold objectKey
  split
  · exact (carriesOn_request _).append (carriesOn_motionKey k)
  · exact carriesOn_abandon.append carriesOn_finish

theorem carriesOn_setMark (label : Char) : (setMark label : Edit S).CarriesOn := by
  refine carriesOn_look (fun cx _ => ?_) (fun _ _ => rfl)
  split
  · exact carriesOn_update _
  · exact carriesOn_skip

theorem carriesOn_jump (label : Char) (linewise : Bool) :
    (jump label linewise : Edit S).CarriesOn := by
  refine carriesOn_look (fun _ s => ?_) (fun _ _ => rfl)
  split
  · exact carriesOn_request _
  · exact carriesOn_skip

theorem carriesOn_sequence (l : Leader) (c : Char) (count : Nat) :
    (sequence l c count : Edit S).CarriesOn := by
  unfold sequence
  split
  · exact carriesOn_setMark c
  · exact carriesOn_jump c _
  · split
    · exact carriesOn_request _
    · exact carriesOn_skip
  · split
    · exact (carriesOn_request _).append (carriesOn_operate _)
    · exact ((carriesOn_update _).append (carriesOn_enter _)).append (carriesOn_motionKey _)

/-- A counted command goes through all its rounds, and only then changes the mode. -/
theorem carriesOn_command (c : Command) (count : Nat) (counted : Bool) :
    (command c count counted : Edit S).CarriesOn := by
  refine (carriesOn_request _).append ?_
  unfold afterCommand
  split
  · exact carriesOn_enter _
  · exact carriesOn_enter _
  · exact carriesOn_enter _
  · exact carriesOn_toVisual
  · exact carriesOn_toVisualLine
  · exact carriesOn_enter _
  · exact carriesOn_skip

theorem carriesOn_normalKey (k : Key) : (normalKey k : Edit S).CarriesOn := by
  unfold normalKey
  split
  · refine carriesOn_look (fun cx s => ?_) (fun _ _ => rfl)
    show CarriesOn (ite _ _ _)
    split
    · exact (carriesOn_update _).append carriesOn_announce
    · split
      · exact (((carriesOn_update _).append (carriesOn_sequence _ _ _)).append
          carriesOn_clearPending).append carriesOn_finish
      · exact ((carriesOn_command _ _ _).append carriesOn_clearPending).append carriesOn_finish
      · exact (carriesOn_update _).append carriesOn_announce
      · exact carriesOn_clearPending
  · exact carriesOn_clearPending

theorem carriesOn_visualKey (k : Key) : (visualKey k : Edit S).CarriesOn := by
  unfold visualKey
  split
  · exact carriesOn_request _
  · exact carriesOn_operate _
  · exact carriesOn_enter _
  · exact carriesOn_skip

theorem carriesOn_visualObjectKey (k : Key) : (visualObjectKey k : Edit S).CarriesOn := by
  unfold visualObjectKey
  split
  · exact (carriesOn_request _).append (carriesOn_enter _)
  · exact carriesOn_skip.append (carriesOn_enter _)

/-! ## Presses -/

theorem carriesOn_escape : (escape : Edit S).CarriesOn := by
  refine carriesOn_look (fun _ s => ?_) (fun _ _ => rfl)
  split
  · exact (((carriesOn_request _).append (carriesOn_update _)).append carriesOn_toNormal).append
      carriesOn_clearPending
  · exact ((carriesOn_skip.append (carriesOn_update _)).append carriesOn_toNormal).append
      carriesOn_clearPending

theorem carriesOn_modeKey (m : Mode) (k : Key) : (modeKey m k : Edit S).CarriesOn := by
  cases m with
  | normal => exact carriesOn_normalKey k
  | visual | visualLine => exact carriesOn_visualKey k
  | operatorMotion => exact carriesOn_motionKey k
  | operatorObject => exact carriesOn_objectKey k
  | visualObject => exact carriesOn_visualObjectKey k
  | insert | search => exact carriesOn_skip

theorem carriesOn_press (p : Press) : (press p : Edit S).CarriesOn := by
  refine carriesOn_look (fun cx s => ?_) (fun _ _ => rfl)
  cases intake cx.config.keys s.mode p with
  | pass => exact carriesOn_skip
  | oneShot => exact carriesOn_toNormal.append (carriesOn_update _)
  | closeFind => exact carriesOn_toNormal
  | escape => exact carriesOn_escape
  | key k => exact carriesOn_modeKey s.mode k

end Edit

/-! ## Recordings without some actions -/

/-- A call is turned down exactly if it performs an action that is not there. -/
theorem isSome_refusal? (u : List Action) (c : Call S) :
    (c.refusal? (Recording.answer u)).isSome = c.performs u := by
  cases c with
  | type | restore => rfl
  | perform a =>
    unfold Call.refusal? Recording.answer Call.performs
    by_cases h : a ∈ u <;> simp [h]

theorem length_filterMap_refusal? (u : List Action) (cs : List (Call S)) :
    (cs.filterMap (Call.refusal? (Recording.answer u))).length = cs.countP (Call.performs u) := by
  rw [List.length_filterMap_eq_countP]
  exact congrArg (cs.countP ·) (funext (isSome_refusal? u))

/-! ## Sessions -/

namespace Session

/-- The sessions differ in what they have recorded, and in that `a` is without the actions `u`
where `b` has all of them. -/
structure Lacks (u : List Action) (a b : Session) : Prop where
  config_eq : a.config = b.config
  state_eq : a.state = b.state
  selection_eq : a.surface.selection = b.surface.selection
  unavailable_eq : a.surface.unavailable = u
  unavailable_eq_nil : b.surface.unavailable = []

theorem lacks_withdraw (s : Session) (u : List Action) :
    Lacks u (s.step (.withdraw u)) (s.step (.withdraw [])) :=
  ⟨rfl, rfl, rfl, rfl, rfl⟩

namespace Lacks

variable {u : List Action} {a b : Session}

theorem context_eq (h : Lacks u a b) : b.context = a.context.willing := by
  have hall : Recording.answer [] = fun _ => .ok () := funext fun _ => if_neg List.not_mem_nil
  unfold context Context.willing Recording.host
  rw [h.config_eq, h.selection_eq, h.unavailable_eq_nil, hall]

theorem press_apply (h : Lacks u a b) (p : Press) :
    Edit.press p a.context a.state =
      ((Edit.press p b.context b.state).1,
        (Edit.press p b.context b.state).2.flatMap (Effect.heard (Recording.answer u))) := by
  rw [h.context_eq, ← h.state_eq, ← h.unavailable_eq]
  exact Edit.carriesOn_press p a.context a.state

theorem calls_press (h : Lacks u a b) (p : Press) :
    (Edit.press p).calls a.context a.state = (Edit.press p).calls b.context b.state := by
  unfold Edit.calls
  rw [h.press_apply p]
  exact filterMap_heard _ _ fun _ => rfl

theorem step (h : Lacks u a b) (p : Press) :
    Lacks u (a.step (.press p)) (b.step (.press p)) where
  config_eq := h.config_eq
  state_eq := by
    show (Edit.press p a.context a.state).1 = (Edit.press p b.context b.state).1
    rw [h.press_apply p]
  selection_eq := by rw [selection_step, selection_step, h.calls_press p, h.selection_eq]
  unavailable_eq := h.unavailable_eq
  unavailable_eq_nil := h.unavailable_eq_nil

theorem pressAll (h : Lacks u a b) (ps : List Press) : Lacks u (a.pressAll ps) (b.pressAll ps) := by
  induction ps generalizing a b with
  | nil => exact h
  | cons p ps ih => exact ih (h.step p)

/-- The run has the effects of the other one and the warnings. -/
theorem effects_eq (h : Lacks u a b) (ps : List Press) :
    a.effects ps = (b.effects ps).flatMap (Effect.heard (Recording.answer u)) := by
  induction ps generalizing a b with
  | nil => rfl
  | cons p ps ih =>
    unfold effects
    rw [ih (h.step p), h.press_apply p, List.flatMap_append]

theorem dispositions_eq (h : Lacks u a b) (ps : List Press) :
    (a.answers ps).map Answer.disposition = (b.answers ps).map Answer.disposition := by
  induction ps generalizing a b with
  | nil => rfl
  | cons p ps ih =>
    have hone : (a.answer (.press p)).disposition = (b.answer (.press p)).disposition := by
      unfold answer disposition
      rw [h.config_eq, h.state_eq]
    unfold answers
    rw [List.map_cons, List.map_cons, hone, ih (h.step p)]

theorem warnings_eq (h : Lacks u a b) (ps : List Press) :
    (a.answers ps).flatMap Answer.warnings =
      ((b.effects ps).filterMap Effect.call?).filterMap (Call.refusal? (Recording.answer u)) := by
  rw [warnings_answers, h.effects_eq, warnings_heard]

end Lacks

/-- **Refused actions.**  Without the actions `u` a run differs from one with every action at hand
in this alone: the calls that perform one of them are missing from the record, and the log has a
warning for each. -/
theorem refused_actions_only (s : Session) (ps : List Press) (u : List Action) :
    let a := s.step (.withdraw u)
    let b := s.step (.withdraw [])
    (a.pressAll ps).state = (b.pressAll ps).state ∧
      (a.answers ps).map Answer.disposition = (b.answers ps).map Answer.disposition ∧
      (a.pressAll ps).surface.statuses = (b.pressAll ps).surface.statuses ∧
      (a.pressAll ps).surface.selection = (b.pressAll ps).surface.selection ∧
      ∃ cs, (b.pressAll ps).surface.calls = s.surface.calls ++ cs ∧
        (a.pressAll ps).surface.calls = s.surface.calls ++ cs.filter (fun c => !c.performs u) ∧
        (a.answers ps).flatMap Answer.warnings =
          cs.filterMap (Call.refusal? (Recording.answer u)) ∧
        ((a.answers ps).flatMap Answer.warnings).length = cs.countP (Call.performs u) ∧
        (b.answers ps).flatMap Answer.warnings = [] := by
  intro a b
  have h : Lacks u a b := s.lacks_withdraw u
  have hnone : Lacks [] b b := s.lacks_withdraw []
  refine ⟨(h.pressAll ps).state_eq, h.dispositions_eq ps, ?_, (h.pressAll ps).selection_eq,
    (b.effects ps).filterMap Effect.call?, ?_, ?_, h.warnings_eq ps, ?_, ?_⟩
  · rw [statuses_of_effects, statuses_of_effects, h.effects_eq, filterMap_heard _ _ fun _ => rfl]
    rfl
  · rw [calls_of_effects]
    exact congrArg (s.surface.calls ++ ·) (Call.filter_performs_nil _)
  · rw [calls_of_effects, h.effects_eq, filterMap_heard _ _ fun _ => rfl]
    rfl
  · rw [h.warnings_eq, length_filterMap_refusal?]
  · refine List.eq_nil_of_length_eq_zero ?_
    rw [hnone.warnings_eq, length_filterMap_refusal?, List.countP_eq_zero]
    exact fun c _ hc => by cases c <;> cases hc

end Session

end ModalInput
