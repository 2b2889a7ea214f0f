import ModalInput.Proofs.Events

/-!
# Control does not depend on the document

What the interpreter does next is settled by the settings, the state without the marks, and the
presses.  The marks and the selections of the host decide no more than what the marks hold and
which calls a jump makes.

    a.SameControl b → is.filterMap Input.press? = js.filterMap Input.press? →
      (a.stepAll is).state.SameControl (b.stepAll js).state                  (control_independent)
-/

namespace ModalInput

variable {S : Type}

/-! ## States -/

/-- The states differ at most in their marks. -/
structure State.SameControl (s t : State S) : Prop where
  mode_eq : s.mode = t.mode
  pending_eq : s.pending = t.pending
  operator_eq : s.operator = t.operator
  oneShot_eq : s.oneShot = t.oneShot

namespace State.SameControl

variable {s t u : State S}

theorem refl (s : State S) : s.SameControl s := ⟨rfl, rfl, rfl, rfl⟩

theorem symm (h : s.SameControl t) : t.SameControl s :=
  ⟨h.mode_eq.symm, h.pending_eq.symm, h.operator_eq.symm, h.oneShot_eq.symm⟩

theorem trans (h : s.SameControl t) (k : t.SameControl u) : s.SameControl u :=
  ⟨h.mode_eq.trans k.mode_eq, h.pending_eq.trans k.pending_eq, h.operator_eq.trans k.operator_eq,
    h.oneShot_eq.trans k.oneShot_eq⟩

theorem status_eq (h : s.SameControl t) (theme : Theme) : s.status theme = t.status theme := by
  unfold status
  rw [h.mode_eq, h.pending_eq]

end State.SameControl

/-! ## Edits that are steered alike -/

namespace Edit

variable {α : Type} {view : Effect S → Option α} {e f : Edit S} {cx : Context S} {s : State S}

/-- From every state with the same control, whatever the surface reports, the edit leads to a state
with the same control, and to a view that leaves out the log its effects look the same. -/
def SteadyAt (view : Effect S → Option α) (e : Edit S) (cx : Context S) (s : State S) : Prop :=
  (∀ r, view (.warn r) = none) → ∀ cy t, cx.config = cy.config → s.SameControl t →
    (e cx s).1.SameControl (e cy t).1 ∧ (e cx s).2.filterMap view = (e cy t).2.filterMap view

theorem SteadyAt.append (h : e.SteadyAt view cx s) (k : f.SteadyAt view cx (e cx s).1) :
    (e ++ f).SteadyAt view cx s := by
  intro hw cy t hc ht
  obtain ⟨hstate, hview⟩ := h hw cy t hc ht
  obtain ⟨hstate', hview'⟩ := k hw cy (e cy t).1 hc hstate
  rw [append_apply, append_apply, List.filterMap_append, List.filterMap_append, hview, hview']
  exact ⟨hstate', rfl⟩

theorem steadyAt_look {f : Context S → State S → Edit S} (h : (f cx s).SteadyAt view cx s)
    (hf : ∀ cy t, cx.config = cy.config → s.SameControl t → f cx s = f cy t) :
    (look f).SteadyAt view cx s := by
  intro hw cy t hc ht
  rw [look_apply, look_apply, ← hf cy t hc ht]
  exact h hw cy t hc ht

theorem steadyAt_skip : (skip : Edit S).SteadyAt view cx s := fun _ _ _ _ ht => ⟨ht, rfl⟩

theorem steadyAt_update {f : State S → State S}
    (h : ∀ t, s.SameControl t → (f s).SameControl (f t)) : (update f).SteadyAt view cx s :=
  fun _ _ t _ ht => ⟨h t ht, rfl⟩

theorem steadyAt_request (cs : List (Call S)) : (request cs).SteadyAt view cx s := by
  intro hw cy t _ ht
  have hstay : ∀ cz u, (request cs cz u).1 = u := fun cz u => state_request cz u cs
  rw [hstay, hstay, filterMap_request cx s hw, filterMap_request cy t hw]
  exact ⟨ht, rfl⟩

theorem steadyAt_announce : (announce : Edit S).SteadyAt view cx s := by
  intro _ cy t hc ht
  unfold announce
  rw [hc, ht.status_eq]
  exact ⟨ht, rfl⟩

/-! ## Transitions and endings -/

theorem steadyAt_enter (m : Mode) : (enter m : Edit S).SteadyAt view cx s :=
  (steadyAt_update fun _ ht => ⟨rfl, ht.pending_eq, ht.operator_eq, ht.oneShot_eq⟩).append
    steadyAt_announce

theorem steadyAt_toNormal : (toNormal : Edit S).SteadyAt view cx s := by
  refine steadyAt_look ?_ fun _ _ _ ht => by rw [ht.mode_eq]
  split
  · exact (steadyAt_request _).append (steadyAt_enter _)
  · exact steadyAt_skip.append (steadyAt_enter _)

theorem steadyAt_toVisual : (toVisual : Edit S).SteadyAt view cx s :=
  (steadyAt_enter _).append (steadyAt_request _)

theorem steadyAt_toVisualLine : (toVisualLine : Edit S).SteadyAt view cx s :=
  (steadyAt_enter _).append (steadyAt_request _)

theorem steadyAt_clearPending : (clearPending : Edit S).SteadyAt view cx s :=
  (steadyAt_update fun _ ht => ⟨ht.mode_eq, rfl, ht.operator_eq, ht.oneShot_eq⟩).append
    steadyAt_announce

theorem steadyAt_setOperator (op : Option Operator) :
    (update fun s : State S => { s with operator := op }).SteadyAt view cx s :=
  steadyAt_update fun _ ht => ⟨ht.mode_eq, ht.pending_eq, rfl, ht.oneShot_eq⟩

theorem steadyAt_operate (op : Operator) : (operate op : Edit S).SteadyAt view cx s := by
  refine ((steadyAt_setOperator none).append (steadyAt_request _)).append ?_
  cases op with
  | change => exact steadyAt_enter _
  | delete => exact steadyAt_enter _
  | yank | put => exact steadyAt_toNormal

theorem steadyAt_finish : (finish : Edit S).SteadyAt view cx s := by
  refine steadyAt_look ?_ fun _ _ _ ht => by rw [ht.mode_eq, ht.oneShot_eq]
  split
  · exact steadyAt_skip
  · refine (steadyAt_update fun _ ht => ⟨ht.mode_eq, ht.pending_eq, ht.operator_eq, rfl⟩).append ?_
    split
    · exact steadyAt_enter _
    · exact steadyAt_skip

theorem steadyAt_abandon : (abandon : Edit S).SteadyAt view cx s :=
  (steadyAt_setOperator none).append steadyAt_toNormal

/-! ## Keys -/

theorem steadyAt_motionKey (k : Key) : (motionKey k : Edit S).SteadyAt view cx s := by
  refine steadyAt_look ?_ fun _ _ _ ht => by rw [ht.operator_eq]
  split
  · exact steadyAt_toNormal
  · exact steadyAt_abandon.append steadyAt_finish
  · split
    · exact steadyAt_enter _
    · split
      · exact ((steadyAt_request _).append (steadyAt_operate _)).append steadyAt_finish
      · split
        · exact ((steadyAt_request _).append (steadyAt_operate _)).append steadyAt_finish
        · exact steadyAt_abandon.append steadyAt_finish

theorem steadyAt_objectKey (k : Key) : (objectKey k : Edit S).SteadyAt view cx s := by
  unfold objectKey
  split
  · exact (steadyAt_request _).append (steadyAt_motionKey k)
  · exact steadyAt_abandon.append steadyAt_finish

theorem steadyAt_command (cmd : Command) (count : Nat) (counted : Bool) :
    (command cmd count counted : Edit S).SteadyAt view cx s := by
  refine (steadyAt_request _).append ?_
  unfold afterCommand
  split
  · exact steadyAt_enter _
  · exact steadyAt_enter _
  · exact steadyAt_enter _
  · exact steadyAt_toVisual
  · exact steadyAt_toVisualLine
  · exact steadyAt_enter _
  · exact steadyAt_skip

/-- Whether the host has a selection shows in nothing but the marks. -/
theorem steadyAt_setMark (label : Char) : (setMark label : Edit S).SteadyAt view cx s := by
  have hframe : ∀ (cy : Context S) (t : State S),
      t.SameControl (setMark label cy t).1 ∧ (setMark label cy t).2 = [] := by
    intro cy t
    unfold setMark
    rw [look_apply]
    cases cy.host.selection with
    | none => exact ⟨.refl t, rfl⟩
    | some x => exact ⟨⟨rfl, rfl, rfl, rfl⟩, rfl⟩
  intro _ cy t _ ht
  rw [(hframe cx s).2, (hframe cy t).2]
  exact ⟨((hframe cx s).1.symm.trans ht).trans (hframe cy t).1, rfl⟩

/-- Whether a mark is set shows in nothing but the calls. -/
theorem steadyAt_jump (hview : ∀ c, view (.call c) = none) (label : Char) (linewise : Bool) :
    (jump label linewise : Edit S).SteadyAt view cx s := by
  intro hw cy t _ ht
  have hframe : ∀ (cy : Context S) (t : State S),
      (jump label linewise cy t).1 = t ∧ (jump label linewise cy t).2.filterMap view = [] := by
    intro cy t
    unfold jump
    rw [look_apply]
    cases t.marks.get? label with
    | none => exact ⟨rfl, rfl⟩
    | some x =>
      refine ⟨state_request cy t _, ?_⟩
      show (request _ cy t).2.filterMap view = []
      rw [filterMap_request cy t hw]
      refine List.filterMap_eq_nil_iff.2 fun e he => ?_
      obtain ⟨c, -, rfl⟩ := List.mem_map.1 he
      exact hview c
  rw [(hframe cx s).1, (hframe cy t).1, (hframe cx s).2, (hframe cy t).2]
  exact ⟨ht, rfl⟩

theorem steadyAt_sequence (l : Leader) (c : Char) (count : Nat)
    (hview : ∀ linewise, l = .jump linewise → ∀ d, view (.call d) = none) :
    (sequence l c count : Edit S).SteadyAt view cx s := by
  cases l with
  | mark => exact steadyAt_setMark c
  | jump linewise => exact steadyAt_jump (hview linewise rfl) c linewise
  | go =>
    unfold sequence
    dsimp only
    split
    · exact steadyAt_request _
    · exact steadyAt_skip
  | operator op =>
    unfold sequence
    dsimp only
    split
    · exact (steadyAt_request _).append (steadyAt_operate op)
    · exact ((steadyAt_setOperator _).append (steadyAt_enter _)).append (steadyAt_motionKey _)

/-- The edit changes the pending command by itself. -/
theorem steadyAt_updatePending (g : Pending → Pending) :
    (update fun s : State S => { s with pending := g s.pending }).SteadyAt view cx s :=
  steadyAt_update fun _ ht =>
    ⟨ht.mode_eq, congrArg g ht.pending_eq, ht.operator_eq, ht.oneShot_eq⟩

theorem steadyAt_normalChar (c : Char)
    (hview : s.pending.accepts c = false → ∀ linewise, s.pending.leader = some (.jump linewise) →
      ∀ d, view (.call d) = none) : (normalChar c : Edit S).SteadyAt view cx s := by
  refine steadyAt_look ?_ fun cy t hc ht => by rw [hc, ht.pending_eq]
  show SteadyAt view (ite _ _ _) cx s
  split
  · exact (steadyAt_updatePending fun p => p.push _ c).append steadyAt_announce
  · next ha =>
    split
    · next _ l hl =>
      refine (((steadyAt_updatePending fun p => { p with argument := some c }).append
        (steadyAt_sequence l c _ ?_)).append steadyAt_clearPending).append steadyAt_finish
      rintro linewise rfl
      exact hview (Bool.eq_false_iff.2 ha) linewise hl
    · exact ((steadyAt_command _ _ _).append steadyAt_clearPending).append steadyAt_finish
    · exact (steadyAt_updatePending fun p => { p with leader := some _ }).append steadyAt_announce
    · exact steadyAt_clearPending

theorem steadyAt_visualKey (k : Key) : (visualKey k : Edit S).SteadyAt view cx s := by
  unfold visualKey
  split
  · exact steadyAt_request _
  · exact steadyAt_operate _
  · exact steadyAt_enter _
  · exact steadyAt_skip

theorem steadyAt_visualObjectKey (k : Key) : (visualObjectKey k : Edit S).SteadyAt view cx s := by
  unfold visualObjectKey
  split
  · exact (steadyAt_request _).append (steadyAt_enter _)
  · exact steadyAt_skip.append (steadyAt_enter _)

/-! ## Presses -/

theorem steadyAt_escape : (escape : Edit S).SteadyAt view cx s := by
  refine steadyAt_look ?_ fun _ _ _ ht => by rw [ht.mode_eq]
  have hdrop : ∀ {t : State S},
      (update fun s : State S => { s with operator := none, oneShot := false }).SteadyAt
        view cx t :=
    steadyAt_update fun _ ht => ⟨ht.mode_eq, ht.pending_eq, rfl, rfl⟩
  split
  · exact (((steadyAt_request _).append hdrop).append steadyAt_toNormal).append
      steadyAt_clearPending
  · exact ((steadyAt_skip.append hdrop).append steadyAt_toNormal).append steadyAt_clearPending

/-- The effects of a press look the same, but for the calls of a jump. -/
theorem steadyAt_press (p : Press)
    (hview : ∀ linewise c, s.Supplies (.jump linewise) p c → ∀ d, view (.call d) = none) :
    (press p : Edit S).SteadyAt view cx s := by
  refine steadyAt_look ?_ fun cy t hc ht => by rw [hc, ht.mode_eq]
  cases hin : intake cx.config.keys s.mode p with
  | pass => exact steadyAt_skip
  | oneShot =>
    exact steadyAt_toNormal.append
      (steadyAt_update fun _ ht => ⟨ht.mode_eq, ht.pending_eq, ht.operator_eq, rfl⟩)
  | closeFind => exact steadyAt_toNormal
  | escape => exact steadyAt_escape
  | key k =>
    obtain ⟨-, -, hp, rfl⟩ := (intake_eq_key_iff _ _ _ _).1 hin
    show SteadyAt view (modeKey s.mode p.key) cx s
    cases hm : s.mode with
    | normal =>
      show SteadyAt view (normalKey p.key) cx s
      unfold normalKey
      cases hk : p.key with
      | char c =>
        exact steadyAt_normalChar c fun ha linewise hl => hview linewise c ⟨hm, hl, ⟨hk, hp.1⟩, ha⟩
      | _ => exact steadyAt_clearPending
    | visual | visualLine => exact steadyAt_visualKey _
    | operatorMotion => exact steadyAt_motionKey _
    | operatorObject => exact steadyAt_objectKey _
    | visualObject => exact steadyAt_visualObjectKey _
    | insert | search => exact steadyAt_skip

end Edit

/-! ## Sessions -/

namespace Session

/-- The sessions have the same settings, and states that differ at most in their marks. -/
structure SameControl (a b : Session) : Prop where
  config_eq : a.config = b.config
  state : a.state.SameControl b.state

/-- The sessions have announced the same since they were at `a` and at `b`. -/
def SameStatuses (a b c d : Session) : Prop :=
  ∃ as, c.surface.statuses = a.surface.statuses ++ as ∧
    d.surface.statuses = b.surface.statuses ++ as

namespace SameControl

variable {a b c : Session}

theorem refl (s : Session) : s.SameControl s := ⟨rfl, .refl _⟩

theorem symm (h : a.SameControl b) : b.SameControl a := ⟨h.config_eq.symm, h.state.symm⟩

theorem trans (h : a.SameControl b) (k : b.SameControl c) : a.SameControl c :=
  ⟨h.config_eq.trans k.config_eq, h.state.trans k.state⟩

theorem disposition_eq (h : a.SameControl b) (p : Press) : a.disposition p = b.disposition p := by
  unfold disposition
  rw [h.config_eq, h.state.mode_eq]

/-- Whatever the surfaces report. -/
theorem step (h : a.SameControl b) (p : Press) :
    (a.step (.press p)).SameControl (b.step (.press p)) ∧
      SameStatuses a b (a.step (.press p)) (b.step (.press p)) := by
  have hsteady : (Edit.press p).SteadyAt Effect.status? a.context a.state :=
    Edit.steadyAt_press p fun _ _ _ _ => rfl
  obtain ⟨hstate, hstatuses⟩ := hsteady (fun _ => rfl) b.context b.state h.config_eq h.state
  refine ⟨⟨h.config_eq, hstate⟩, _, a.statuses_step (.press p), ?_⟩
  rw [b.statuses_step (.press p)]
  exact congrArg _ hstatuses.symm

/-- With the same actions at hand, a press that is no argument of a jump makes the same calls. -/
theorem calls_step (h : a.SameControl b) (hu : a.surface.unavailable = b.surface.unavailable)
    {p : Press} (hp : ∀ linewise c, ¬ a.state.Supplies (.jump linewise) p c) :
    ∃ cs, (a.step (.press p)).surface.calls = a.surface.calls ++ cs ∧
      (b.step (.press p)).surface.calls = b.surface.calls ++ cs := by
  have hsteady : (Edit.press p).SteadyAt Effect.call? a.context a.state :=
    Edit.steadyAt_press p fun linewise c hc => absurd hc (hp linewise c)
  obtain ⟨-, hcalls⟩ := hsteady (fun _ => rfl) b.context b.state h.config_eq h.state
  refine ⟨_, Session.calls_step a p, ?_⟩
  rw [Session.calls_step b p, ← hu]
  unfold Edit.calls
  rw [hcalls]

/-- A run of events is steered like the presses in it alone. -/
theorem stepAll (h : a.SameControl b) {is : List Input} (hi : ∀ i ∈ is, i.IsEvent) :
    (a.stepAll is).SameControl (b.pressAll (is.filterMap Input.press?)) ∧
      SameStatuses a b (a.stepAll is) (b.pressAll (is.filterMap Input.press?)) := by
  induction is generalizing a b with
  | nil => exact ⟨h, [], (List.append_nil _).symm, (List.append_nil _).symm⟩
  | cons i is ih =>
    have his : ∀ j ∈ is, j.IsEvent := fun j hj => hi j (List.mem_cons_of_mem i hj)
    cases i with
    | press p =>
      obtain ⟨hone, as, hsa, hsb⟩ := h.step p
      obtain ⟨hall, bs, hta, htb⟩ := ih hone his
      refine ⟨hall, as ++ bs, ?_, ?_⟩
      · rw [← List.append_assoc, ← hsa]
        exact hta
      · rw [← List.append_assoc, ← hsb]
        exact htb
    | select x =>
      -- The run of the presses alone stands still here.
      exact ih (a := a.step (.select x)) ⟨h.config_eq, h.state⟩ his
    | _ => exact (hi _ List.mem_cons_self).elim

end SameControl

theorem unavailable_stepAll (s : Session) {is : List Input} (hi : ∀ i ∈ is, i.IsEvent) :
    (s.stepAll is).surface.unavailable = s.surface.unavailable := by
  induction is generalizing s with
  | nil => rfl
  | cons i is ih =>
    have hone : (s.step i).surface.unavailable = s.surface.unavailable := by
      cases i with
      | press | select => rfl
      | _ => exact (hi _ List.mem_cons_self).elim
    exact (ih (s.step i) fun j hj => hi j (List.mem_cons_of_mem i hj)).trans hone

/-- **Control.**  Two runs of the same presses, from states that differ at most in their marks and
with whatever selections the two hosts report in between, stay in step: they differ at most in
their marks, dispose of every press alike and announce the same.  With the same actions at hand
they make the same calls for a press, unless it is the argument of a jump. -/
theorem control_independent {a b : Session} (h : a.SameControl b) {is js : List Input}
    (hi : ∀ i ∈ is, i.IsEvent) (hj : ∀ j ∈ js, j.IsEvent)
    (hp : is.filterMap Input.press? = js.filterMap Input.press?) :
    let c := a.stepAll is
    let d := b.stepAll js
    c.state.SameControl d.state ∧ SameStatuses a b c d ∧
      ∀ p, (c.answer (.press p)).disposition = (d.answer (.press p)).disposition ∧
        (c.step (.press p)).state.SameControl (d.step (.press p)).state ∧
        SameStatuses c d (c.step (.press p)) (d.step (.press p)) ∧
        (a.surface.unavailable = b.surface.unavailable →
          (∀ linewise x, ¬ c.state.Supplies (.jump linewise) p x) →
          ∃ cs, (c.step (.press p)).surface.calls = c.surface.calls ++ cs ∧
            (d.step (.press p)).surface.calls = d.surface.calls ++ cs) := by
  intro c d
  -- Both runs are compared with the run of the presses alone, from `b`.
  obtain ⟨hc, as, hca, hab⟩ := h.stepAll hi
  obtain ⟨hd, bs, hdb, hbb⟩ := (SameControl.refl b).stepAll hj
  rw [← hp] at hd hbb
  have hcd : c.SameControl d := hc.trans hd.symm
  have hsame : as = bs := List.append_cancel_left (hab.symm.trans hbb)
  subst hsame
  refine ⟨hcd.state, ⟨as, hca, hdb⟩, fun p => ⟨?_, (hcd.step p).1.state, (hcd.step p).2, ?_⟩⟩
  · exact congrArg some (hcd.disposition_eq p)
  · intro hu hjump
    refine hcd.calls_step ?_ hjump
    rw [unavailable_stepAll a hi, unavailable_stepAll b hj, hu]

/-- A mark is set in one run, and was set in the other, whose host has no selection. -/
theorem control_independent_marked :
    let a := new .default .new
    let b : Session :=
      ⟨.default, { (.initial : State Span) with marks := Marks.empty.set 'a' ⟨1, 2⟩ },
        { Recording.new with selection := none }⟩
    let is : List Input := [.press (.ofChar 'm'), .select (some ⟨7, 9⟩), .press (.ofChar 'b')]
    let js : List Input := [.press (.ofChar 'm'), .press (.ofChar 'b'), .select (some ⟨4, 4⟩)]
    a.SameControl b ∧ (∀ i ∈ is, i.IsEvent) ∧ (∀ j ∈ js, j.IsEvent) ∧
      is.filterMap Input.press? = js.filterMap Input.press? ∧
      (a.stepAll is).state.marks ≠ (b.stepAll js).state.marks ∧
      (a.stepAll is).state.SameControl (b.stepAll js).state ∧
      ∃ cs, ((a.stepAll is).step (.press (.ofChar 'v'))).surface.calls =
          (a.stepAll is).surface.calls ++ cs ∧
        ((b.stepAll js).step (.press (.ofChar 'v'))).surface.calls =
          (b.stepAll js).surface.calls ++ cs := by
  intro a b is js
  have hab : a.SameControl b := ⟨rfl, rfl, rfl, rfl, rfl⟩
  have hi : ∀ i ∈ is, i.IsEvent := by
    intro i h
    simp only [is, List.mem_cons, List.not_mem_nil, or_false] at h
    rcases h with rfl | rfl | rfl <;> trivial
  have hj : ∀ j ∈ js, j.IsEvent := by
    intro j h
    simp only [js, List.mem_cons, List.not_mem_nil, or_false] at h
    rcases h with rfl | rfl | rfl <;> trivial
  have hp : is.filterMap Input.press? = js.filterMap Input.press? := rfl
  have hnone : (a.stepAll is).state.pending.leader = none := by decide
  obtain ⟨hcontrol, -, hpress⟩ := control_independent hab hi hj hp
  obtain ⟨-, -, -, hcalls⟩ := hpress (.ofChar 'v')
  refine ⟨hab, hi, hj, hp, by decide, hcontrol, hcalls rfl fun linewise c hc => ?_⟩
  have hleader := hc.leader_eq
  rw [hnone] at hleader
  cases hleader

end Session

end ModalInput
