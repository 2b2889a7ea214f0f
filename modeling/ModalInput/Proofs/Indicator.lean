import ModalInput.Proofs.Run

/-!
# The indicator

Once it has been told the state, the indicator shows the state after every input.  Most edits end
with an announcement of the state that they leave; those that announce nothing leave the mode and
the pending command as they are.

    f.Announces → (e ++ f).Announces                                     (Announces.of_last)
    ((s.step .start).stepAll is).shown = some ((s.step .start).stepAll is).status
                                                                         (shown_eq_status)
-/

namespace ModalInput

namespace Edit

variable {S : Type}

/-! ## Definitions -/

def statuses (e : Edit S) (cx : Context S) (s : State S) : List Status :=
  (e cx s).2.filterMap Effect.status?

/-- The last announcement is of the state that the edit leaves. -/
def Announces (e : Edit S) : Prop :=
  ∀ cx s, (e.statuses cx s).getLast? = some ((e.state cx s).status cx.config.theme)

/-- The edit says nothing, and there is nothing to say. -/
def Silent (e : Edit S) (cx : Context S) (s : State S) : Prop :=
  e.statuses cx s = [] ∧ (e.state cx s).mode = s.mode ∧ (e.state cx s).pending = s.pending

/-- The edit leaves the indicator up to date if it finds it so. -/
def KeepsShown (e : Edit S) : Prop :=
  ∀ cx s, (e.statuses cx s).getLast? = some ((e.state cx s).status cx.config.theme) ∨
    e.Silent cx s

/-! ## Rules -/

theorem statuses_append (e f : Edit S) (cx : Context S) (s : State S) :
    (e ++ f).statuses cx s = e.statuses cx s ++ f.statuses cx (e.state cx s) := by
  unfold statuses state
  rw [append_apply, List.filterMap_append]

theorem statuses_congr (cx : Context S) (s : State S) {e f : Edit S} (h : e cx s = f cx s) :
    e.statuses cx s = f.statuses cx s :=
  congrArg (fun r => r.2.filterMap Effect.status?) h

theorem statuses_look (cx : Context S) (s : State S) (f : Context S → State S → Edit S) :
    (look f).statuses cx s = (f cx s).statuses cx s := rfl

theorem statuses_request (cx : Context S) (s : State S) (cs : List (Call S)) :
    (request cs).statuses cx s = [] := by
  unfold statuses
  rw [filterMap_request cx s (fun _ => rfl), List.filterMap_map]
  exact List.filterMap_none cs

theorem Announces.keepsShown {e : Edit S} (h : e.Announces) : e.KeepsShown :=
  fun cx s => Or.inl (h cx s)

/-- What comes before does not matter. -/
theorem Announces.of_last {f : Edit S} (h : f.Announces) (e : Edit S) : (e ++ f).Announces := by
  intro cx s
  rw [statuses_append, List.getLast?_append, h cx (e.state cx s)]
  rfl

/-- Silence in the second part leaves the last word to the first. -/
theorem Announces.append {e f : Edit S} (h : e.Announces) (k : f.KeepsShown) :
    (e ++ f).Announces := by
  intro cx s
  rw [statuses_append, List.getLast?_append, state_append]
  rcases k cx (e.state cx s) with hf | ⟨hnone, hmode, hpending⟩
  · rw [hf]
    rfl
  · rw [hnone, h cx s]
    unfold State.status
    rw [hmode, hpending]
    rfl

theorem announces_look {f : Context S → State S → Edit S} (h : ∀ cx s, (f cx s).Announces) :
    (look f).Announces :=
  fun cx s => h cx s cx s

theorem keepsShown_look {f : Context S → State S → Edit S} (h : ∀ cx s, (f cx s).KeepsShown) :
    (look f).KeepsShown :=
  fun cx s => h cx s cx s

/-! ## Parts -/

theorem keepsShown_skip : (skip : Edit S).KeepsShown := fun _ _ => Or.inr ⟨rfl, rfl, rfl⟩

theorem keepsShown_request (cs : List (Call S)) : (request cs).KeepsShown := by
  refine fun cx s => Or.inr ⟨statuses_request cx s cs, ?_, ?_⟩
  · rw [state_request]
  · rw [state_request]

/-- Marks, operator and flag are not shown. -/
theorem keepsShown_update {f : State S → State S} (hm : ∀ s, (f s).mode = s.mode)
    (hp : ∀ s, (f s).pending = s.pending) : (update f).KeepsShown :=
  fun _ s => Or.inr ⟨rfl, hm s, hp s⟩

theorem announces_announce : (announce : Edit S).Announces := fun _ _ => rfl

theorem announces_enter (m : Mode) : (enter m : Edit S).Announces := announces_announce.of_last _

theorem announces_toNormal : (toNormal : Edit S).Announces :=
  announces_look fun _ _ => (announces_enter .normal).of_last _

theorem announces_toVisual : (toVisual : Edit S).Announces :=
  (announces_enter .visual).append (keepsShown_request _)

theorem announces_toVisualLine : (toVisualLine : Edit S).Announces :=
  (announces_enter .visualLine).append (keepsShown_request _)

theorem announces_clearPending : (clearPending : Edit S).Announces := announces_announce.of_last _

theorem announces_operate (op : Operator) : (operate op : Edit S).Announces := by
  unfold operate
  cases op with
  | change => exact (announces_enter .insert).of_last _
  | delete => exact (announces_enter .normal).of_last _
  | yank | put => exact announces_toNormal.of_last _

theorem keepsShown_finish : (finish : Edit S).KeepsShown := by
  refine keepsShown_look fun _ s => ?_
  split
  · exact keepsShown_skip
  · split
    · exact ((announces_enter .insert).of_last _).keepsShown
    · rw [append_skip]
      exact keepsShown_update (fun _ => rfl) (fun _ => rfl)

theorem announces_abandon : (abandon : Edit S).Announces := announces_toNormal.of_last _

/-! ## Keys -/

theorem announces_motionKey (k : Key) : (motionKey k : Edit S).Announces := by
  refine announces_look fun _ s => ?_
  split
  · exact announces_toNormal
  · exact announces_abandon.append keepsShown_finish
  · split
    · exact announces_enter .operatorObject
    · split
      · exact ((announces_operate _).of_last _).append keepsShown_finish
      · split
        · exact ((announces_operate _).of_last _).append keepsShown_finish
        · exact announces_abandon.append keepsShown_finish

theorem announces_objectKey (k : Key) : (objectKey k : Edit S).Announces := by
  unfold objectKey
  split
  · exact (announces_motionKey k).of_last _
  · exact announces_abandon.append keepsShown_finish

theorem announces_normalKey (k : Key) : (normalKey k : Edit S).Announces := by
  unfold normalKey
  split
  · refine announces_look fun cx s => ?_
    -- Where a command ends, what is pending is cleared after all the rest.
    show Announces (ite _ _ _)
    split
    · exact announces_announce.of_last _
    · split
      · exact (announces_clearPending.of_last _).append keepsShown_finish
      · exact (announces_clearPending.of_last _).append keepsShown_finish
      · exact announces_announce.of_last _
      · exact announces_clearPending
  · exact announces_clearPending

theorem keepsShown_visualKey (k : Key) : (visualKey k : Edit S).KeepsShown := by
  unfold visualKey
  split
  · exact keepsShown_request _
  · exact (announces_operate _).keepsShown
  · exact (announces_enter .visualObject).keepsShown
  · exact keepsShown_skip

theorem announces_visualObjectKey (k : Key) : (visualObjectKey k : Edit S).Announces :=
  (announces_enter .visualLine).of_last _

/-! ## Inputs -/

theorem keepsShown_press (p : Press) : (Edit.press p : Edit S).KeepsShown := by
  refine keepsShown_look fun cx s => ?_
  unfold ofIntake
  split
  · exact keepsShown_skip
  · exact (announces_toNormal.append (keepsShown_update (fun _ => rfl) (fun _ => rfl))).keepsShown
  · exact announces_toNormal.keepsShown
  · exact (announces_look fun _ _ => announces_clearPending.of_last _).keepsShown
  · unfold modeKey
    split
    · exact (announces_normalKey _).keepsShown
    · exact keepsShown_visualKey _
    · exact keepsShown_visualKey _
    · exact (announces_motionKey _).keepsShown
    · exact (announces_objectKey _).keepsShown
    · exact (announces_visualObjectKey _).keepsShown
    · exact keepsShown_skip
    · exact keepsShown_skip

end Edit

theorem Transition.announces_edit {S : Type} (t : Transition) : (t.edit : Edit S).Announces := by
  cases t with
  | normal => exact Edit.announces_toNormal
  | visual => exact Edit.announces_toVisual
  | visualLine => exact Edit.announces_toVisualLine
  | _ => exact Edit.announces_enter _

theorem Handler.keepsShown_edit {S : Type} (h : Handler) (k : Key) :
    (h.edit k : Edit S).KeepsShown := by
  cases h with
  | normal => exact (Edit.announces_normalKey k).keepsShown
  | visual => exact Edit.keepsShown_visualKey k
  | operatorMotion => exact (Edit.announces_motionKey k).keepsShown
  | operatorObject => exact (Edit.announces_objectKey k).keepsShown
  | visualObject => exact (Edit.announces_visualObjectKey k).keepsShown

theorem Input.keepsShown_edit (i : Input) : i.edit.KeepsShown := by
  cases i with
  | press p => exact Edit.keepsShown_press p
  | start => exact Edit.announces_announce.keepsShown
  | transition t => exact t.announces_edit.keepsShown
  | handle h k => exact h.keepsShown_edit k
  | select | withdraw => exact Edit.keepsShown_skip

/-! ## Sessions -/

namespace Session

/-- What the indicator was told last. -/
def shown (s : Session) : Option Status := s.surface.statuses.getLast?

/-- A change from outside does not reach the interpreter or the indicator. -/
theorem statuses_step (s : Session) (i : Input) :
    (s.step i).surface.statuses = s.surface.statuses ++ i.edit.statuses s.context s.state := by
  cases i with
  | select | withdraw => exact (List.append_nil _).symm
  | _ => rfl

theorem state_step (s : Session) (i : Input) :
    (s.step i).state = i.edit.state s.context s.state := by
  cases i <;> rfl

theorem config_step (s : Session) (i : Input) : (s.step i).config = s.config := by
  cases i <;> rfl

/-- An input ends with an announcement of the state that it leaves, or it announces nothing and
leaves the mode and the pending command as they are. -/
theorem step_announces_or_silent (s : Session) (i : Input) :
    (∃ as, (s.step i).surface.statuses = s.surface.statuses ++ as ++ [(s.step i).status]) ∨
    ((s.step i).surface.statuses = s.surface.statuses ∧
      (s.step i).state.mode = s.state.mode ∧ (s.step i).state.pending = s.state.pending) := by
  rcases i.keepsShown_edit s.context s.state with hlast | ⟨hnone, hmode, hpending⟩
  · left
    obtain ⟨as, has⟩ := List.getLast?_eq_some_iff.1 hlast
    refine ⟨as, ?_⟩
    unfold status
    rw [statuses_step, has, state_step, config_step, List.append_assoc]
    rfl
  · right
    rw [statuses_step, state_step, hnone, List.append_nil]
    exact ⟨rfl, hmode, hpending⟩

theorem shown_step (s : Session) (i : Input) (h : s.shown = some s.status) :
    (s.step i).shown = some (s.step i).status := by
  unfold shown at h ⊢
  rcases s.step_announces_or_silent i with ⟨as, hstatuses⟩ | ⟨hstatuses, hmode, hpending⟩
  · rw [hstatuses]
    exact List.getLast?_concat
  · rw [hstatuses, h]
    unfold status State.status
    rw [hmode, hpending, config_step]

theorem shown_stepAll (s : Session) (is : List Input) (h : s.shown = some s.status) :
    (s.stepAll is).shown = some (s.stepAll is).status := by
  induction is generalizing s with
  | nil => exact h
  | cons i is ih => exact ih (s.step i) (s.shown_step i h)

/-- **The indicator.**  After the start, it shows the state after every input, whatever the
interpreter and the surface at the start; and nothing that it shows changes in silence. -/
theorem shown_eq_status (s : Session) :
    (∀ is, ((s.step .start).stepAll is).shown = some ((s.step .start).stepAll is).status) ∧
    ∀ i, (s.step i).state.mode ≠ s.state.mode ∨ (s.step i).state.pending ≠ s.state.pending →
      ∃ as, as ≠ [] ∧ (s.step i).surface.statuses = s.surface.statuses ++ as := by
  constructor
  · intro is
    apply shown_stepAll
    unfold shown
    rw [statuses_step]
    exact List.getLast?_concat
  · intro i hchange
    rcases s.step_announces_or_silent i with ⟨as, hstatuses⟩ | ⟨-, hmode, hpending⟩
    · refine ⟨as ++ [(s.step i).status], by simp, ?_⟩
      rw [hstatuses, List.append_assoc]
    · rcases hchange with h | h
      · exact absurd hmode h
      · exact absurd hpending h

/-- Transitions and handlers in any order; and a leader, which is pending, is announced. -/
theorem shown_eq_status_interleaved :
    let s := Session.new .default .new
    ((s.step .start).stepAll [.transition .visualLine, .handle .normal (.char '2'),
        .handle .operatorObject .enter, .press (.ofName "Escape")]).shown =
      some ⟨.normal, "NORMAL", true, Theme.default.normal⟩ ∧
    (s.step (.press (.ofChar 'd'))).state.pending ≠ s.state.pending ∧
    ∃ as, as ≠ [] ∧
      (s.step (.press (.ofChar 'd'))).surface.statuses = s.surface.statuses ++ as := by
  intro s
  have hlaw := shown_eq_status s
  have hchange : (s.step (.press (.ofChar 'd'))).state.pending ≠ s.state.pending := by decide
  exact ⟨hlaw.1 _, hchange, hlaw.2 _ (Or.inr hchange)⟩

end Session

end ModalInput
