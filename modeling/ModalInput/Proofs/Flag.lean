import ModalInput.Proofs.OneShot

/-!
# The flag beside the rest of the state

Only the end of a command looks at the flag, to take the way back.  So with the flag on an edit
calls what it calls with the flag off, and it leaves the same state but for the flag and the way
back.

    s.mode ≠ .insert → ¬ s.Cancels p →
      ((press p).state cx (s.flagged true)).Returns ((press p).state cx (s.flagged false))
                                                                         (shadows_press)
-/

namespace ModalInput

variable {S : Type}

namespace State

def flagged (s : State S) (on : Bool) : State S := { s with oneShot := on }

/-- The state `t` is `u` with the flag on, or that with the way back taken. -/
def Returns (t u : State S) : Prop :=
  u.oneShot = false ∧ (t = u.flagged true ∨ t = (u.flagged true).resume)

theorem resume_flagged (u : State S) (hu : u.oneShot = false) :
    (u.flagged true).resume = u.flagged true ∨
      (u.flagged true).resume = { u with mode := if u.mode = .normal then .insert else u.mode } := by
  unfold resume
  by_cases h : (u.flagged true).oneShot ∧ ¬ (u.flagged true).mode.awaitsKey ∧
      (u.flagged true).mode ≠ .search
  · rw [if_pos h, hu]
    exact Or.inr rfl
  · rw [if_neg h]
    exact Or.inl rfl

variable {t u : State S}

theorem Returns.cases (h : t.Returns u) :
    t = u.flagged true ∨ t = { u with mode := if u.mode = .normal then .insert else u.mode } := by
  rcases h.2 with rfl | rfl
  · exact Or.inl rfl
  · exact u.resume_flagged h.1

theorem Returns.of_on (h : t.Returns u) (ho : t.oneShot = true) : t = u.flagged true := by
  refine h.cases.resolve_right fun e => ?_
  rw [e, h.1] at ho
  cases ho

theorem Returns.of_off (h : t.Returns u) (ho : t.oneShot = false) :
    t = { u with mode := if u.mode = .normal then .insert else u.mode } := by
  refine h.cases.resolve_left fun e => ?_
  rw [e] at ho
  cases ho

end State

namespace Edit

/-! ## Edits that do not look -/

/-- The edit neither reads nor writes the flag. -/
def Blind (e : Edit S) : Prop :=
  ∀ cx s on, e cx (s.flagged on) = ((e cx s).1.flagged on, (e cx s).2)

theorem Blind.append {e f : Edit S} (h : e.Blind) (k : f.Blind) : (e ++ f).Blind := by
  intro cx s on
  rw [append_apply, append_apply, h cx s on, k cx (e cx s).1 on]

theorem blind_skip : (skip : Edit S).Blind := fun _ _ _ => rfl

theorem blind_update {f : State S → State S} (h : ∀ s on, f (s.flagged on) = (f s).flagged on) :
    (update f).Blind :=
  fun _ s on => congrArg (·, []) (h s on)

theorem blind_emit (c : Call S) : (emit c).Blind := fun _ _ _ => rfl

theorem blind_warn (r : Refusal) : (warn r : Edit S).Blind := fun _ _ _ => rfl

theorem blind_announce : (announce : Edit S).Blind := fun _ _ _ => rfl

theorem blind_look {f : Context S → State S → Edit S} (h : ∀ cx s, (f cx s).Blind)
    (hf : ∀ cx s on, f cx (s.flagged on) = f cx s) : (look f).Blind := by
  intro cx s on
  rw [look_apply, look_apply, hf cx s on]
  exact h cx s cx s on

theorem blind_call (c : Call S) : (call c).Blind := by
  cases c with
  | type chord => exact blind_emit (.type chord)
  | restore r => exact blind_emit (.restore r)
  | perform a =>
    unfold call perform
    refine blind_look (fun cx _ => (blind_emit _).append ?_) (fun _ _ _ => rfl)
    cases cx.host.perform a with
    | ok => exact blind_skip
    | error r => exact blind_warn r

theorem blind_request (cs : List (Call S)) : (request cs).Blind := by
  induction cs with
  | nil => exact blind_skip
  | cons c cs ih => exact (blind_call c).append ih

theorem blind_enter (m : Mode) : (enter m : Edit S).Blind :=
  (blind_update fun _ _ => rfl).append blind_announce

theorem blind_toNormal : (toNormal : Edit S).Blind := by
  refine blind_look (fun _ s => ?_) (fun _ _ _ => rfl)
  split
  · exact (blind_request _).append (blind_enter _)
  · exact blind_skip.append (blind_enter _)

theorem blind_toVisual : (toVisual : Edit S).Blind := (blind_enter _).append (blind_request _)

theorem blind_toVisualLine : (toVisualLine : Edit S).Blind :=
  (blind_enter _).append (blind_request _)

theorem blind_clearPending : (clearPending : Edit S).Blind :=
  (blind_update fun _ _ => rfl).append blind_announce

theorem blind_operate (op : Operator) : (operate op : Edit S).Blind := by
  refine ((blind_update fun _ _ => rfl).append (blind_request _)).append ?_
  cases op with
  | change => exact blind_enter _
  | delete => exact blind_enter _
  | yank | put => exact blind_toNormal

theorem blind_abandon : (abandon : Edit S).Blind :=
  (blind_update fun _ _ => rfl).append blind_toNormal

theorem blind_setMark (label : Char) : (setMark label : Edit S).Blind := by
  refine blind_look (fun cx _ => ?_) (fun _ _ _ => rfl)
  split
  · exact blind_update fun _ _ => rfl
  · exact blind_skip

theorem blind_jump (label : Char) (linewise : Bool) : (jump label linewise : Edit S).Blind := by
  refine blind_look (fun _ s => ?_) (fun _ _ _ => rfl)
  split
  · exact blind_request _
  · exact blind_skip

theorem blind_command (c : Command) (count : Nat) (counted : Bool) :
    (command c count counted : Edit S).Blind := by
  refine (blind_request _).append ?_
  unfold afterCommand
  split
  · exact blind_enter _
  · exact blind_enter _
  · exact blind_enter _
  · exact blind_toVisual
  · exact blind_toVisualLine
  · exact blind_enter _
  · exact blind_skip

theorem blind_visualKey (k : Key) : (visualKey k : Edit S).Blind := by
  unfold visualKey
  split
  · exact blind_request _
  · exact blind_operate _
  · exact blind_enter _
  · exact blind_skip

theorem blind_visualObjectKey (k : Key) : (visualObjectKey k : Edit S).Blind := by
  unfold visualObjectKey
  split
  · exact (blind_request _).append (blind_enter _)
  · exact blind_skip.append (blind_enter _)

/-! ## Edits that end a command -/

/-- The edit takes the flag for nothing but the way back. -/
def Shadows (e : Edit S) : Prop :=
  ∀ (cx : Context S) (s : State S), e.calls cx (s.flagged true) = e.calls cx (s.flagged false) ∧
    (e.state cx (s.flagged true)).Returns (e.state cx (s.flagged false))

theorem Blind.calls_eq {e : Edit S} (h : e.Blind) (cx : Context S) (s : State S) (on : Bool) :
    e.calls cx (s.flagged on) = e.calls cx s := by
  unfold calls
  rw [h cx s on]

theorem Blind.state_eq {e : Edit S} (h : e.Blind) (cx : Context S) (s : State S) (on : Bool) :
    e.state cx (s.flagged on) = (e.state cx s).flagged on := by
  unfold state
  rw [h cx s on]

theorem Blind.shadows {e : Edit S} (h : e.Blind) : e.Shadows := by
  intro cx s
  rw [h.calls_eq, h.calls_eq, h.state_eq, h.state_eq]
  exact ⟨rfl, rfl, Or.inl rfl⟩

theorem shadows_finish : (finish : Edit S).Shadows := by
  intro cx s
  rw [calls_finish, calls_finish, state_finish, state_finish,
    State.resume_of_not_oneShot (s.flagged false) rfl]
  exact ⟨rfl, rfl, Or.inr rfl⟩

theorem Shadows.after {e f : Edit S} (h : e.Blind) (k : f.Shadows) : (e ++ f).Shadows := by
  intro cx s
  obtain ⟨hcalls, hstate⟩ := k cx (e.state cx s)
  rw [calls_append, calls_append, h.calls_eq, h.calls_eq, state_append, state_append, h.state_eq,
    h.state_eq, hcalls]
  exact ⟨rfl, hstate⟩

/-- What ends a command may hold an end itself: the way back is taken once. -/
theorem Shadows.ended {e : Edit S} (h : e.Shadows) : (e ++ clearPending ++ finish).Shadows := by
  intro cx s
  obtain ⟨hcalls, hoff, hstate⟩ := h cx s
  simp only [calls_append, state_append, calls_clearPending, calls_finish, state_clearPending,
    state_finish, List.append_nil]
  refine ⟨hcalls, ?_⟩
  generalize e.state cx (s.flagged true) = t at hstate
  generalize e.state cx (s.flagged false) = u at hstate hoff
  rw [State.resume_of_not_oneShot ({ u with pending := .empty } : State S) hoff]
  refine ⟨hoff, Or.inr ?_⟩
  rcases hstate with rfl | rfl
  · rfl
  · exact State.resume_clear _

theorem shadows_look {f : Context S → State S → Edit S} (h : ∀ cx s, (f cx s).Shadows)
    (hf : ∀ cx s on, f cx (s.flagged on) = f cx s) : (look f).Shadows := by
  intro cx s
  rw [calls_look, calls_look, state_look, state_look, hf cx s true, hf cx s false]
  exact h cx s cx s

theorem shadows_motionKey (k : Key) : (motionKey k : Edit S).Shadows := by
  refine shadows_look (fun _ s => ?_) (fun _ _ _ => rfl)
  split
  · exact blind_toNormal.shadows
  · exact shadows_finish.after blind_abandon
  · split
    · exact (blind_enter _).shadows
    · split
      · exact shadows_finish.after ((blind_request _).append (blind_operate _))
      · split
        · exact shadows_finish.after ((blind_request _).append (blind_operate _))
        · exact shadows_finish.after blind_abandon

theorem shadows_objectKey (k : Key) : (objectKey k : Edit S).Shadows := by
  unfold objectKey
  split
  · exact (shadows_motionKey k).after (blind_request _)
  · exact shadows_finish.after blind_abandon

theorem shadows_sequence (l : Leader) (c : Char) (count : Nat) :
    (sequence l c count : Edit S).Shadows := by
  unfold sequence
  split
  · exact (blind_setMark c).shadows
  · exact (blind_jump c _).shadows
  · split
    · exact (blind_request _).shadows
    · exact blind_skip.shadows
  · split
    · exact ((blind_request _).append (blind_operate _)).shadows
    · exact (shadows_motionKey _).after ((blind_update fun _ _ => rfl).append (blind_enter _))

theorem shadows_normalKey (k : Key) : (normalKey k : Edit S).Shadows := by
  unfold normalKey
  split
  · refine shadows_look (fun cx s => ?_) (fun _ _ _ => rfl)
    show Shadows (ite _ _ _)
    split
    · exact ((blind_update fun _ _ => rfl).append blind_announce).shadows
    · split
      · exact ((shadows_sequence _ _ _).after (blind_update fun _ _ => rfl)).ended
      · exact (blind_command _ _ _).shadows.ended
      · exact ((blind_update fun _ _ => rfl).append blind_announce).shadows
      · exact blind_clearPending.shadows
  · exact blind_clearPending.shadows

theorem shadows_modeKey (m : Mode) (k : Key) : (modeKey m k : Edit S).Shadows := by
  cases m with
  | normal => exact shadows_normalKey k
  | visual | visualLine => exact (blind_visualKey k).shadows
  | operatorMotion => exact shadows_motionKey k
  | operatorObject => exact shadows_objectKey k
  | visualObject => exact (blind_visualObjectKey k).shadows
  | insert | search => exact blind_skip.shadows

theorem shadows_ofIntake (m : Mode) (i : Intake) (ho : i ≠ .oneShot) (he : i ≠ .escape) :
    (ofIntake m i : Edit S).Shadows := by
  cases i with
  | pass => exact blind_skip.shadows
  | oneShot => exact absurd rfl ho
  | closeFind => exact blind_toNormal.shadows
  | escape => exact absurd rfl he
  | key k => exact shadows_modeKey m k

end Edit

/-! ## Presses -/

section
variable (cx : Context S) {s : State S} {p : Press}

theorem shadows_press (hm : s.mode ≠ .insert) (hc : ¬ s.Cancels p) :
    (Edit.press p).calls cx (s.flagged true) = (Edit.press p).calls cx (s.flagged false) ∧
      ((Edit.press p).state cx (s.flagged true)).Returns
        ((Edit.press p).state cx (s.flagged false)) := by
  have ho : intake cx.config.keys s.mode p ≠ .oneShot :=
    fun h => hm ((intake_eq_oneShot_iff _ _ _).1 h).1
  rw [s.cancels_iff_intake cx.config.keys] at hc
  exact Edit.shadows_ofIntake s.mode _ ho hc cx s

/-- Escape drops the flag, and all else is the same with it and without. -/
theorem escape_press (hc : s.Cancels p) :
    (Edit.press p).calls cx (s.flagged true) = (Edit.press p).calls cx (s.flagged false) ∧
      (Edit.press p).state cx (s.flagged true) = (Edit.press p).state cx (s.flagged false) ∧
      ((Edit.press p).state cx (s.flagged false)).oneShot = false := by
  have happly : ∀ on, Edit.press p cx (s.flagged on) = Edit.escape cx (s.flagged on) :=
    fun on => Edit.press_apply_escape cx (s := s.flagged on) hc
  rw [Edit.calls_congr _ _ (happly true), Edit.calls_congr _ _ (happly false),
    Edit.state_congr _ _ (happly true), Edit.state_congr _ _ (happly false), Edit.calls_escape,
    Edit.calls_escape, Edit.state_escape, Edit.state_escape]
  exact ⟨rfl, rfl, rfl⟩

end

end ModalInput
