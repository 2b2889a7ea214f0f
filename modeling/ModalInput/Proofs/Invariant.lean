import ModalInput.Proofs.Outcome
import ModalInput.Proofs.Run

/-!
# The invariant of the machine

Every press leads from a sound state to a sound state, so every state of every run is sound.

    ((Session.new config surface).pressAll ps).state.Sound config.keys        (sound_pressAll)
-/

namespace ModalInput

variable {S : Type}

/-! ## Tables -/

theorem Operator.target_eq (op : Operator) : op.target = .normal ∨ op.target = .insert := by
  cases op with
  | change => exact Or.inr rfl
  | _ => exact Or.inl rfl

theorem Operator.target_awaitsKey (op : Operator) : op.target.awaitsKey = false := by
  rcases op.target_eq with h | h <;> rw [h] <;> rfl

theorem Command.target_awaitsKey (cmd : Command) : (cmd.target .normal).awaitsKey = false := by
  cases cmd with
  | cutLineEnd insert => cases insert <;> rfl
  | select linewise => cases linewise <;> rfl
  | _ => rfl

theorem Operator.ofChar?_ne_put (c : Char) : Operator.ofChar? c ≠ some .put := by
  unfold Operator.ofChar?
  split <;> simp

theorem Leader.ofChar?_ne_put (c : Char) : Leader.ofChar? c ≠ some (.operator .put) := by
  unfold Leader.ofChar?
  split
  case h_5 =>
    intro h
    obtain ⟨op, ho, he⟩ := Option.map_eq_some_iff.1 h
    cases he
    exact Operator.ofChar?_ne_put c ho
  all_goals simp

theorem NormalEntry.leader_ofChar? (c : Char) (l : Leader)
    (h : NormalEntry.ofChar? c = some (.leader l)) : Leader.ofChar? c = some l := by
  unfold NormalEntry.ofChar? at h
  split at h
  · cases h
  · obtain ⟨k, hk, he⟩ := Option.map_eq_some_iff.1 h
    cases he
    exact hk

/-! ## One press -/

namespace State

variable {cx : Context S} {s t : State S} {cs : List (Call S)}

theorem Sound.of_normalOutcome (h : s.Sound cx.config.keys) (hm : s.mode = .normal) (c : Char)
    (hout : NormalOutcome cx s c t cs) : t.Sound cx.config.keys := by
  have hop := h.operator_eq (by rw [hm]; decide)
  cases hout with
  | digit ha => exact h.push hm c ha
  | unknown => exact h.clear hm
  | leader l ha hl hc =>
    refine h.leader hm l (fun e => ?_)
    have hlead := NormalEntry.leader_ofChar? c l hc
    rw [e] at hlead
    exact Leader.ofChar?_ne_put c hlead
  | command cmd =>
    rw [hm]
    exact sound_resume rfl hop cmd.target_awaitsKey
  | argument l => exact sound_resume rfl hop (by rw [hm]; rfl)
  | await op ha hl => exact sound_await op (fun e => h.leader_ne_put (by rw [hl, e])) _
  | operate op => exact sound_ended _ op.target_awaitsKey
  | abandon op => exact sound_ended _ rfl

theorem Sound.of_outcome (h : s.Sound cx.config.keys) {p : Press} (hout : Outcome cx s p t cs) :
    t.Sound cx.config.keys := by
  cases hout with
  | pass => exact h
  | oneShot hm =>
    exact sound_settled .normal rfl (h.pending_eq (by rw [hm]; decide))
      (h.operator_eq (by rw [hm]; decide)) (by decide) (by decide) (fun _ => Or.inl rfl)
  | closeFind hm =>
    exact sound_settled .normal rfl (h.pending_eq (by rw [hm]; decide))
      (h.operator_eq (by rw [hm]; decide)) (by decide) (by decide) (fun _ => Or.inl rfl)
  | escape =>
    exact sound_settled .normal rfl rfl rfl (by decide) (by decide) (fun e => by cases e)
  | clear hm => exact h.clear hm
  | normal c hm hp hn => exact h.of_normalOutcome hm c hn
  | object op => exact sound_ended _ op.target_awaitsKey
  | noObject => exact sound_ended _ rfl
  | extend => exact h
  | operate op c hm =>
    have ht := op.target_awaitsKey
    have hent := h.enter (Or.inl hm) op.target (fun e => by rw [e] at ht; cases ht)
      (fun e => by rw [e] at ht; cases ht)
    rw [h.operator_eq (fun e => by rw [e] at hm; cases hm)] at hent
    exact hent
  | await c hm => exact h.enter (Or.inl hm) _ (by decide) (by decide)
  | ignore => exact h
  | select c o hm => exact h.enter (Or.inr hm) _ (by decide) (by decide)
  | noSelect hm => exact h.enter (Or.inr hm) _ (by decide) (by decide)

variable (cx) in
theorem Sound.press (h : s.Sound cx.config.keys) (p : Press) :
    ((Edit.press p).state cx s).Sound cx.config.keys :=
  h.of_outcome (h.outcome cx p)

end State

/-! ## Runs -/

theorem sound_of_reachable {config : Config} {s : State S} (h : Reachable config s) :
    s.Sound config.keys := by
  induction h with
  | initial => exact State.sound_initial
  | press host p _ ih => exact State.Sound.press ⟨config, host⟩ ih p

/-- **The invariant.**  It holds after every run of presses on every surface. -/
theorem sound_pressAll (config : Config) (surface : Recording) (ps : List Press) :
    ((Session.new config surface).pressAll ps).state.Sound config.keys ∧
      (((Session.new config surface).pressAll ps).state.pending.leader = none ∨
        ((Session.new config surface).pressAll ps).state.operator = none) := by
  have h : ((Session.new config surface).pressAll ps).state.Sound config.keys :=
    sound_of_reachable ((Session.new config surface).reachable_pressAll ps .initial)
  exact ⟨h, h.leader_or_operator⟩

end ModalInput
