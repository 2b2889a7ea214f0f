import ModalInput.Proofs.Count
import ModalInput.Proofs.Keys

/-!
# Sound states

What mode, pending command, operator and way back have to do with one another.  The parts hold only
together: a leader and a remembered operator exclude each other because each of them comes with a
mode of its own.

    s.Sound keys → s.pending.leader = none ∨ s.operator = none       (Sound.leader_or_operator)
-/

namespace ModalInput

variable {S : Type}

structure State.Sound (keys : KeySettings) (s : State S) : Prop where
  mode_ne : s.mode ≠ .operatorMotion
  argument_eq : s.pending.argument = none
  /-- Only Normal mode has a pending count or leader. -/
  mode_of_pending : s.pending.isEmpty = false → s.mode = .normal
  operator_iff : s.operator.isSome = true ↔ s.mode = .operatorObject
  operator_ne_put : s.operator ≠ some .put
  leader_ne_put : s.pending.leader ≠ some (.operator .put)
  mode_of_oneShot : s.oneShot = true →
    s.mode = .normal ∨ s.mode = .search ∨ s.mode = .operatorObject
  isCount : IsCount s.pending.digits
  length_le : s.pending.digits.length ≤ Text.width (max keys.countLimit 1)

/-! ## Consequences -/

namespace State

variable {keys : KeySettings} {s : State S}

theorem Sound.pending_eq (h : s.Sound keys) (hm : s.mode ≠ .normal) : s.pending = .empty := by
  apply Pending.eq_empty_of_isEmpty
  cases he : s.pending.isEmpty
  · exact absurd (h.mode_of_pending he) hm
  · rfl

theorem Sound.operator_eq (h : s.Sound keys) (hm : s.mode ≠ .operatorObject) :
    s.operator = none := by
  cases ho : s.operator with
  | none => rfl
  | some op => exact absurd (h.operator_iff.1 (by rw [ho]; rfl)) hm

theorem Sound.exists_operator (h : s.Sound keys) (hm : s.mode = .operatorObject) :
    ∃ op, s.operator = some op ∧ op ≠ .put := by
  obtain ⟨op, ho⟩ := Option.isSome_iff_exists.1 (h.operator_iff.2 hm)
  exact ⟨op, ho, fun e => h.operator_ne_put (by rw [ho, e])⟩

theorem Sound.oneShot_eq (h : s.Sound keys) (h1 : s.mode ≠ .normal) (h2 : s.mode ≠ .search)
    (h3 : s.mode ≠ .operatorObject) : s.oneShot = false := by
  cases ho : s.oneShot
  · rfl
  · rcases h.mode_of_oneShot ho with hm | hm | hm
    · exact absurd hm h1
    · exact absurd hm h2
    · exact absurd hm h3

/-- A leader and a remembered operator are never there together. -/
theorem Sound.leader_or_operator (h : s.Sound keys) :
    s.pending.leader = none ∨ s.operator = none := by
  by_cases hm : s.mode = .operatorObject
  · left
    rw [h.pending_eq (by rw [hm]; decide)]
    rfl
  · exact Or.inr (h.operator_eq hm)

/-! ## Ways to establish it -/

theorem sound_settled (m : Mode) (hm : s.mode = m) (hp : s.pending = .empty)
    (ho : s.operator = none) (h1 : m ≠ .operatorMotion) (h2 : m ≠ .operatorObject)
    (h3 : s.oneShot = true → m = .normal ∨ m = .search) : s.Sound keys where
  mode_ne := by rw [hm]; exact h1
  argument_eq := by rw [hp]; rfl
  mode_of_pending h := by rw [hp] at h; cases h
  operator_iff := by
    rw [ho, hm]
    exact ⟨fun h => absurd h Bool.false_ne_true, fun h => absurd h h2⟩
  operator_ne_put := by rw [ho]; decide
  leader_ne_put := by rw [hp]; decide
  mode_of_oneShot h := by
    rw [hm]
    rcases h3 h with h | h
    · exact Or.inl h
    · exact Or.inr (Or.inl h)
  isCount := by rw [hp]; exact isCount_nil
  length_le := by rw [hp]; exact Nat.zero_le _

/-- Where a command ends, the way back is taken or stays open for a search. -/
theorem sound_resume (hp : s.pending = .empty) (ho : s.operator = none)
    (hw : s.mode.awaitsKey = false) : s.resume.Sound keys := by
  have h1 : s.mode ≠ .operatorMotion := fun e => by rw [e] at hw; cases hw
  have h2 : s.mode ≠ .operatorObject := fun e => by rw [e] at hw; cases hw
  unfold resume
  by_cases h : s.oneShot ∧ ¬ s.mode.awaitsKey ∧ s.mode ≠ .search
  · rw [if_pos h]
    refine sound_settled (if s.mode = .normal then .insert else s.mode) rfl hp ho ?_ ?_
      (fun e => by cases e)
    · split
      · decide
      · exact h1
    · split
      · decide
      · exact h2
  · rw [if_neg h]
    refine sound_settled s.mode rfl hp ho h1 h2 (fun e => Or.inr ?_)
    by_contra hs
    exact h ⟨e, by rw [hw]; decide, hs⟩

theorem sound_ended (m : Mode) (hw : m.awaitsKey = false) : (s.ended m).Sound keys :=
  sound_resume rfl rfl hw

theorem sound_initial : (initial : State S).Sound keys :=
  sound_settled .normal rfl rfl rfl (by decide) (by decide) (fun e => by cases e)

theorem sound_await (op : Operator) (hop : op ≠ .put) (keys : KeySettings) :
    ({ s with mode := .operatorObject, pending := .empty, operator := some op } : State S).Sound
      keys where
  mode_ne := by simp
  argument_eq := rfl
  mode_of_pending h := by cases h
  operator_iff := ⟨fun _ => rfl, fun _ => rfl⟩
  operator_ne_put e := hop (Option.some.inj e)
  leader_ne_put e := by cases e
  mode_of_oneShot _ := Or.inr (Or.inr rfl)
  isCount := isCount_nil
  length_le := Nat.zero_le _

/-! ## What keeps it -/

theorem Sound.clear (h : s.Sound keys) (hm : s.mode = .normal) :
    ({ s with pending := .empty } : State S).Sound keys :=
  sound_settled .normal hm rfl (h.operator_eq (by rw [hm]; decide)) (by decide) (by decide)
    (fun _ => Or.inl rfl)

theorem Sound.push (h : s.Sound keys) (hm : s.mode = .normal) (c : Char)
    (ha : s.pending.accepts c = true) :
    ({ s with pending := s.pending.push keys.countLimit c } : State S).Sound keys := by
  have hk : s.pending.digits = kept keys.countLimit s.pending.digits :=
    (List.take_of_length_le h.length_le).symm
  rw [Pending.push_eq _ _ _ c hk]
  exact { mode_ne := h.mode_ne
          argument_eq := h.argument_eq
          mode_of_pending := fun _ => hm
          operator_iff := h.operator_iff
          operator_ne_put := h.operator_ne_put
          leader_ne_put := h.leader_ne_put
          mode_of_oneShot := h.mode_of_oneShot
          isCount := (s.pending.isCount_append c h.isCount ha).take _
          length_le := List.length_take_le _ _ }

theorem Sound.leader (h : s.Sound keys) (hm : s.mode = .normal) (l : Leader)
    (hl : l ≠ .operator .put) :
    ({ s with pending := { s.pending with leader := some l } } : State S).Sound keys where
  mode_ne := h.mode_ne
  argument_eq := h.argument_eq
  mode_of_pending _ := hm
  operator_iff := h.operator_iff
  operator_ne_put := h.operator_ne_put
  leader_ne_put e := hl (Option.some.inj e)
  mode_of_oneShot := h.mode_of_oneShot
  isCount := h.isCount
  length_le := h.length_le

/-- A mode without a waiting operator, entered where the flag is off. -/
theorem Sound.enter (h : s.Sound keys)
    (hv : s.mode.isSelecting = true ∨ s.mode = .visualObject) (m : Mode)
    (h1 : m ≠ .operatorMotion) (h2 : m ≠ .operatorObject) :
    ({ s with mode := m } : State S).Sound keys := by
  have hn : s.mode ≠ .normal ∧ s.mode ≠ .search ∧ s.mode ≠ .operatorObject := by
    rcases hv with hv | hv
    · refine ⟨?_, ?_, ?_⟩
      all_goals
        intro e
        rw [e] at hv
        cases hv
    · rw [hv]
      decide
  refine sound_settled m rfl (h.pending_eq hn.1) (h.operator_eq hn.2.2) h1 h2 (fun e => ?_)
  rw [show _ = s.oneShot from rfl, h.oneShot_eq hn.1 hn.2.1 hn.2.2] at e
  cases e

end State

end ModalInput
