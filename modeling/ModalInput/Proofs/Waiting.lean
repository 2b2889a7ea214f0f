import Mathlib.Data.List.Infix
import ModalInput.Proofs.Disposition
import ModalInput.Proofs.Invariant

/-!
# Sequences of keys come to an end

A leader, an operator and a visual `i` or `a` wait for keys.  The rank of a state bounds how many:
a press that is kept from the host lowers it, unless it is a digit of the count, and digits and
presses that pass leave it.  So within two presses that are neither, there is a moment at which
nothing waits.

    s.rank ≤ s.strokes config xs → ∃ ys, ys <+: xs ∧ (s.run config ys).Settled    (exists_settled)
-/

namespace ModalInput

variable {S : Type}

/-! ## Definitions -/

/-- How many more keys a state may wait for.  Behind an operator these are two, since `i` and `a`
ask for a text object. -/
def State.rank (s : State S) : Nat :=
  match s.pending.leader with
  | some (.operator _) => 2
  | some _ => 1
  | none => if s.mode = .operatorObject ∨ s.mode = .visualObject then 1 else 0

/-- Nothing waits for a key. -/
def State.Settled (s : State S) : Prop :=
  s.pending.leader = none ∧ s.operator = none ∧ s.mode.awaitsKey = false

/-- The press is a digit of the count. -/
def State.takesDigit (s : State S) (p : Press) : Bool :=
  s.mode = .normal && p.key.char?.any s.pending.accepts

/-- The press is kept from the host and is no digit of the count. -/
def State.isStroke (keys : KeySettings) (s : State S) (p : Press) : Bool :=
  disposition keys s.mode p = .suppress && !s.takesDigit p

/-- How many presses of a run are strokes when their turn comes. -/
def State.strokes (config : Config) (s : State S) : List (Host S × Press) → Nat
  | [] => 0
  | x :: xs =>
    (if s.isStroke config.keys x.2 then 1 else 0) +
      ((Edit.press x.2).state ⟨config, x.1⟩ s).strokes config xs

/-! ## Ranks -/

namespace State

theorem rank_le (s : State S) : s.rank ≤ 2 := by
  unfold rank
  split
  · exact Nat.le_refl 2
  · exact Nat.le_succ 1
  · split <;> omega

theorem rank_of_operator {s : State S} {op : Operator}
    (h : s.pending.leader = some (.operator op)) : s.rank = 2 := by
  unfold rank
  rw [h]

theorem rank_of_no_leader {s : State S} (h : s.pending.leader = none) :
    s.rank = if s.mode = .operatorObject ∨ s.mode = .visualObject then 1 else 0 := by
  unfold rank
  rw [h]

theorem rank_eq_zero {s : State S} (h : s.pending.leader = none) (hm : s.mode.awaitsKey = false) :
    s.rank = 0 := by
  rw [rank_of_no_leader h, if_neg]
  rintro (he | he) <;> rw [he] at hm <;> cases hm

/-- Neither digits nor anything but the mode and the leader count. -/
theorem rank_congr {s t : State S} (hl : t.pending.leader = s.pending.leader)
    (hm : t.mode = s.mode) : t.rank = s.rank := by
  unfold rank
  rw [hl, hm]

/-- The way back leads to a mode that waits for nothing. -/
theorem rank_resume {s : State S} (h : s.pending.leader = none) (hm : s.mode.awaitsKey = false) :
    s.resume.rank = 0 := by
  refine rank_eq_zero (by rw [pending_resume, h]) ?_
  unfold resume
  split
  · show (if s.mode = .normal then Mode.insert else s.mode).awaitsKey = false
    split
    · rfl
    · exact hm
  · exact hm

theorem rank_ended (s : State S) {m : Mode} (hm : m.awaitsKey = false) : (s.ended m).rank = 0 :=
  rank_resume rfl hm

section
variable {keys : KeySettings} {s : State S} (hs : s.Sound keys)
include hs

/-- Only Normal mode has a leader, so the rank of another mode is its own. -/
theorem Sound.rank_eq_zero (hn : s.mode ≠ .normal) (hm : s.mode.awaitsKey = false) : s.rank = 0 :=
  State.rank_eq_zero (by rw [hs.pending_eq hn]; rfl) hm

theorem Sound.rank_eq_zero_iff : s.rank = 0 ↔ s.Settled := by
  constructor
  · intro h
    cases hl : s.pending.leader with
    | some l =>
      unfold rank at h
      rw [hl] at h
      cases l <;> cases h
    | none =>
      have hm : ¬ (s.mode = .operatorObject ∨ s.mode = .visualObject) := by
        intro hm
        rw [rank_of_no_leader hl, if_pos hm] at h
        cases h
      obtain ⟨ho, hv⟩ := not_or.1 hm
      refine ⟨hl, hs.operator_eq ho, ?_⟩
      cases hmode : s.mode with
      | operatorMotion => exact absurd hmode hs.mode_ne
      | operatorObject => exact absurd hmode ho
      | visualObject => exact absurd hmode hv
      | _ => rfl
  · rintro ⟨hl, -, hm⟩
    exact State.rank_eq_zero hl hm

end

end State

/-! ## One press -/

section
variable {cx : Context S} {s t : State S} {p : Press} {cs : List (Call S)}

theorem State.takesDigit_eq_true_iff :
    s.takesDigit p = true ↔
      s.mode = .normal ∧ ∃ c, p.key = .char c ∧ s.pending.accepts c = true := by
  unfold takesDigit
  rw [Bool.and_eq_true, decide_eq_true_eq, Option.any_eq_true]
  refine and_congr_right fun _ => exists_congr fun c => and_congr_left fun _ => ?_
  cases p.key <;> simp [Key.char?]

theorem NormalOutcome.rank_lt {c : Char} (h : NormalOutcome cx s c t cs) (hm : s.mode = .normal)
    (hd : s.pending.accepts c = false) (hr : 0 < s.rank) : t.rank < s.rank := by
  have hlead : s.pending.leader ≠ none := fun hl => by
    rw [State.rank_eq_zero hl (by rw [hm]; rfl)] at hr
    cases hr
  cases h with
  | digit ha => cases ha.symm.trans hd
  | unknown _ hl | leader _ _ hl | command _ _ hl => exact absurd hl hlead
  | argument => rwa [State.rank_resume rfl (by rw [hm]; rfl)]
  | await op _ hl =>
    rw [State.rank_of_operator hl, State.rank_of_no_leader rfl, if_pos (Or.inl rfl)]
    exact Nat.one_lt_two
  | operate op => rwa [s.rank_ended op.target_awaitsKey]
  | abandon => rwa [s.rank_ended rfl]

/-- A press that is kept from the host brings what waits nearer to its end. -/
theorem Outcome.rank_lt (h : Outcome cx s p t cs) (hs : s.Sound cx.config.keys)
    (hp : disposition cx.config.keys s.mode p = .suppress) (hd : s.takesDigit p = false)
    (hr : 0 < s.rank) : t.rank < s.rank := by
  -- Outside Normal mode there is no leader, so the mode itself waits.
  have hwaits : s.mode ≠ .normal → s.mode.awaitsKey ≠ false := by
    intro hn hm
    rw [hs.rank_eq_zero hn hm] at hr
    cases hr
  cases h with
  | pass hpass => cases hpass.symm.trans hp
  | oneShot hm | closeFind hm => exact absurd (by rw [hm]; rfl) (hwaits (by rw [hm]; decide))
  | escape => rwa [State.rank_eq_zero rfl rfl]
  | clear hm => rwa [State.rank_eq_zero rfl (by rw [hm]; rfl)]
  | normal c hm hc hn =>
    have hdigit : s.pending.accepts c = false := by
      refine Bool.eq_false_iff.2 fun ha => ?_
      rw [State.takesDigit_eq_true_iff.2 ⟨hm, c, hc.1, ha⟩] at hd
      cases hd
    exact hn.rank_lt hm hdigit hr
  | object op => rwa [s.rank_ended op.target_awaitsKey]
  | noObject => rwa [s.rank_ended rfl]
  | extend _ _ hv | operate _ _ hv | await _ hv | ignore hv =>
    exact absurd (Mode.awaitsKey_of_isSelecting hv) (hwaits (Mode.ne_of_isSelecting hv rfl))
  | select _ _ hm | noSelect hm =>
    have hpending := hs.pending_eq (by rw [hm]; decide)
    rwa [State.rank_eq_zero (by rw [hpending]; rfl) rfl]

variable (cx) in
/-- Digits of the count and presses that pass leave the rank as it is. -/
theorem State.rank_press (h : disposition cx.config.keys s.mode p = .pass ∨ s.takesDigit p = true) :
    ((Edit.press p).state cx s).rank = s.rank := by
  cases hp : disposition cx.config.keys s.mode p with
  | pass => rw [Edit.state_congr cx s (Edit.press_apply_of_pass cx s p hp), Edit.state_skip]
  | suppress =>
    have hdigit : s.takesDigit p = true := h.resolve_left (by rw [hp]; decide)
    obtain ⟨hm, c, hk, ha⟩ := takesDigit_eq_true_iff.1 hdigit
    rw [disposition_eq_suppress_iff, hm] at hp
    have hc : p.Types c := ⟨hk, p.hasHostModifier_eq_false_iff.2 hp.1⟩
    rw [Edit.state_congr cx s (Edit.press_apply_char cx s p c hm hc),
      Edit.state_normalChar_digit cx s c ha]
    exact rank_congr (s.pending.leader_push _ c) rfl

theorem State.isStroke_eq_true_iff {keys : KeySettings} :
    s.isStroke keys p = true ↔
      disposition keys s.mode p = .suppress ∧ s.takesDigit p = false := by
  unfold isStroke
  rw [Bool.and_eq_true, decide_eq_true_eq, Bool.not_eq_true']

theorem State.isStroke_eq_false_iff {keys : KeySettings} :
    s.isStroke keys p = false ↔
      disposition keys s.mode p = .pass ∨ s.takesDigit p = true := by
  rw [← Bool.not_eq_true, isStroke_eq_true_iff]
  cases disposition keys s.mode p <;> simp

variable (cx) in
theorem State.Sound.rank_press_add_le (hs : s.Sound cx.config.keys) (p : Press) (hr : 0 < s.rank) :
    ((Edit.press p).state cx s).rank + (if s.isStroke cx.config.keys p then 1 else 0) ≤
      s.rank := by
  cases hk : s.isStroke cx.config.keys p with
  | true =>
    obtain ⟨hp, hd⟩ := isStroke_eq_true_iff.1 hk
    exact (hs.outcome cx p).rank_lt hs hp hd hr
  | false => exact (rank_press cx (isStroke_eq_false_iff.1 hk)).le

end

/-! ## Runs -/

/-- The induction is on the run: a stroke lowers the rank that is left for the rest of it, and any
other press keeps both. -/
theorem Reachable.exists_settled {config : Config} {s : State S} (h : Reachable config s)
    {xs : List (Host S × Press)} (hx : s.rank ≤ s.strokes config xs) :
    ∃ ys, ys <+: xs ∧ s.strokes config ys ≤ s.rank ∧ (s.run config ys).Settled := by
  induction xs generalizing s with
  | nil =>
    have hr : s.rank = 0 := Nat.le_zero.1 hx
    exact ⟨[], List.prefix_rfl, Nat.zero_le _, (sound_of_reachable h).rank_eq_zero_iff.1 hr⟩
  | cons x xs ih =>
    have hs := sound_of_reachable h
    rcases Nat.eq_zero_or_pos s.rank with hr | hr
    · exact ⟨[], List.nil_prefix, Nat.zero_le _, hs.rank_eq_zero_iff.1 hr⟩
    have hstep := State.Sound.rank_press_add_le ⟨config, x.1⟩ hs x.2 hr
    dsimp only at hstep
    -- What the rest of the run has in strokes still covers the rank that is left.
    rw [State.strokes] at hx
    obtain ⟨ys, hys, hle, hsettled⟩ := ih (.press x.1 x.2 h) (by omega)
    refine ⟨x :: ys, List.cons_prefix_cons.2 ⟨rfl, hys⟩, ?_, hsettled⟩
    rw [State.strokes]
    omega

/-- **Waiting.**  In every state that presses lead to, the rank is zero exactly if nothing waits,
and at most two.  A press that is kept from the host and is no digit of the count lowers a rank that
is not zero; a digit and a press that passes leave it.  So in every run with as many strokes as the
rank, however many digits and passing presses come between them, there is a moment at which nothing
waits, and no more strokes than the rank come before it. -/
theorem sequences_end {config : Config} {s : State S} (h : Reachable config s) :
    (s.rank = 0 ↔ s.Settled) ∧ s.rank ≤ 2 ∧
    (∀ (host : Host S) (p : Press),
      (disposition config.keys s.mode p = .suppress → s.takesDigit p = false → 0 < s.rank →
        ((Edit.press p).state ⟨config, host⟩ s).rank < s.rank) ∧
      (disposition config.keys s.mode p = .pass ∨ s.takesDigit p = true →
        ((Edit.press p).state ⟨config, host⟩ s).rank = s.rank)) ∧
    ∀ xs, s.rank ≤ s.strokes config xs →
      ∃ ys, ys <+: xs ∧ s.strokes config ys ≤ s.rank ∧ (s.run config ys).Settled := by
  have hs := sound_of_reachable h
  refine ⟨hs.rank_eq_zero_iff, s.rank_le, fun host p => ⟨?_, ?_⟩, fun xs => h.exists_settled⟩
  · intro hp hd hr
    exact (hs.outcome ⟨config, host⟩ p).rank_lt hs hp hd hr
  · intro hp
    exact State.rank_press ⟨config, host⟩ hp

/-- From the start, `d` waits for two strokes.  A shortcut of the host and then `i` twice are as
many: the first has it wait for a text object, and the second is none. -/
theorem sequences_end_operator :
    let host := Recording.new.host
    let s : State Span :=
      { State.initial with pending := ⟨[], some (.operator .delete), none⟩ }
    let copy := (Press.ofChar 'c').hold .control
    let xs : List (Host Span × Press) :=
      [(host, copy), (host, .ofChar 'i'), (host, .ofChar 'i')]
    s.rank = 2 ∧ ¬ s.Settled ∧
      ((Edit.press copy).state ⟨.default, host⟩ s).rank = 2 ∧
      ((Edit.press (.ofChar 'i')).state ⟨.default, host⟩ s).rank < 2 ∧
      s.strokes .default xs = 2 ∧
      ∃ ys, ys <+: xs ∧ s.strokes .default ys ≤ 2 ∧ (s.run .default ys).Settled := by
  intro host s copy xs
  have hs : Reachable .default s := .press host (.ofChar 'd') .initial
  have hlaw := sequences_end hs
  have hpress := hlaw.2.2.1 host
  refine ⟨rfl, fun h => ?_, (hpress copy).2 (Or.inl (by decide)),
    (hpress (.ofChar 'i')).1 (by decide) (by decide) (by decide), by decide,
    hlaw.2.2.2 xs (by decide)⟩
  cases hlaw.1.2 h

end ModalInput
