import Mathlib.Algebra.Group.Nat.Defs
import Mathlib.Data.List.Induction
import ModalInput.Command.Pending

/-!
# Counts

What is left of a count that is typed digit by digit, and what it comes to under a limit.

    (empty.pushAccepted limit w).digits = kept limit w                   (digits_pushAccepted)
    p.digits = kept limit w → value w ≤ limit ∨ limit = 10 ^ e →
      p.count limit = min (value w) limit                                (count_of_kept)
-/

namespace ModalInput

/-! ## Numerals -/

namespace Text

theorem lt_pow_width (n : Nat) : n < 10 ^ width n := by
  induction n using Nat.strongRecOn with
  | _ n ih =>
    unfold width
    split
    · omega
    · have := ih (n / 10) (by omega)
      rw [Nat.pow_succ]
      omega

theorem one_le_width (n : Nat) : 1 ≤ width n := by
  unfold width
  split <;> omega

theorem width_pow (e : Nat) : width (10 ^ e) = e + 1 := by
  induction e with
  | zero => unfold width; rfl
  | succ e ih =>
    have hpos : 0 < 10 ^ e := Nat.pow_pos (by omega)
    unfold width
    rw [Nat.pow_succ, if_neg (by omega), Nat.mul_div_cancel _ (by omega), ih]

theorem digitValue_pos (c : Char) (h : c.isDigit = true) (hz : c ≠ '0') : 0 < digitValue c := by
  have hne : c.toNat ≠ 48 := fun e => hz (Char.toNat_inj.1 e)
  have hge : 48 ≤ c.toNat := (Char.isDigit_iff_toNat.1 h).1
  unfold digitValue
  omega

end Text

/-! ## Counts as they are typed -/

/-- Digits without a leading zero: those that are all accepted, each in its turn. -/
def IsCount (w : List Char) : Prop := (∀ c ∈ w, c.isDigit = true) ∧ w.head? ≠ some '0'

instance (w : List Char) : Decidable (IsCount w) :=
  decidable_of_iff (w.all Char.isDigit = true ∧ w.head? ≠ some '0')
    (and_congr_left' List.all_eq_true)

theorem isCount_nil : IsCount [] := ⟨by simp, by simp⟩

theorem IsCount.take {w : List Char} (h : IsCount w) (n : Nat) : IsCount (w.take n) := by
  refine ⟨fun c hc => h.1 c (List.mem_of_mem_take hc), ?_⟩
  cases n with
  | zero => simp
  | succ n => rw [List.head?_take, if_neg (by omega)]; exact h.2

theorem IsCount.left {v w : List Char} (h : IsCount (v ++ w)) : IsCount v := by
  have := h.take v.length
  rwa [List.take_left] at this

/-- Without a leading zero a count is at least a one with as many digits. -/
theorem IsCount.pow_le_value {w : List Char} (h : IsCount w) (hw : w ≠ []) :
    10 ^ (w.length - 1) ≤ Text.value w := by
  induction w using List.reverseRecOn with
  | nil => exact absurd rfl hw
  | append_singleton ds d ih =>
    rw [Text.value_append_singleton, List.length_append, List.length_singleton, Nat.add_sub_cancel]
    cases ds with
    | nil =>
      have := Text.digitValue_pos d (h.1 d (by simp)) (fun e => h.2 (by rw [e]; rfl))
      simp only [List.length_nil, Nat.pow_zero]
      omega
    | cons a as =>
      have hle := ih h.left (by simp)
      simp only [List.length_cons, Nat.add_sub_cancel] at hle ⊢
      rw [Nat.pow_succ]
      omega

/-- The digits that are kept of a count. -/
def kept (limit : Nat) (w : List Char) : List Char := w.take (Text.width (max limit 1))

theorem kept_eq_nil_iff (limit : Nat) (w : List Char) : kept limit w = [] ↔ w = [] := by
  have := Text.one_le_width (max limit 1)
  unfold kept
  rw [List.take_eq_nil_iff]
  constructor
  · rintro (h | h)
    · omega
    · exact h
  · exact Or.inr

namespace Pending

theorem eq_empty_of_isEmpty (p : Pending) (h : p.isEmpty = true) : p = empty := by
  obtain ⟨ds, l, a⟩ := p
  unfold isEmpty at h
  simp only [Bool.and_eq_true, List.isEmpty_iff, Option.isNone_iff_eq_none] at h
  obtain ⟨⟨rfl, rfl⟩, rfl⟩ := h
  rfl

theorem accepts_eq_true_iff (p : Pending) (c : Char) :
    p.accepts c = true ↔ c.isDigit = true ∧ (p.digits = [] → c ≠ '0') := by
  unfold accepts
  simp only [Bool.and_eq_true, Bool.not_eq_true', Bool.and_eq_false_iff, List.isEmpty_eq_false_iff,
    beq_eq_false_iff_ne]
  constructor
  · rintro ⟨hd, h⟩
    exact ⟨hd, fun e => h.resolve_left (fun hne => hne e)⟩
  · rintro ⟨hd, h⟩
    by_cases e : p.digits = []
    · exact ⟨hd, Or.inr (h e)⟩
    · exact ⟨hd, Or.inl e⟩

/-- A count goes on with a digit that is accepted. -/
theorem isCount_append (p : Pending) (c : Char) (h : IsCount p.digits) (ha : p.accepts c = true) :
    IsCount (p.digits ++ [c]) := by
  obtain ⟨hd, hz⟩ := (accepts_eq_true_iff p c).1 ha
  constructor
  · intro a hm
    rcases List.mem_append.1 hm with hm | hm
    · exact h.1 a hm
    · rw [List.mem_singleton.1 hm]
      exact hd
  · have hhead := h.2
    cases e : p.digits with
    | nil => simpa using hz e
    | cons a as =>
      rw [e] at hhead
      exact hhead

/-- Only the digits before it decide whether a digit is accepted. -/
theorem accepts_congr {p q : Pending} (h : p.digits = q.digits) (c : Char) :
    p.accepts c = q.accepts c := by
  unfold accepts
  rw [h]

theorem count_congr {p q : Pending} (h : p.digits = q.digits) (limit : Nat) :
    p.count limit = q.count limit := by
  unfold count hasCount
  rw [h]

theorem accepts_eq_false_of_not_isDigit (p : Pending) (c : Char) (h : c.isDigit = false) :
    p.accepts c = false := by
  unfold accepts
  rw [h, Bool.false_and]

theorem accepts_of_isCount (p : Pending) (limit : Nat) (v w : List Char) (c : Char)
    (hp : p.digits = kept limit v) (h : IsCount (v ++ c :: w)) : p.accepts c = true := by
  rw [accepts_eq_true_iff]
  refine ⟨h.1 c (by simp), fun hd e => h.2 ?_⟩
  rw [hp, kept_eq_nil_iff] at hd
  rw [hd, e]
  rfl

@[simp] theorem leader_push (p : Pending) (limit : Nat) (c : Char) :
    (p.push limit c).leader = p.leader := by
  unfold push
  split <;> rfl

theorem push_eq (p : Pending) (limit : Nat) (v : List Char) (c : Char)
    (hp : p.digits = kept limit v) :
    p.push limit c = { p with digits := kept limit (v ++ [c]) } := by
  unfold push
  unfold kept at hp ⊢
  rw [hp, List.length_take]
  split
  · next h =>
    have hv : v.length < Text.width (max limit 1) := by omega
    rw [List.take_of_length_le (Nat.le_of_lt hv),
      List.take_of_length_le (by rw [List.length_append]; exact hv)]
  · next h =>
    have hv : Text.width (max limit 1) ≤ v.length := by omega
    rw [List.take_append_of_le_length hv, ← hp]

/-- The digits that are typed after `v` only change the digits. -/
theorem pushAccepted_eq (p : Pending) (limit : Nat) (v w : List Char)
    (hp : p.digits = kept limit v) (h : IsCount (v ++ w)) :
    p.pushAccepted limit w = { p with digits := kept limit (v ++ w) } := by
  induction w generalizing p v with
  | nil => rw [List.append_nil, ← hp]; rfl
  | cons c w ih =>
    have hvw : v ++ c :: w = (v ++ [c]) ++ w := by simp
    have hstep : p.pushAccepted limit (c :: w) = (p.push limit c).pushAccepted limit w := by
      unfold pushAccepted
      rw [List.foldl_cons, if_pos (accepts_of_isCount p limit v w c hp h)]
    rw [hvw] at h
    rw [hstep, push_eq p limit v c hp, ih _ (v ++ [c]) rfl h, hvw]

theorem digits_pushAccepted (limit : Nat) (w : List Char) (h : IsCount w) :
    (empty.pushAccepted limit w).digits = kept limit w := by
  rw [pushAccepted_eq empty limit [] w (by simp [kept, empty]) h]
  rfl

theorem isCount_iff_accepts (limit : Nat) (w : List Char) :
    IsCount w ↔ ∀ v c u, w = v ++ c :: u → (empty.pushAccepted limit v).accepts c = true := by
  constructor
  · rintro h v c u rfl
    exact accepts_of_isCount _ limit v u c (digits_pushAccepted limit v h.left) h
  · intro h
    refine ⟨fun c hc => ?_, fun h0 => ?_⟩
    · obtain ⟨v, u, huv⟩ := List.append_of_mem hc
      exact ((accepts_eq_true_iff _ c).1 (h v c u huv)).1
    · obtain ⟨u, hu⟩ := List.head?_eq_some_iff.1 h0
      exact ((accepts_eq_true_iff _ '0').1 (h [] '0' u hu)).2 rfl rfl

/-! ## Their value -/

theorem count_nil (p : Pending) (limit : Nat) (h : p.digits = []) : p.count limit = 1 := by
  unfold count hasCount
  rw [h]
  rfl

theorem count_of_ne_nil (p : Pending) (limit : Nat) (h : p.digits ≠ []) :
    p.count limit = max 1 (min (Text.value p.digits) limit) := by
  unfold count hasCount
  rw [if_pos (by simpa using h)]

/-- A count within the limit is kept whole. -/
theorem kept_of_value_le (limit : Nat) (w : List Char) (h : IsCount w) (hl : Text.value w ≤ limit) :
    kept limit w = w := by
  by_cases hw : w = []
  · rw [hw]; exact List.take_nil
  · have hpow : 10 ^ (w.length - 1) < 10 ^ Text.width (max limit 1) := calc
      10 ^ (w.length - 1) ≤ Text.value w := h.pow_le_value hw
      _ ≤ max limit 1 := by omega
      _ < 10 ^ Text.width (max limit 1) := Text.lt_pow_width _
    have := (Nat.pow_lt_pow_iff_right (by omega)).1 hpow
    exact List.take_of_length_le (by omega)

/-- Under a power of ten, a count that loses digits is above the limit before and after. -/
theorem min_value_kept_pow (e : Nat) (w : List Char) (h : IsCount w) :
    min (Text.value (kept (10 ^ e) w)) (10 ^ e) = min (Text.value w) (10 ^ e) := by
  have hmax : max (10 ^ e) 1 = 10 ^ e := Nat.max_eq_left (Nat.pow_pos (by omega))
  have hw : Text.width (max (10 ^ e) 1) = e + 1 := by rw [hmax, Text.width_pow]
  by_cases hlen : w.length ≤ e + 1
  · unfold kept
    rw [hw, List.take_of_length_le hlen]
  · have hk : (kept (10 ^ e) w).length = e + 1 := by
      unfold kept
      rw [List.length_take, hw]
      omega
    have hbefore : 10 ^ e ≤ Text.value w := calc
      10 ^ e ≤ 10 ^ (w.length - 1) := Nat.pow_le_pow_right (by omega) (by omega)
      _ ≤ Text.value w := h.pow_le_value (by rintro rfl; simp at hlen)
    have hafter : 10 ^ e ≤ Text.value (kept (10 ^ e) w) := by
      have hne : kept (10 ^ e) w ≠ [] := by
        intro e0
        rw [e0] at hk
        cases hk
      have := (h.take _).pow_le_value hne
      rwa [← kept, hk] at this
    rw [Nat.min_eq_right hbefore, Nat.min_eq_right hafter]

theorem count_of_kept (p : Pending) (limit : Nat) (w : List Char) (hp : p.digits = kept limit w)
    (h : IsCount w) (hw : w ≠ []) (hl : Text.value w ≤ limit ∨ ∃ e, limit = 10 ^ e) :
    p.count limit = min (Text.value w) limit := by
  have hpos : 1 ≤ Text.value w :=
    Nat.le_trans (Nat.pow_pos (by omega)) (h.pow_le_value hw)
  rw [count_of_ne_nil p limit (by rw [hp]; exact fun e => hw ((kept_eq_nil_iff limit w).1 e)), hp]
  rcases hl with hl | ⟨e, rfl⟩
  · rw [kept_of_value_le limit w h hl]
    omega
  · have hlim : 1 ≤ 10 ^ e := Nat.pow_pos (by omega)
    rw [min_value_kept_pow e w h]
    omega

end Pending

end ModalInput
