import ModalInput.Command.Word
import ModalInput.Proofs.Count

/-!
# Counts above the limit

A count that is typed without a leading zero never leaves the word, whatever its length.  Under
the limit it comes to its own value; above the limit it comes to the limit exactly if no digit is
lost, or if the digits that are kept reach the limit by themselves.  Only zero and the powers of
ten are limits under which this is so for every count.

    w.foldlM (wordPush? limit) empty = some (empty.pushAccepted limit w) (foldlM_wordPush?)
    (p.wordCount limit).toNat = p.count limit                            (toNat_wordCount)
    p.digits = kept limit w →
      (p.count limit = max 1 (min (value w) limit) ↔
        w.length ≤ width (max limit 1) ∨ limit ≤ value (kept limit w))   (count_eq_clamped_iff)
-/

namespace ModalInput

/-! ## Numerals -/

namespace Text

theorem width_eq_log (n : Nat) : width n = Nat.log 10 n + 1 := by
  induction n using Nat.strongRecOn with
  | _ n ih =>
    have hstep : width n = if n < 10 then 1 else width (n / 10) + 1 := by rw [width]
    rw [hstep]
    by_cases h : n < 10
    · rw [if_pos h, Nat.log_of_lt h]
    · rw [if_neg h, ih (n / 10) (by omega),
        Nat.log_of_one_lt_of_le (by omega : 1 < 10) (by omega : 10 ≤ n)]

theorem pow_width_le (n : Nat) (h : 0 < n) : 10 ^ (width n - 1) ≤ n := by
  rw [width_eq_log, Nat.add_sub_cancel]
  exact Nat.pow_log_le_self 10 (by omega)

/-- The digits of a power of ten. -/
def powDigits (e : Nat) : List Char := '1' :: List.replicate e '0'

theorem powDigits_succ (e : Nat) : powDigits (e + 1) = powDigits e ++ ['0'] := by
  unfold powDigits
  rw [List.replicate_succ', List.cons_append]

theorem length_powDigits (e : Nat) : (powDigits e).length = e + 1 := by
  unfold powDigits
  rw [List.length_cons, List.length_replicate]

theorem value_powDigits (e : Nat) : value (powDigits e) = 10 ^ e := by
  induction e with
  | zero => rfl
  | succ e ih =>
    have hzero : digitValue '0' = 0 := rfl
    rw [powDigits_succ, value_append_singleton, ih, hzero, Nat.pow_succ]
    omega

theorem isCount_powDigits (e : Nat) : IsCount (powDigits e) := by
  constructor
  · intro c hc
    rcases List.mem_cons.1 hc with rfl | hc
    · rfl
    · rw [List.eq_of_mem_replicate hc]
      rfl
  · intro h
    cases h

end Text

/-! ## In words -/

namespace Word

theorem log10?_of_pos (n : UInt64) (h : 0 < n.toNat) :
    log10? n = some (UInt64.ofNat (Nat.log 10 n.toNat)) := by
  unfold log10?
  rw [if_neg]
  rintro rfl
  exact absurd h (by decide)

theorem toNat_largest : largest.toNat = UInt64.size - 1 :=
  UInt64.toNat_ofNat_of_lt' (by decide)

theorem digit?_of_isDigit (c : Char) (h : c.isDigit = true) :
    digit? c = some (UInt64.ofNat (Text.digitValue c)) := by
  unfold digit?
  rw [if_pos h]

theorem value?_append_singleton (ds : List Char) (d : Char) :
    value? (ds ++ [d]) =
      (value? ds).bind fun n => (mul? n 10).bind fun m => (digit? d).bind fun k => add? m k := by
  unfold value?
  rw [List.foldlM_append]
  simp only [List.foldlM_cons, List.foldlM_nil, bind_pure]
  rfl

/-- A number that fits is found, and one that does not fit is noticed. -/
theorem value?_eq (ds : List Char) (h : ∀ c ∈ ds, c.isDigit = true) :
    value? ds =
      if Text.value ds < UInt64.size then some (UInt64.ofNat (Text.value ds)) else none := by
  induction ds using List.reverseRecOn with
  | nil => rfl
  | append_singleton ds d ih =>
    have hd : d.isDigit = true := h d (by simp)
    have hlt : Text.digitValue d < 10 := by
      have hle : d.toNat ≤ 57 := (Char.isDigit_iff_toNat.1 hd).2
      unfold Text.digitValue
      omega
    rw [value?_append_singleton, ih (fun c hc => h c (List.mem_append_left _ hc)),
      Text.value_append_singleton, digit?_of_isDigit d hd]
    have hsize : UInt64.size = 18446744073709551616 := rfl
    have hten : (10 : UInt64).toNat = 10 := rfl
    have hdig : (UInt64.ofNat (Text.digitValue d)).toNat = Text.digitValue d :=
      UInt64.toNat_ofNat_of_lt' (by omega)
    by_cases hv : Text.value ds < UInt64.size
    · have hval : (UInt64.ofNat (Text.value ds)).toNat = Text.value ds :=
        UInt64.toNat_ofNat_of_lt' hv
      rw [if_pos hv, Option.bind_some]
      by_cases hm : Text.value ds * 10 < UInt64.size
      · have hmul : (UInt64.ofNat (Text.value ds * 10)).toNat = Text.value ds * 10 :=
          UInt64.toNat_ofNat_of_lt' hm
        rw [mul?_of_lt (by rw [hval, hten]; exact hm), hval, hten, Option.bind_some,
          Option.bind_some]
        by_cases ha : Text.value ds * 10 + Text.digitValue d < UInt64.size
        · rw [add?_of_lt (by rw [hmul, hdig]; exact ha), hmul, hdig, if_pos (by omega),
            Nat.mul_comm]
        · unfold add?
          rw [hmul, hdig, if_neg ha, if_neg (by omega)]
      · unfold mul?
        rw [hval, hten, if_neg hm, if_neg (by omega)]
        rfl
    · rw [if_neg hv, if_neg (by omega)]
      rfl

end Word

namespace Pending

/-- The logarithm of a word is far below the largest word. -/
theorem toNat_log_limit (limit : UInt64) :
    (UInt64.ofNat (Nat.log 10 (max limit.toNat 1))).toNat + 1 = Text.width (max limit.toNat 1) ∧
      Text.width (max limit.toNat 1) < UInt64.size := by
  have hsize : UInt64.size = 18446744073709551616 := rfl
  have hlog : Nat.log 10 (max limit.toNat 1) < 20 := by
    have hlt : max limit.toNat 1 < 10 ^ 20 := by
      have := limit.toNat_lt_size
      omega
    exact Nat.log_lt_of_lt_pow (by omega) hlt
  rw [Text.width_eq_log, UInt64.toNat_ofNat_of_lt' (by omega)]
  omega

/-- The room for digits is found under every limit. -/
theorem room?_eq (limit : UInt64) :
    room? limit = some (UInt64.ofNat (Text.width (max limit.toNat 1))) := by
  obtain ⟨hwidth, hlt⟩ := toNat_log_limit limit
  have hone : (1 : UInt64).toNat = 1 := rfl
  have hmax : (max limit 1).toNat = max limit.toNat 1 := Word.toNat_max limit 1
  unfold room?
  rw [Word.log10?_of_pos _ (by omega), hmax, Option.bind_eq_bind, Option.bind_some,
    Word.add?_of_lt (by omega), hone, hwidth]

theorem wordPush?_eq (limit : UInt64) (p : Pending) (c : Char) (h : p.accepts c = true) :
    wordPush? limit p c = some (p.push limit.toNat c) := by
  unfold wordPush? push
  rw [room?_eq, Option.bind_eq_bind, Option.bind_some, h,
    UInt64.toNat_ofNat_of_lt' (toNat_log_limit limit).2]
  simp only [Bool.not_true, Bool.false_eq_true, if_false]
  split <;> rfl

/-- Each digit is accepted in its turn, and none of the pushes fails. -/
theorem foldlM_wordPush? (limit : UInt64) (p : Pending) (v w : List Char)
    (hp : p.digits = kept limit.toNat v) (h : IsCount (v ++ w)) :
    w.foldlM (wordPush? limit) p = some (p.pushAccepted limit.toNat w) := by
  induction w generalizing p v with
  | nil => rfl
  | cons c w ih =>
    have ha : p.accepts c = true := accepts_of_isCount p limit.toNat v w c hp h
    have hvw : v ++ c :: w = (v ++ [c]) ++ w := by simp
    have hdigits : (p.push limit.toNat c).digits = kept limit.toNat (v ++ [c]) := by
      rw [push_eq p limit.toNat v c hp]
    rw [hvw] at h
    rw [List.foldlM_cons, wordPush?_eq limit p c ha, Option.bind_eq_bind, Option.bind_some,
      ih _ (v ++ [c]) hdigits h]
    unfold pushAccepted
    rw [List.foldl_cons, if_pos ha]

/-- Where the number leaves the word, the largest word is as good: no limit is above it. -/
theorem toNat_wordCount (p : Pending) (limit : UInt64)
    (h : ∀ c ∈ p.digits, c.isDigit = true) : (p.wordCount limit).toNat = p.count limit.toNat := by
  have hone : (1 : UInt64).toNat = 1 := rfl
  have hlim : limit.toNat < UInt64.size := limit.toNat_lt_size
  unfold wordCount count
  by_cases hc : p.hasCount = true
  · rw [if_pos hc, if_pos hc, Word.toNat_max, Word.toNat_min, Word.value?_eq p.digits h, hone]
    by_cases hv : Text.value p.digits < UInt64.size
    · rw [if_pos hv, Option.getD_some, UInt64.toNat_ofNat_of_lt' hv, Nat.max_comm]
    · rw [if_neg hv, Option.getD_none, Word.toNat_largest]
      omega
  · rw [if_neg hc, if_neg hc, hone]

/-! ## Clamping -/

/-- A count that is longer than the limit is above the limit. -/
theorem limit_lt_value (limit : Nat) (w : List Char) (h : IsCount w)
    (hl : Text.width (max limit 1) < w.length) : limit < Text.value w := by
  have hne : w ≠ [] := by
    rintro rfl
    simp at hl
  calc
    limit ≤ max limit 1 := by omega
    _ < 10 ^ Text.width (max limit 1) := Text.lt_pow_width _
    _ ≤ 10 ^ (w.length - 1) := Nat.pow_le_pow_right (by omega) (by omega)
    _ ≤ Text.value w := h.pow_le_value hne

theorem count_eq_clamped_iff (p : Pending) (limit : Nat) (w : List Char)
    (hp : p.digits = kept limit w) (h : IsCount w) (hw : w ≠ []) :
    p.count limit = max 1 (min (Text.value w) limit) ↔
      w.length ≤ Text.width (max limit 1) ∨ limit ≤ Text.value (kept limit w) := by
  have hne : kept limit w ≠ [] := fun e => hw ((kept_eq_nil_iff limit w).1 e)
  rw [count_of_ne_nil p limit (by rw [hp]; exact hne), hp]
  by_cases hlen : w.length ≤ Text.width (max limit 1)
  · have hkept : kept limit w = w := List.take_of_length_le hlen
    rw [hkept]
    exact ⟨fun _ => Or.inl hlen, fun _ => rfl⟩
  · have habove : limit < Text.value w := limit_lt_value limit w h (by omega)
    have hpos : 1 ≤ Text.value (kept limit w) :=
      Nat.le_trans (Nat.pow_pos (by omega)) ((h.take _).pow_le_value hne)
    omega

/-- A one with as many zeros as the limit has digits loses a zero. -/
theorem kept_powDigits (limit : Nat) :
    kept limit (Text.powDigits (Text.width (max limit 1))) =
      Text.powDigits (Text.width (max limit 1) - 1) := by
  obtain ⟨e, he⟩ := Nat.exists_eq_add_of_le' (Text.one_le_width (max limit 1))
  unfold kept
  rw [he, Nat.add_sub_cancel, Text.powDigits_succ,
    List.take_append_of_le_length (by rw [Text.length_powDigits]),
    List.take_of_length_le (by rw [Text.length_powDigits])]

/-- That count is clamped only under zero and under a power of ten. -/
theorem eq_zero_or_pow (limit : Nat) (p : Pending)
    (hp : p.digits = kept limit (Text.powDigits (Text.width (max limit 1))))
    (h : p.count limit =
      max 1 (min (Text.value (Text.powDigits (Text.width (max limit 1)))) limit)) :
    limit = 0 ∨ ∃ e, limit = 10 ^ e := by
  rw [count_eq_clamped_iff p limit _ hp (Text.isCount_powDigits _) (List.cons_ne_nil _ _),
    Text.length_powDigits, kept_powDigits, Text.value_powDigits] at h
  have hle : limit ≤ 10 ^ (Text.width (max limit 1) - 1) := h.resolve_left (by omega)
  by_cases hz : limit = 0
  · exact Or.inl hz
  · have hge : 10 ^ (Text.width (max limit 1) - 1) ≤ max limit 1 :=
      Text.pow_width_le (max limit 1) (by omega)
    exact Or.inr ⟨Text.width (max limit 1) - 1, by omega⟩

/-- Every limit that is zero or a power of ten clamps. -/
theorem count_eq_clamped_of_pow (p : Pending) (limit : Nat) (w : List Char)
    (hp : p.digits = kept limit w) (h : IsCount w) (hw : w ≠ [])
    (hl : limit = 0 ∨ ∃ e, limit = 10 ^ e) :
    p.count limit = max 1 (min (Text.value w) limit) := by
  rcases hl with rfl | hl
  · rw [count_eq_clamped_iff p 0 w hp h hw]
    exact Or.inr (Nat.zero_le _)
  · have hcount : p.count limit = min (Text.value w) limit :=
      count_of_kept p limit w hp h hw (Or.inr hl)
    have := p.one_le_count limit
    omega

/-- Typed digit by digit, a count never leaves the word: each digit is accepted and pushed, and the
count is the one that is worked out without words.  It is the number that was typed, clamped to the
limit, exactly if the limit leaves room for all of its digits or the digits that are kept reach the
limit; and a limit clamps every count in this way exactly if it is zero or a power of ten. -/
theorem clamped_iff (limit : UInt64) :
    (∀ w, IsCount w → w ≠ [] →
      ∃ p : Pending, w.foldlM (wordPush? limit) empty = some p ∧
        p = empty.pushAccepted limit.toNat w ∧
        (p.wordCount limit).toNat = p.count limit.toNat ∧
        (p.count limit.toNat = max 1 (min (Text.value w) limit.toNat) ↔
          w.length ≤ Text.width (max limit.toNat 1) ∨
          limit.toNat ≤ Text.value (w.take (Text.width (max limit.toNat 1))))) ∧
    ((∀ w, IsCount w → w ≠ [] →
        (empty.pushAccepted limit.toNat w).count limit.toNat =
          max 1 (min (Text.value w) limit.toNat)) ↔
      limit.toNat = 0 ∨ ∃ e, limit.toNat = 10 ^ e) := by
  constructor
  · intro w h hw
    have hdigits : (empty.pushAccepted limit.toNat w).digits = kept limit.toNat w :=
      digits_pushAccepted limit.toNat w h
    refine ⟨_, foldlM_wordPush? limit empty [] w (by simp [kept, empty]) h, rfl, ?_,
      count_eq_clamped_iff _ limit.toNat w hdigits h hw⟩
    refine toNat_wordCount _ limit (fun c hc => ?_)
    rw [hdigits] at hc
    exact h.1 c (List.mem_of_mem_take hc)
  · constructor
    · intro h
      have hc := Text.isCount_powDigits (Text.width (max limit.toNat 1))
      exact eq_zero_or_pow limit.toNat _ (digits_pushAccepted limit.toNat _ hc)
        (h _ hc (List.cons_ne_nil _ _))
    · intro hl w h hw
      exact count_eq_clamped_of_pow _ limit.toNat w (digits_pushAccepted limit.toNat w h) h hw hl

theorem clamped_iff_fiveHundred :
    IsCount ['9', '9', '9'] ∧ ∃ p : Pending,
      ['9', '9', '9'].foldlM (wordPush? 500) empty = some p ∧ (p.wordCount 500).toNat = 500 := by
  have hc : IsCount ['9', '9', '9'] := by decide
  have hlim : (500 : UInt64).toNat = 500 := rfl
  have hwidth : Text.width 500 = 3 := by simp [Text.width]
  obtain ⟨p, hpush, -, hword, hcount⟩ := (clamped_iff 500).1 ['9', '9', '9'] hc (by decide)
  rw [hlim] at hword hcount
  refine ⟨hc, p, hpush, ?_⟩
  rw [hword, hcount.2 (Or.inl (by rw [Nat.max_eq_left (by decide), hwidth]; decide))]
  rfl

/-- Of a thousand only a hundred is left under a limit of five hundred. -/
theorem thousand_not_clamped :
    IsCount ['1', '0', '0', '0'] ∧
      (empty.pushAccepted 500 ['1', '0', '0', '0']).count 500 = 100 ∧
      max 1 (min (Text.value ['1', '0', '0', '0']) 500) = 500 := by
  have hc : IsCount ['1', '0', '0', '0'] := by decide
  have hwidth : Text.width 500 = 3 := by simp [Text.width]
  have hdigits : (empty.pushAccepted 500 ['1', '0', '0', '0']).digits = ['1', '0', '0'] := by
    rw [digits_pushAccepted 500 _ hc]
    unfold kept
    rw [Nat.max_eq_left (by decide), hwidth]
    rfl
  refine ⟨hc, ?_, by decide⟩
  rw [count_of_ne_nil _ 500 (by rw [hdigits]; decide), hdigits]
  decide

end Pending

end ModalInput
