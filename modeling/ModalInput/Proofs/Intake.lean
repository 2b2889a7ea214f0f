import ModalInput.Proofs.Execution

/-!
# How a press is taken

What `intake` answers, by the mode and the press, and each answer as a condition on them, whatever
the order in which the code asks.

    intake keys m p = .oneShot ↔ m = .insert ∧ keys.isOneShot p      (intake_eq_oneShot_iff)
-/

namespace ModalInput

/-- The press of a key that is meant for the tables. -/
def Press.Plain (p : Press) : Prop :=
  p.hasHostModifier = false ∧ p.key ≠ .escape ∧ p.key ≠ .modifier

/-- The ways in which a press is taken, each with all that was asked before. -/
inductive Taken (keys : KeySettings) (m : Mode) (p : Press) : Intake → Prop
  | closeFind (hm : m = .search) (hk : p.key = .escape ∨ p.key = .enter) : Taken keys m p .closeFind
  /-- The find box has the key. -/
  | find (hm : m = .search) (hk : ¬ (p.key = .escape ∨ p.key = .enter)) : Taken keys m p .pass
  | oneShot (hm : m = .insert) (ho : keys.isOneShot p = true) : Taken keys m p .oneShot
  /-- A shortcut of the host, or a modifier on its own. -/
  | host (hm : m ≠ .search) (ho : ¬ (m = .insert ∧ keys.isOneShot p = true))
      (hp : p.hasHostModifier = true ∨ p.key = .modifier) : Taken keys m p .pass
  | escape (hm : m ≠ .search) (hp : p.hasHostModifier = false) (hk : p.key = .escape) :
      Taken keys m p .escape
  /-- Insert mode leaves the key to the host. -/
  | insert (hm : m = .insert) (ho : keys.isOneShot p = false) (hp : p.hasHostModifier = false)
      (he : p.key ≠ .escape) : Taken keys m p .pass
  | key (hm : m ≠ .search) (hi : m ≠ .insert) (hp : p.Plain) : Taken keys m p (.key p.key)

variable (keys : KeySettings) (m : Mode) (p : Press)

theorem taken_intake : Taken keys m p (intake keys m p) := by
  unfold intake
  by_cases hm : m = .search
  · rw [if_pos hm]
    by_cases hk : p.key = .escape ∨ p.key = .enter
    · rw [if_pos hk]
      exact .closeFind hm hk
    · rw [if_neg hk]
      exact .find hm hk
  rw [if_neg hm]
  by_cases ho : m = .insert ∧ keys.isOneShot p = true
  · rw [if_pos ho]
    exact .oneShot ho.1 ho.2
  rw [if_neg ho]
  by_cases hp : p.hasHostModifier = true ∨ p.key = .modifier
  · rw [if_pos hp]
    exact .host hm ho hp
  rw [if_neg hp]
  obtain ⟨hh, hk⟩ := not_or.1 hp
  have hh := Bool.eq_false_iff.2 hh
  by_cases he : p.key = .escape
  · rw [if_pos he]
    exact .escape hm hh he
  rw [if_neg he]
  by_cases hi : m = .insert
  · rw [if_pos hi]
    exact .insert hi (Bool.eq_false_iff.2 fun h => ho ⟨hi, h⟩) hh he
  · rw [if_neg hi]
    exact .key hm hi ⟨hh, he, hk⟩

/-! ## Answers -/

theorem hasHostModifier_of_isOneShot (h : keys.isOneShot p = true) : p.hasHostModifier = true := by
  unfold KeySettings.isOneShot at h
  unfold Press.hasHostModifier
  simp only [Bool.and_eq_true] at h
  rw [h.1.1.1, Bool.true_or, Bool.true_or]

theorem intake_eq_oneShot_iff :
    intake keys m p = .oneShot ↔ m = .insert ∧ keys.isOneShot p = true := by
  constructor
  · intro h
    have ht := taken_intake keys m p
    rw [h] at ht
    cases ht with
    | oneShot hm ho => exact ⟨hm, ho⟩
  · intro h
    unfold intake
    rw [if_neg (by rw [h.1]; decide), if_pos h]

theorem intake_eq_closeFind_iff :
    intake keys m p = .closeFind ↔ m = .search ∧ (p.key = .escape ∨ p.key = .enter) := by
  constructor
  · intro h
    have ht := taken_intake keys m p
    rw [h] at ht
    cases ht with
    | closeFind hm hk => exact ⟨hm, hk⟩
  · intro h
    unfold intake
    rw [if_pos h.1, if_pos h.2]

theorem intake_eq_escape_iff :
    intake keys m p = .escape ↔
      m ≠ .search ∧ p.hasHostModifier = false ∧ p.key = .escape := by
  constructor
  · intro h
    have ht := taken_intake keys m p
    rw [h] at ht
    cases ht with
    | escape hm hp hk => exact ⟨hm, hp, hk⟩
  · rintro ⟨hm, hp, hk⟩
    have hs : ¬ (m = .insert ∧ keys.isOneShot p = true) := by
      intro h
      rw [hasHostModifier_of_isOneShot keys p h.2] at hp
      cases hp
    unfold intake
    rw [if_neg hm, if_neg hs, if_neg (by simp [hp, hk]), if_pos hk]

theorem intake_eq_key_iff (k : Key) :
    intake keys m p = .key k ↔ m ≠ .search ∧ m ≠ .insert ∧ p.Plain ∧ p.key = k := by
  constructor
  · intro h
    have ht := taken_intake keys m p
    rw [h] at ht
    cases ht with
    | key hm hi hp => exact ⟨hm, hi, hp, rfl⟩
  · rintro ⟨hm, hi, ⟨hp, he, hk⟩, rfl⟩
    unfold intake
    rw [if_neg hm, if_neg (fun h => hi h.1), if_neg (by simp [hp, hk]), if_neg he, if_neg hi]

theorem disposition_of_intake (h : intake keys m p ≠ .pass) : disposition keys m p = .suppress := by
  unfold disposition
  cases hi : intake keys m p with
  | pass => exact absurd hi h
  | _ => rfl

theorem disposition_of_plain (hm : m ≠ .search) (hi : m ≠ .insert) (hp : p.Plain) :
    disposition keys m p = .suppress := by
  apply disposition_of_intake
  rw [(intake_eq_key_iff keys m p p.key).2 ⟨hm, hi, hp, rfl⟩]
  simp

/-! ## Presses that type a character -/

/-- The press of a character, with or without shift. -/
def Press.Types (p : Press) (c : Char) : Prop := p.key = .char c ∧ p.hasHostModifier = false

variable {p} in
theorem Press.Types.plain {c : Char} (h : p.Types c) : p.Plain :=
  ⟨h.2, by rw [h.1]; simp, by rw [h.1]; simp⟩

theorem intake_of_types (c : Char) (hs : m ≠ .search) (hi : m ≠ .insert) (hp : p.Types c) :
    intake keys m p = .key (.char c) :=
  (intake_eq_key_iff keys m p _).2 ⟨hs, hi, hp.plain, hp.1⟩

theorem types_ofChar (c : Char) : (Press.ofChar c).Types c := by
  constructor
  · unfold Press.ofChar Press.ofName Press.key Key.ofName
    rw [String.toList_singleton]
  · rfl

end ModalInput
