import Mathlib.Data.List.Dedup
import Mathlib.Data.List.Induction
import ModalInput.Marks

/-!
# Marks as a map on letters

What the marks hold after any row of savings, whatever the characters that these were made under.
A letter holds what was saved last under it or under its other case, and there are as many marks as
letters that something was saved under.

    (empty.saveAll xs).1.get? label = lastUnder xs label                         (get?_saveAll)
    (empty.saveAll xs).1.size = (letters xs).dedup.length                        (size_saveAll)
-/

namespace ModalInput

theorem Text.toLower_toLower (c : Char) : c.toLower.toLower = c.toLower := by
  have h := toNat_toLower c
  rw [← Char.toNat_inj, toNat_toLower c.toLower]
  split at h <;> split <;> omega

namespace Marks

variable {S : Type}

/-! ## Definitions -/

/-- Saves one after the other, and keeps what each was answered. -/
def saveAll (m : Marks S) : List (Char × S) → Marks S × List Bool
  | [] => (m, [])
  | x :: xs =>
    let r := m.save x.1 x.2
    let q := saveAll r.1 xs
    (q.1, r.2 :: q.2)

/-- A letter stands for itself and for its other case. -/
def standsFor (a b : Char) : Bool := a.isAlpha && a.toLower == b.toLower

/-- What was saved last under a letter, in either case. -/
def lastUnder (xs : List (Char × S)) (label : Char) : Option S :=
  ((xs.filter fun x => standsFor x.1 label).getLast?).map Prod.snd

/-- The letters that something was saved under, each as a small letter. -/
def letters (xs : List (Char × S)) : List Char :=
  (xs.filter fun x => x.1.isAlpha).map fun x => x.1.toLower

/-! ## What is answered -/

theorem answer_save (m : Marks S) (label : Char) (s : S) :
    (m.save label s).2 = label.isAlpha :=
  isLabel_eq label

theorem save_of_not_isAlpha (m : Marks S) {label : Char} (h : label.isAlpha = false) (s : S) :
    (m.save label s).1 = m :=
  m.set_of_not_isAlpha h s

theorem answers_saveAll (m : Marks S) (xs : List (Char × S)) :
    (m.saveAll xs).2 = xs.map fun x => x.1.isAlpha := by
  induction xs generalizing m with
  | nil => rfl
  | cons x xs ih =>
    show (m.save x.1 x.2).2 :: ((m.save x.1 x.2).1.saveAll xs).2 = _
    rw [answer_save, ih, List.map_cons]

theorem saveAll_concat (m : Marks S) (xs : List (Char × S)) (x : Char × S) :
    (m.saveAll (xs ++ [x])).1 = ((m.saveAll xs).1.save x.1 x.2).1 := by
  induction xs generalizing m with
  | nil => rfl
  | cons y xs ih => exact ih (m.save y.1 y.2).1

/-! ## What a letter holds -/

theorem standsFor_iff (a b : Char) :
    standsFor a b = true ↔ a.isAlpha = true ∧ a.toLower = b.toLower := by
  unfold standsFor
  rw [Bool.and_eq_true, beq_iff_eq]

theorem get?_save (m : Marks S) (a b : Char) (s : S) :
    (m.save a s).1.get? b = if standsFor a b then some s else m.get? b := by
  show (m.set a s).get? b = _
  cases ha : a.isAlpha with
  | true =>
    rw [get?_set_of_isAlpha m ha]
    simp only [standsFor_iff, ha, true_and]
  | false =>
    rw [m.set_of_not_isAlpha ha]
    simp only [standsFor_iff, ha, Bool.false_eq_true, false_and, if_false]

theorem lastUnder_concat (xs : List (Char × S)) (x : Char × S) (label : Char) :
    lastUnder (xs ++ [x]) label =
      if standsFor x.1 label then some x.2 else lastUnder xs label := by
  unfold lastUnder
  rw [List.filter_append, List.filter_singleton]
  cases standsFor x.1 label with
  | true =>
    rw [if_pos rfl, cond_true, List.getLast?_concat]
    rfl
  | false => rw [if_neg Bool.false_ne_true, cond_false, List.append_nil]

theorem get?_saveAll (xs : List (Char × S)) (label : Char) :
    ((empty : Marks S).saveAll xs).1.get? label = lastUnder xs label := by
  induction xs using List.reverseRecOn with
  | nil => exact get?_empty label
  | append_singleton xs x ih => rw [saveAll_concat, get?_save, lastUnder_concat, ih]

/-! ## How many there are -/

theorem slot?_small (i : Fin 26) : slot? (Char.ofNat (97 + i.val)) = some i := by
  revert i
  decide

theorem toNat_small (i : Fin 26) : (Char.ofNat (97 + i.val)).toNat = 97 + i.val := by
  revert i
  decide

theorem toLower_small (i : Fin 26) :
    (Char.ofNat (97 + i.val)).toLower = Char.ofNat (97 + i.val) := by
  rw [← Char.toNat_inj, Text.toNat_toLower, toNat_small, if_neg (by omega)]

/-- The slot of a small letter tells the letter. -/
theorem eq_small_of_slot? {c : Char} {i : Fin 26} (hc : c.toLower = c) (h : slot? c = some i) :
    c = Char.ofNat (97 + i.val) := by
  unfold slot? at h
  split at h
  · next hb =>
    have hi : c.toLower.toNat - 97 = i.val := congrArg Fin.val (Option.some.inj h)
    rw [hc] at hb hi
    rw [← Char.toNat_inj, toNat_small]
    omega
  · cases h

theorem labels_eq (m : Marks S) :
    m.toList.map Prod.fst =
      (List.finRange 26).filterMap fun i =>
        (m.get? (Char.ofNat (97 + i.val))).map fun _ => Char.ofNat (97 + i.val) := by
  unfold toList
  rw [List.map_filterMap]
  refine List.filterMap_congr fun i _ => ?_
  unfold get?
  rw [slot?_small, Option.bind_some, Option.map_map]
  rfl

theorem nodup_labels (m : Marks S) : (m.toList.map Prod.fst).Nodup := by
  rw [labels_eq]
  refine List.Nodup.filterMap (fun i j c hi hj => ?_) (List.nodup_finRange 26)
  obtain ⟨-, -, hi⟩ := Option.map_eq_some_iff.1 hi
  obtain ⟨-, -, hj⟩ := Option.map_eq_some_iff.1 hj
  have hslot : slot? (Char.ofNat (97 + i.val)) = slot? (Char.ofNat (97 + j.val)) := by rw [hi, hj]
  rw [slot?_small, slot?_small] at hslot
  exact Option.some.inj hslot

theorem mem_labels_iff (m : Marks S) (c : Char) :
    c ∈ m.toList.map Prod.fst ↔ c.toLower = c ∧ m.get? c ≠ none := by
  rw [labels_eq, List.mem_filterMap]
  simp only [List.mem_finRange, true_and, Option.map_eq_some_iff]
  constructor
  · rintro ⟨i, x, hx, rfl⟩
    refine ⟨toLower_small i, ?_⟩
    rw [hx]
    exact Option.some_ne_none x
  · rintro ⟨hc, hget⟩
    obtain ⟨x, hx⟩ := Option.ne_none_iff_exists'.1 hget
    obtain ⟨i, hi, -⟩ := Option.bind_eq_some_iff.1 hx
    have hlabel := eq_small_of_slot? hc hi
    rw [hlabel] at hx
    exact ⟨i, x, hx, hlabel.symm⟩

/-- Marks are counted by the small letters that hold something. -/
theorem size_eq (m : Marks S) {cs : List Char} (hcs : cs.Nodup)
    (h : ∀ c, c ∈ cs ↔ c.toLower = c ∧ m.get? c ≠ none) : m.size = cs.length := by
  have hperm : (m.toList.map Prod.fst).Perm cs :=
    (List.perm_ext_iff_of_nodup m.nodup_labels hcs).2 fun c => by rw [mem_labels_iff, h]
  rw [← hperm.length_eq, List.length_map]
  rfl

theorem size_le (m : Marks S) : m.size ≤ 26 := by
  have h : m.size ≤ (List.finRange 26).length := List.length_filterMap_le _ _
  rwa [List.length_finRange] at h

theorem isEmpty_iff (m : Marks S) : m.isEmpty = true ↔ m.size = 0 := by
  unfold isEmpty size
  rw [List.isEmpty_iff, List.length_eq_zero_iff]

theorem lastUnder_ne_none_iff (xs : List (Char × S)) (label : Char) :
    lastUnder xs label ≠ none ↔ ∃ x ∈ xs, x.1.isAlpha = true ∧ x.1.toLower = label.toLower := by
  unfold lastUnder
  rw [ne_eq, Option.map_eq_none_iff, List.getLast?_eq_none_iff, List.filter_eq_nil_iff]
  simp only [standsFor_iff, not_forall, not_not, exists_prop]

theorem mem_letters_iff (xs : List (Char × S)) (c : Char) :
    c ∈ letters xs ↔ c.toLower = c ∧ lastUnder xs c ≠ none := by
  unfold letters
  rw [lastUnder_ne_none_iff, List.mem_map]
  constructor
  · rintro ⟨x, hx, rfl⟩
    obtain ⟨hmem, halpha⟩ := List.mem_filter.1 hx
    exact ⟨Text.toLower_toLower x.1, x, hmem, halpha, (Text.toLower_toLower x.1).symm⟩
  · rintro ⟨hc, x, hmem, halpha, he⟩
    exact ⟨x, List.mem_filter.2 ⟨hmem, halpha⟩, he.trans hc⟩

theorem size_saveAll (xs : List (Char × S)) :
    ((empty : Marks S).saveAll xs).1.size = (letters xs).dedup.length := by
  refine size_eq _ (letters xs).nodup_dedup fun c => ?_
  rw [List.mem_dedup, mem_letters_iff, get?_saveAll]

theorem isEmpty_saveAll_iff (xs : List (Char × S)) :
    ((empty : Marks S).saveAll xs).1.isEmpty = true ↔
      true ∉ ((empty : Marks S).saveAll xs).2 := by
  rw [isEmpty_iff, size_saveAll, answers_saveAll, List.length_eq_zero_iff, List.dedup_eq_nil]
  unfold letters
  simp only [List.map_eq_nil_iff, List.filter_eq_nil_iff, List.mem_map, not_exists, not_and]

/-! ## Any row of savings -/

/-- **Marks as a map.**  The answer is whether the character is a letter, and the marks stay as they
are if it is none.  Afterwards every letter holds what was saved last under it in either case, no
other character holds anything, and each letter is counted once. -/
theorem save_history (xs : List (Char × S)) :
    let r : Marks S × List Bool := empty.saveAll xs
    (∀ (m : Marks S) (label : Char) (s : S), (m.save label s).2 = label.isAlpha ∧
      (label.isAlpha = false → (m.save label s).1 = m)) ∧
    r.2 = xs.map (fun x => x.1.isAlpha) ∧
    (∀ label, r.1.get? label = lastUnder xs label) ∧
    (∀ label, label.isAlpha = false → r.1.get? label = none) ∧
    (r.1.isEmpty = true ↔ true ∉ r.2) ∧
    r.1.size = (letters xs).dedup.length ∧ r.1.size ≤ 26 := by
  intro r
  exact ⟨fun m label s => ⟨m.answer_save label s, fun h => m.save_of_not_isAlpha h s⟩,
    answers_saveAll empty xs, get?_saveAll xs, fun label h => r.1.get?_of_not_isAlpha h,
    isEmpty_saveAll_iff xs, size_saveAll xs, r.1.size_le⟩

/-- A letter is saved under in both cases; the Kelvin sign, whose small letter elsewhere is `k`, is
no letter. -/
theorem save_history_kelvin :
    let xs : List (Char × Nat) := [('Q', 5), ('\u212a', 1), ('q', 6), ('1', 2), ('b', 7)]
    let r := (empty : Marks Nat).saveAll xs
    r.2 = [true, false, true, false, true] ∧ r.1.get? 'Q' = some 6 ∧
      ('\u212a'.isAlpha = false ∧ r.1.get? '\u212a' = none) ∧ r.1.get? 'k' = none ∧
      r.1.isEmpty = false ∧ r.1.size = 2 := by
  intro xs r
  obtain ⟨-, hanswers, hget, hother, hempty, hsize, -⟩ := save_history xs
  have hkelvin : '\u212a'.isAlpha = false := by decide
  have htrue : true ∈ r.2 := by rw [hanswers]; decide
  refine ⟨hanswers, hget 'Q', ⟨hkelvin, hother _ hkelvin⟩, hget 'k', ?_, hsize⟩
  exact Bool.eq_false_iff.2 fun h => hempty.1 h htrue

end Marks

end ModalInput
