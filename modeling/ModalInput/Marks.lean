import ModalInput.Text.Uppercase

/-!
# Marks

Selections saved under the letters `a` to `z`.  A capital letter is the same mark as the small one,
and no other character is a label.

    (m.set a s).get? b = if slot? b = slot? a ∧ slot? a ≠ none then some s else m.get? b   (get?_set)
-/

namespace ModalInput

structure Marks (S : Type) where
  slots : Vector (Option S) 26
  deriving DecidableEq, Repr

namespace Marks

variable {S : Type}

/-! ## Definitions -/

def empty : Marks S := ⟨Vector.replicate 26 none⟩

/-- The slot of a label. -/
def slot? (label : Char) : Option (Fin 26) :=
  if h : 97 ≤ label.toLower.toNat ∧ label.toLower.toNat < 123 then
    some ⟨label.toLower.toNat - 97, by omega⟩
  else none

def isLabel (c : Char) : Bool := (slot? c).isSome

/-- A character that is no label changes nothing. -/
def set (m : Marks S) (label : Char) (s : S) : Marks S :=
  match slot? label with
  | some i => ⟨m.slots.set i (some s)⟩
  | none => m

/-- Sets a mark, and answers whether the character is a label. -/
def save (m : Marks S) (label : Char) (s : S) : Marks S × Bool := (m.set label s, isLabel label)

def get? (m : Marks S) (label : Char) : Option S := (slot? label).bind fun i => m.slots[i]

/-- The marks that are set, by their small letters in order. -/
def toList (m : Marks S) : List (Char × S) :=
  (List.finRange 26).filterMap fun i =>
    m.slots[i].map fun s => (Char.ofNat (97 + i.val), s)

def size (m : Marks S) : Nat := m.toList.length

def isEmpty (m : Marks S) : Bool := m.toList.isEmpty

/-! ## Lemmas -/

theorem slot?_eq_none_iff (label : Char) : slot? label = none ↔ label.isAlpha = false := by
  rw [Bool.eq_false_iff, ne_eq, Text.isAlpha_iff]
  unfold slot?
  split
  · simp only [reduceCtorEq, false_iff]
    omega
  · simp only [true_iff]
    omega

theorem isLabel_eq (label : Char) : isLabel label = label.isAlpha := by
  unfold isLabel
  cases h : label.isAlpha with
  | true =>
    rw [Option.isSome_iff_ne_none, ne_eq, slot?_eq_none_iff, h]
    exact Bool.noConfusion
  | false =>
    rw [(slot?_eq_none_iff label).2 h]
    rfl

/-- A letter has a slot of its own, whatever its case. -/
theorem slot?_eq_iff {a : Char} (ha : a.isAlpha = true) (b : Char) :
    slot? b = slot? a ↔ a.toLower = b.toLower := by
  rw [Text.isAlpha_iff] at ha
  rw [← Char.toNat_inj]
  have hslot : slot? a = some ⟨a.toLower.toNat - 97, by omega⟩ := by
    unfold slot?
    rw [dif_pos ⟨ha.1, Nat.lt_succ_of_le ha.2⟩]
  rw [hslot]
  unfold slot?
  split
  · rw [Option.some_inj, Fin.mk.injEq]
    omega
  · simp only [reduceCtorEq, false_iff]
    omega

theorem get?_empty (label : Char) : (empty : Marks S).get? label = none := by
  unfold get? empty
  cases slot? label <;> simp

theorem get?_set (m : Marks S) (a b : Char) (s : S) :
    (m.set a s).get? b = if slot? b = slot? a ∧ slot? a ≠ none then some s else m.get? b := by
  unfold set get?
  cases ha : slot? a with
  | none => simp
  | some i =>
    cases hb : slot? b with
    | none => simp
    | some j =>
      by_cases h : i = j
      · subst h; simp
      · simp [Vector.getElem_set, Fin.val_inj, h, eq_comm]

theorem get?_of_not_isAlpha (m : Marks S) {label : Char} (h : label.isAlpha = false) :
    m.get? label = none := by
  unfold get?
  rw [(slot?_eq_none_iff label).2 h]
  rfl

theorem set_of_not_isAlpha (m : Marks S) {label : Char} (h : label.isAlpha = false) (s : S) :
    m.set label s = m := by
  unfold set
  rw [(slot?_eq_none_iff label).2 h]

theorem get?_set_of_isAlpha (m : Marks S) {a : Char} (ha : a.isAlpha = true) (b : Char) (s : S) :
    (m.set a s).get? b = if a.toLower = b.toLower then some s else m.get? b := by
  have hslot : slot? a ≠ none := by
    rw [ne_eq, slot?_eq_none_iff, ha]
    exact Bool.noConfusion
  simp only [get?_set, slot?_eq_iff ha, hslot, ne_eq, not_false_eq_true, and_true]

end Marks

end ModalInput
