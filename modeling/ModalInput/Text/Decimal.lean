/-!
# Decimal numerals

`digits n` writes a natural number without leading zeros, `value` reads a run of digits back, and
`width n` is the number of digits that `n` takes.

    value (digits n) = n            (value_digits)
    (digits n).length = width n     (length_digits)
-/

namespace ModalInput.Text

/-! ## Definitions -/

def digitChar (d : Nat) : Char := Char.ofNat (48 + d)

def digitValue (c : Char) : Nat := c.toNat - 48

/-- The digits of `n`, the most significant first. -/
def digits (n : Nat) : List Char :=
  if n < 10 then [digitChar n] else digits (n / 10) ++ [digitChar (n % 10)]

/-- The number that a run of decimal digits stands for; the empty run is zero. -/
def value (ds : List Char) : Nat := ds.foldl (fun n d => 10 * n + digitValue d) 0

def width (n : Nat) : Nat :=
  if n < 10 then 1 else width (n / 10) + 1

def decimal (n : Nat) : String := String.ofList (digits n)

/-! ## Lemmas -/

theorem digitValue_digitChar (d : Nat) (h : d < 10) : digitValue (digitChar d) = d := by
  have : ∀ d, d < 10 → digitValue (digitChar d) = d := by decide
  exact this d h

theorem value_append_singleton (ds : List Char) (d : Char) :
    value (ds ++ [d]) = 10 * value ds + digitValue d := by
  simp [value, List.foldl_append]

theorem value_digits (n : Nat) : value (digits n) = n := by
  induction n using Nat.strongRecOn with
  | _ n ih =>
    unfold digits
    split
    · next h => simp [value, digitValue_digitChar n h]
    · next h =>
      rw [value_append_singleton, ih (n / 10) (by omega),
        digitValue_digitChar _ (Nat.mod_lt _ (by omega))]
      omega

theorem length_digits (n : Nat) : (digits n).length = width n := by
  induction n using Nat.strongRecOn with
  | _ n ih =>
    unfold digits width
    split
    · rfl
    · simp [ih (n / 10) (by omega)]

theorem digits_inj {m n : Nat} (h : digits m = digits n) : m = n := by
  rw [← value_digits m, h, value_digits n]

theorem digits_ne_nil (n : Nat) : digits n ≠ [] := by
  unfold digits
  split
  · exact List.cons_ne_nil _ _
  · exact List.append_ne_nil_of_right_ne_nil _ (List.cons_ne_nil _ _)

theorem isDigit_digits (n : Nat) : (digits n).all Char.isDigit = true := by
  have hdigit : ∀ d, d < 10 → (digitChar d).isDigit = true := by decide
  induction n using Nat.strongRecOn with
  | _ n ih =>
    unfold digits
    split
    · next hlt =>
      rw [List.all_cons, List.all_nil, Bool.and_true]
      exact hdigit n hlt
    · next hge =>
      have hlast := hdigit (n % 10) (Nat.mod_lt n (by omega))
      rw [List.all_append, ih (n / 10) (by omega), List.all_cons, List.all_nil, hlast]
      rfl

end ModalInput.Text
