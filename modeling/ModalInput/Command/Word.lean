import Mathlib.Data.Nat.Log
import ModalInput.Command.Pending

/-!
# Counts in words

Counts as a machine with words of 64 bits works them out.  A step that the machine cannot take has
no result: a sum or a product that leaves the word, the logarithm of zero, and the push of a
character that is not accepted.
-/

namespace ModalInput

/-! ## Arithmetic -/

namespace Word

def add? (a b : UInt64) : Option UInt64 :=
  if a.toNat + b.toNat < UInt64.size then some (a + b) else none

def mul? (a b : UInt64) : Option UInt64 :=
  if a.toNat * b.toNat < UInt64.size then some (a * b) else none

/-- The logarithm to base ten, rounded down. -/
def log10? (n : UInt64) : Option UInt64 :=
  if n = 0 then none else some (UInt64.ofNat (Nat.log 10 n.toNat))

def digit? (c : Char) : Option UInt64 :=
  if c.isDigit then some (UInt64.ofNat (Text.digitValue c)) else none

/-- The number that digits stand for. -/
def value? (ds : List Char) : Option UInt64 :=
  ds.foldlM (fun n d => do add? (← mul? n 10) (← digit? d)) 0

def largest : UInt64 := UInt64.ofNat (UInt64.size - 1)

end Word

/-! ## Counts -/

namespace Pending

/-- How many digits a limit leaves room for. -/
def room? (limit : UInt64) : Option UInt64 := do
  Word.add? (← Word.log10? (max limit 1)) 1

def wordPush? (limit : UInt64) (p : Pending) (c : Char) : Option Pending := do
  let n ← room? limit
  if !p.accepts c then none
  else if p.digits.length < n.toNat then some { p with digits := p.digits ++ [c] }
  else some p

/-- Digits whose number leaves the word count as the largest word. -/
def wordCount (p : Pending) (limit : UInt64) : UInt64 :=
  if p.hasCount then max (min ((Word.value? p.digits).getD Word.largest) limit) 1 else 1

end Pending

/-! ## Lemmas -/

namespace Word

theorem add?_of_lt {a b : UInt64} (h : a.toNat + b.toNat < UInt64.size) :
    add? a b = some (UInt64.ofNat (a.toNat + b.toNat)) := by
  unfold add?
  rw [if_pos h, UInt64.ofNat_add, UInt64.ofNat_toNat, UInt64.ofNat_toNat]

theorem mul?_of_lt {a b : UInt64} (h : a.toNat * b.toNat < UInt64.size) :
    mul? a b = some (UInt64.ofNat (a.toNat * b.toNat)) := by
  unfold mul?
  rw [if_pos h, UInt64.ofNat_mul, UInt64.ofNat_toNat, UInt64.ofNat_toNat]

theorem toNat_max (a b : UInt64) : (max a b).toNat = max a.toNat b.toNat := by
  rw [Nat.max_def]
  show (if a ≤ b then b else a).toNat = _
  simp only [UInt64.le_iff_toNat_le]
  split <;> rfl

theorem toNat_min (a b : UInt64) : (min a b).toNat = min a.toNat b.toNat := by
  rw [Nat.min_def]
  show (if a ≤ b then a else b).toNat = _
  simp only [UInt64.le_iff_toNat_le]
  split <;> rfl

end Word

end ModalInput
