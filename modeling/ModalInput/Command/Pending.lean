import ModalInput.Command.Table
import ModalInput.Text.Decimal

/-!
# The pending command

What has been typed of a Normal-mode command that is not complete: the digits of its count, a
leader, and the leader's argument.  The count never exceeds a limit, and no more digits are kept
than the limit has.
-/

namespace ModalInput

structure Pending where
  digits : List Char
  leader : Option Leader
  argument : Option Char
  deriving DecidableEq, Repr

namespace Pending

def empty : Pending := ⟨[], none, none⟩

/-! ## Counts -/

/-- A zero starts no count: alone it is a command. -/
def accepts (p : Pending) (c : Char) : Bool := c.isDigit && !(p.digits.isEmpty && c == '0')

def push (p : Pending) (limit : Nat) (c : Char) : Pending :=
  if p.digits.length < Text.width (max limit 1) then { p with digits := p.digits ++ [c] } else p

/-- Pushes each digit of a text that is acceptable when its turn comes. -/
def pushAccepted (p : Pending) (limit : Nat) (cs : List Char) : Pending :=
  cs.foldl (fun p c => if p.accepts c then p.push limit c else p) p

def hasCount (p : Pending) : Bool := !p.digits.isEmpty

/-- At least one, also under a limit of zero. -/
def count (p : Pending) (limit : Nat) : Nat :=
  if p.hasCount then max 1 (min (Text.value p.digits) limit) else 1

/-! ## Display -/

def isEmpty (p : Pending) : Bool := p.digits.isEmpty && p.leader.isNone && p.argument.isNone

/-- The count and the leader as typed; a count without a leader follows the label of Normal mode. -/
def text? (p : Pending) : Option String :=
  match p.leader with
  | some l => some (String.ofList (p.digits ++ [l.letter]))
  | none => if p.hasCount then some ("NORMAL " ++ String.ofList p.digits) else none

/-! ## Lemmas -/

theorem one_le_count (p : Pending) (limit : Nat) : 1 ≤ p.count limit := by
  unfold count; split <;> omega

theorem count_le (p : Pending) (limit : Nat) : p.count limit ≤ max 1 limit := by
  unfold count; split <;> omega

end Pending

end ModalInput
