import ModalInput.Toml.Lexical
import ModalInput.Toml.Value

/-!
# TOML dates and times

A date of the Gregorian calendar, a time of day, or both with a blank or a `T` between them.  The
second 60 is a leap second.
-/

namespace ModalInput.Toml

open Reader

def isLeapYear (y : Nat) : Bool := y % 4 == 0 && (y % 100 != 0 || y % 400 == 0)

def daysInMonth (y m : Nat) : Nat :=
  if m = 2 then (if isLeapYear y then 29 else 28)
  else if m ∈ [4, 6, 9, 11] then 30
  else 31

/-- A number of exactly `n` digits, from `low` to `high`. -/
def numberIn (n low high : Nat) : Reader Nat := do
  let ds ← exactly n (satisfy Char.isDigit)
  let v := valueIn 10 ds
  if low ≤ v ∧ v ≤ high then pure v else failure

def date : Reader Date := do
  let year ← numberIn 4 0 9999
  char '-'
  let month ← numberIn 2 1 12
  char '-'
  let day ← numberIn 2 1 (daysInMonth year month)
  pure ⟨year, month, day⟩

def time : Reader Time := do
  let hour ← numberIn 2 0 23
  char ':'
  let minute ← numberIn 2 0 59
  char ':'
  let second ← numberIn 2 0 60
  let fraction ← (do char '.'; takeWhile1 Char.isDigit) <|> pure []
  pure ⟨hour, minute, second, fraction⟩

/-- Minutes east of the zero meridian. -/
def offset : Reader Int :=
  (do char 'Z' <|> char 'z'; pure 0) <|>
  (do
    let west ← (do char '+'; pure false) <|> (do char '-'; pure true)
    let hour ← numberIn 2 0 23
    char ':'
    let minute ← numberIn 2 0 59
    let minutes : Int := hour * 60 + minute
    pure (if west then -minutes else minutes))

def timeOfDate : Reader (Time × Option Int) := do
  char 'T' <|> char 't' <|> char ' '
  let t ← time
  let o ← optional offset
  pure (t, o)

def dateTime : Reader DateTime :=
  (do
    let d ← date
    match ← optional timeOfDate with
    | some (t, o) => pure ⟨some d, some t, o⟩
    | none => pure ⟨some d, none, none⟩) <|>
  (do
    let t ← time
    pure ⟨none, some t, none⟩)

end ModalInput.Toml
