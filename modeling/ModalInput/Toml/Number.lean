import ModalInput.Toml.Lexical
import ModalInput.Toml.Value
import ModalInput.Text.Decimal

/-!
# TOML numbers

Integers have 64 bits with a sign, in any of four bases.  A float has a fraction, an exponent or
both; one that would round to plus infinity in double precision is refused.
-/

namespace ModalInput.Toml

open Reader

/-! ## Digits -/

/-- Digits with single underscores between them, which are dropped. -/
def digitRun (isDigit : Char → Bool) : Reader (List Char) := do
  let d ← satisfy isDigit
  let ds ← many (satisfy isDigit <|> (do char '_'; satisfy isDigit))
  pure (d :: ds)

/-- Without leading zeros. -/
def wholeDigits : Reader (List Char) :=
  (do char '0'; pure ['0']) <|> digitRun Char.isDigit

/-- Whether a minus stands there; a plus may. -/
def sign : Reader Bool :=
  (do char '-'; pure true) <|> (do char '+'; pure false) <|> pure false

/-! ## Integers -/

def inRange (n : Int) : Bool := -9223372036854775808 ≤ n && n ≤ 9223372036854775807

def ranged (n : Int) : Reader Int := if inRange n then pure n else failure

def decimalInteger : Reader Int := do
  let negative ← sign
  let ds ← wholeDigits
  ranged (if negative then -(valueIn 10 ds : Int) else valueIn 10 ds)

def basedInteger (mark : String) (base : Nat) (isDigit : Char → Bool) : Reader Int := do
  word mark
  let ds ← digitRun isDigit
  ranged (valueIn base ds)

def integer : Reader Int :=
  basedInteger "0x" 16 isHexDigit <|>
  basedInteger "0o" 8 (fun c => '0' ≤ c && c ≤ '7') <|>
  basedInteger "0b" 2 (fun c => c == '0' || c == '1') <|>
  decimalInteger

/-! ## Floats -/

def fraction : Reader (List Char) := do
  char '.'
  digitRun Char.isDigit

def exponent : Reader Int := do
  char 'e' <|> char 'E'
  let negative ← sign
  let ds ← digitRun Char.isDigit
  pure (if negative then -(valueIn 10 ds : Int) else valueIn 10 ds)

/-- Half a step above the largest double, from where on a number rounds to infinity. -/
def roundsToInfinity : Nat := (Nat.pow 2 54 - 1) * Nat.pow 2 970

/-- The place of the leading digit settles all but numbers near the bound, so that no power of ten
larger than the number itself is worked out. -/
def overflows (mantissa : Nat) (exponent : Int) : Bool :=
  let places : Int := Text.width mantissa + exponent
  if mantissa = 0 ∨ places < 300 then false
  else if 320 < places then true
  else if 0 ≤ exponent then roundsToInfinity ≤ mantissa * Nat.pow 10 exponent.toNat
  else roundsToInfinity * Nat.pow 10 (-exponent).toNat ≤ mantissa

def decimalFloat : Reader Real := do
  let negative ← sign
  let whole ← wholeDigits
  let (places, exp) ←
    (do let e ← exponent; pure ([], e)) <|>
    (do let ds ← fraction; let e ← exponent <|> pure 0; pure (ds, e))
  let mantissa := valueIn 10 (whole ++ places)
  let exp := exp - places.length
  if !negative && overflows mantissa exp then failure
  else pure ⟨negative, .decimal mantissa exp⟩

def specialFloat : Reader Real := do
  let negative ← sign
  (do word "inf"; pure ⟨negative, .infinity⟩) <|> (do word "nan"; pure ⟨negative, .nan⟩)

def float : Reader Real := decimalFloat <|> specialFloat

end ModalInput.Toml
