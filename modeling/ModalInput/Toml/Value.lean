/-!
# TOML values

A table keeps its entries in the order in which they were first written.  A float is kept as the
decimal that was written, since no binary format is needed to read it.
-/

namespace ModalInput.Toml

/-! ## Numbers and times -/

/-- `mantissa · 10 ^ exponent`, or one of the two values that are no numbers of that form. -/
inductive Magnitude where
  | decimal (mantissa : Nat) (exponent : Int)
  | infinity
  | nan
  deriving DecidableEq, Repr

structure Real where
  negative : Bool
  magnitude : Magnitude
  deriving DecidableEq, Repr

structure Date where
  year : Nat
  month : Nat
  day : Nat
  deriving DecidableEq, Repr

structure Time where
  hour : Nat
  minute : Nat
  second : Nat
  /-- The digits behind the point. -/
  fraction : List Char
  deriving DecidableEq, Repr

/-- A date, a time of day, or both; with both there may be an offset in minutes. -/
structure DateTime where
  date : Option Date
  time : Option Time
  offset : Option Int
  deriving DecidableEq, Repr

/-! ## Values -/

inductive Value where
  | string (s : String)
  | integer (n : Int)
  | real (r : Real)
  | boolean (b : Bool)
  | dateTime (d : DateTime)
  | array (items : List Value)
  | table (entries : List (String × Value))

abbrev Table := List (String × Value)

/-! ## Equality -/

mutual

def Value.same : Value → Value → Bool
  | .string s, .string t => s == t
  | .integer m, .integer n => m == n
  | .real x, .real y => x == y
  | .boolean a, .boolean b => a == b
  | .dateTime d, .dateTime e => d == e
  | .array vs, .array ws => sameItems vs ws
  | .table es, .table fs => sameEntries es fs
  | _, _ => false

def sameItems : List Value → List Value → Bool
  | [], [] => true
  | v :: vs, w :: ws => v.same w && sameItems vs ws
  | _, _ => false

def sameEntries : Table → Table → Bool
  | [], [] => true
  | (k, v) :: es, (l, w) :: fs => k == l && v.same w && sameEntries es fs
  | _, _ => false

end

mutual

theorem Value.same_iff : (v w : Value) → (v.same w = true ↔ v = w)
  | .array vs, w => by cases w <;> simp [Value.same, sameItems_iff vs]
  | .table es, w => by cases w <;> simp [Value.same, sameEntries_iff es]
  | .string _, w | .integer _, w | .real _, w | .boolean _, w | .dateTime _, w => by
    cases w <;> simp [Value.same]

theorem sameItems_iff : (vs ws : List Value) → (sameItems vs ws = true ↔ vs = ws)
  | [], ws => by cases ws <;> simp [sameItems]
  | v :: vs, ws => by cases ws <;> simp [sameItems, Value.same_iff v, sameItems_iff vs]

theorem sameEntries_iff : (es fs : Table) → (sameEntries es fs = true ↔ es = fs)
  | [], fs => by cases fs <;> simp [sameEntries]
  | (k, v) :: es, fs => by
    cases fs with
    | nil => simp [sameEntries]
    | cons f fs => simp [sameEntries, Value.same_iff v, sameEntries_iff es, Prod.ext_iff]

end

/-- The derived instances do not reach through lists. -/
instance : DecidableEq Value := fun v w => decidable_of_iff _ (Value.same_iff v w)

end ModalInput.Toml
