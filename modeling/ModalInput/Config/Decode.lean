import ModalInput.Config.Settings
import ModalInput.Toml.Document

/-!
# Settings from a table

Each setting is taken from the table if it is there and has its default if it is not; a setting of
the wrong kind is refused, and keys that name no setting are ignored.  A section may also be an
array that gives its settings by position, and a date-time is a section without settings.

    Theme.ofValue? (.table []) = some .default      (Theme.ofValue?_empty)
-/

namespace ModalInput

open Toml (Value Table)

/-! ## Sections -/

/-- The settings of a section, by name or by position. -/
inductive Fields where
  | named (t : Table)
  | positional (items : List Value)

def Fields.ofValue? : Value → Option Fields
  | .table t => some (.named t)
  | .array items => some (.positional items)
  | .dateTime _ => some (.named [])
  | _ => none

def Fields.get? (f : Fields) (position : Nat) (name : String) : Option Value :=
  match f with
  | .named t => t.lookup name
  | .positional items => items[position]?

/-! ## Settings -/

/-- A setting that is present has to read; one that is absent has its default. -/
def orDefault {α : Type} (read : Value → Option α) (default : α) (v : Option Value) : Option α :=
  match v with
  | some v => read v
  | none => some default

def readString : Value → Option String
  | .string s => some s
  | _ => none

/-- A string of exactly one character. -/
def readChar : Value → Option Char
  | .string s =>
    match s.toList with
    | [c] => some c
    | _ => none
  | _ => none

def readCount : Value → Option Nat
  | .integer n => if 0 ≤ n then some n.toNat else none
  | _ => none

/-- A style has no defaults of its own: both colours are due. -/
def Style.ofValue? (v : Value) : Option Style := do
  let f ← Fields.ofValue? v
  let background ← (f.get? 0 "background").bind readString
  let foreground ← (f.get? 1 "foreground").bind readString
  pure ⟨background, foreground⟩

def Theme.ofValue? (v : Value) : Option Theme := do
  let f ← Fields.ofValue? v
  let style (position : Nat) (name : String) (default : Style) : Option Style :=
    orDefault Style.ofValue? default (f.get? position name)
  let normal ← style 0 "normal" .defaultNormal
  let insert ← style 1 "insert" .defaultInsert
  let visual ← style 2 "visual" .defaultVisual
  let search ← style 3 "search" .defaultSearch
  let pending ← style 4 "pending" .defaultPending
  pure ⟨normal, insert, visual, search, pending⟩

def KeySettings.ofValue? (v : Value) : Option KeySettings := do
  let f ← Fields.ofValue? v
  let oneShot ← orDefault readChar KeySettings.defaultOneShot (f.get? 0 "temporary_normal")
  let countLimit ← orDefault readCount KeySettings.defaultCountLimit (f.get? 1 "count_limit")
  pure ⟨oneShot, countLimit⟩

def Config.ofTable? (t : Table) : Option Config := do
  let theme ← orDefault Theme.ofValue? Theme.default (t.lookup "indicator")
  let keys ← orDefault KeySettings.ofValue? KeySettings.default (t.lookup "keys")
  pure ⟨theme, keys⟩

def Config.parse? (s : String) : Option Config := (Toml.parse s).bind Config.ofTable?

/-! ## Lemmas -/

/-- The defaults of the single styles make up the default theme. -/
theorem Theme.ofValue?_empty : Theme.ofValue? (.table []) = some .default := rfl

theorem KeySettings.ofValue?_empty : KeySettings.ofValue? (.table []) = some .default := rfl

end ModalInput
