import Mathlib.Data.List.Basic
import ModalInput.Config.Decode
import ModalInput.Proofs.TomlIntegers

/-!
# Settings over the defaults

A document changes the defaults setting by setting.  Whether it is accepted is a matter of the
settings that it has, each looked at by itself, and a setting that it does not have keeps its
default whatever else is there.  Keys that name no setting are not looked at, and a section without
settings is as good as none.

    Plain t → (Config.ofTable? t = some c ↔ Sectioned t ∧ Overlays t c)      (ofTable?_eq_some_iff)
    SameSettings t u → Config.ofTable? t = Config.ofTable? u                 (ofTable?_congr)
-/

namespace ModalInput

open Toml (Value Table)

/-! ## Settings of a table -/

/-- The styles of a theme, with the names under which a document has them. -/
def Theme.states : List (String × (Theme → Style)) :=
  [("normal", Theme.normal), ("insert", Theme.insert), ("visual", Theme.visual),
    ("search", Theme.search), ("pending", Theme.pending)]

namespace Config

/-- The entries of a section; a section that is absent has none. -/
def entriesOf : Option Value → Table
  | some (.table entries) => entries
  | _ => []

/-- The value that a table has for a setting in one of its sections. -/
def given (t : Table) (part name : String) : Option Value :=
  (entriesOf (t.lookup part)).lookup name

/-- Neither an array, whose items would be settings by position, nor a date-time. -/
def isPlain : Value → Bool
  | .array _ => false
  | .dateTime _ => false
  | _ => true

/-- The sections and the styles, where present. -/
structure Plain (t : Table) : Prop where
  sections : ∀ part ∈ ["indicator", "keys"], (t.lookup part).all isPlain
  styles : ∀ s ∈ Theme.states, (given t "indicator" s.1).all isPlain

/-- Each section is absent or a table. -/
def Sectioned (t : Table) : Prop :=
  ∀ part ∈ ["indicator", "keys"], ∀ v, t.lookup part = some v → ∃ entries, v = .table entries

/-! ### Values of settings -/

def StyleWritten (st : Style) (v : Value) : Prop :=
  ∃ entries, v = .table entries ∧ entries.lookup "background" = some (.string st.background) ∧
    entries.lookup "foreground" = some (.string st.foreground)

def CharWritten (c : Char) (v : Value) : Prop := v = .string (String.singleton c)

def CountWritten (n : Nat) (v : Value) : Prop := v = .integer n

/-- A setting is what is written for it, or its default if nothing is. -/
def Taken {α : Type} (written : α → Value → Prop) (default : α) : Option Value → α → Prop
  | some v, a => written a v
  | none, a => a = default

/-- Each of the seven settings by itself. -/
structure Overlays (t : Table) (c : Config) : Prop where
  styles : ∀ s ∈ Theme.states,
    Taken StyleWritten (s.2 Config.default.theme) (given t "indicator" s.1) (s.2 c.theme)
  oneShot : Taken CharWritten Config.default.keys.oneShot (given t "keys" "temporary_normal")
    c.keys.oneShot
  countLimit : Taken CountWritten Config.default.keys.countLimit (given t "keys" "count_limit")
    c.keys.countLimit

/-- What a document has to keep to. -/
structure Acceptable (t : Table) : Prop where
  sections : Sectioned t
  styles : ∀ s ∈ Theme.states, ∀ v, given t "indicator" s.1 = some v → ∃ st, StyleWritten st v
  oneShot : ∀ v, given t "keys" "temporary_normal" = some v → ∃ c, CharWritten c v
  countLimit : ∀ v, given t "keys" "count_limit" = some v →
    ∃ n, n ≤ Nat.pow 2 63 - 1 ∧ CountWritten n v

/-! ### Tables with the same settings -/

/-- Tables that have the same under the names given; other values are the same if they are equal. -/
inductive SameUnder (names : List String) (same : Value → Value → Prop) : Value → Value → Prop
  | refl (v : Value) : SameUnder names same v v
  | table {t u : Table} (h : ∀ k ∈ names, Option.Rel same (t.lookup k) (u.lookup k)) :
    SameUnder names same (.table t) (.table u)

/-- The same for all settings, whatever other keys are there and in whatever order.  A section that
is absent counts as an empty one. -/
structure SameSettings (t u : Table) : Prop where
  indicator : SameUnder (Theme.states.map Prod.fst) (SameUnder ["background", "foreground"] Eq)
    ((t.lookup "indicator").getD (.table [])) ((u.lookup "indicator").getD (.table []))
  keys : SameUnder ["temporary_normal", "count_limit"] Eq
    ((t.lookup "keys").getD (.table [])) ((u.lookup "keys").getD (.table []))

/-! ## Single settings -/

theorem readString_eq_some_iff (v : Value) (s : String) :
    readString v = some s ↔ v = .string s := by
  cases v <;> simp [readString]

theorem readChar_eq_some_iff (v : Value) (c : Char) : readChar v = some c ↔ CharWritten c v := by
  unfold CharWritten
  cases v with
  | string s =>
    have hlist : s.toList = [c] ↔ s = String.singleton c := by
      rw [← String.toList_inj, String.toList_singleton]
    rw [Value.string.injEq, ← hlist]
    unfold readChar
    dsimp only
    split
    · next d hd => rw [hd, Option.some_inj, List.singleton_inj]
    · next hne =>
      constructor
      · intro h
        cases h
      · intro h
        exact absurd h (hne c)
  | _ => simp [readChar]

theorem readCount_eq_some_iff (v : Value) (n : Nat) : readCount v = some n ↔ CountWritten n v := by
  unfold CountWritten
  cases v with
  | integer m =>
    rw [Value.integer.injEq]
    show (if 0 ≤ m then some m.toNat else none) = some n ↔ m = n
    split <;> simp <;> omega
  | _ => simp [readCount]

theorem style_eq_some_iff (v : Value) (hv : isPlain v) (st : Style) :
    Style.ofValue? v = some st ↔ StyleWritten st v := by
  obtain ⟨background, foreground⟩ := st
  cases v with
  | table entries =>
    have hread (name s : String) : (entries.lookup name).bind readString = some s ↔
        entries.lookup name = some (.string s) := by
      simp [Option.bind_eq_some_iff, readString_eq_some_iff]
    simp [Style.ofValue?, Fields.ofValue?, Fields.get?, StyleWritten, Option.bind_eq_some_iff,
      hread]
  | array _ => cases hv
  | dateTime _ => cases hv
  | _ => simp [Style.ofValue?, Fields.ofValue?, StyleWritten]

section
variable {α : Type} {read : Value → Option α} {written : α → Value → Prop} {default : α}
  {v : Option Value}

theorem orDefault_eq_some_iff (h : ∀ w, v = some w → ∀ a, read w = some a ↔ written a w) (a : α) :
    orDefault read default v = some a ↔ Taken written default v a := by
  cases v with
  | none =>
    show some default = some a ↔ a = default
    rw [Option.some_inj, eq_comm]
  | some w => exact h w rfl a

theorem exists_taken (d : α) (h : ∀ w, v = some w → ∃ a, written a w) :
    ∃ a, Taken written d v a := by
  cases v with
  | none => exact ⟨d, rfl⟩
  | some w => exact h w rfl

theorem Taken.of_some {a : α} (h : Taken written default v a) {w : Value} (hv : v = some w) :
    written a w := by
  subst hv
  exact h

/-! ## Sections -/

theorem fields_eq_none (w : Value) (hw : isPlain w) (htable : ∀ entries, w ≠ .table entries) :
    Fields.ofValue? w = none := by
  cases w with
  | table entries => exact absurd rfl (htable entries)
  | array _ => cases hw
  | dateTime _ => cases hw
  | _ => rfl

theorem orDefault_eq_read (hempty : read (.table []) = some default) (v : Option Value) :
    orDefault read default v = read (v.getD (.table [])) := by
  cases v with
  | none => exact hempty.symm
  | some v => rfl

/-- A plain section is read as a table, and an absent one as an empty table. -/
theorem section_eq_some_iff {f : Fields → Option α} (hempty : read (.table []) = some default)
    (hread : ∀ w, read w = (Fields.ofValue? w).bind f) (hv : v.all isPlain) (a : α) :
    orDefault read default v = some a ↔
      (∀ w, v = some w → ∃ entries, w = .table entries) ∧ read (.table (entriesOf v)) = some a := by
  rw [orDefault_eq_read hempty]
  cases v with
  | none => simp [entriesOf]
  | some w =>
    by_cases htable : ∃ entries, w = .table entries
    · obtain ⟨entries, rfl⟩ := htable
      simp [entriesOf]
    · have hnone : read w = none := by
        rw [hread, fields_eq_none w hv fun entries h => htable ⟨entries, h⟩]
        rfl
      simp [htable, hnone]

end

theorem theme_table_eq_some_iff (entries : Table) (th : Theme) :
    Theme.ofValue? (.table entries) = some th ↔ ∀ s ∈ Theme.states,
      orDefault Style.ofValue? (s.2 Theme.default) (entries.lookup s.1) = some (s.2 th) := by
  obtain ⟨normal, insert, visual, search, pending⟩ := th
  simp only [Theme.states, List.forall_mem_cons]
  constructor
  · intro h
    obtain ⟨_, hnormal, h⟩ := Option.bind_eq_some_iff.1 h
    obtain ⟨_, hinsert, h⟩ := Option.bind_eq_some_iff.1 h
    obtain ⟨_, hvisual, h⟩ := Option.bind_eq_some_iff.1 h
    obtain ⟨_, hsearch, h⟩ := Option.bind_eq_some_iff.1 h
    obtain ⟨_, hpending, h⟩ := Option.bind_eq_some_iff.1 h
    cases h
    exact ⟨hnormal, hinsert, hvisual, hsearch, hpending, List.forall_mem_nil _⟩
  · rintro ⟨hnormal, hinsert, hvisual, hsearch, hpending, -⟩
    refine Option.bind_eq_some_iff.2 ⟨normal, hnormal, ?_⟩
    refine Option.bind_eq_some_iff.2 ⟨insert, hinsert, ?_⟩
    refine Option.bind_eq_some_iff.2 ⟨visual, hvisual, ?_⟩
    refine Option.bind_eq_some_iff.2 ⟨search, hsearch, ?_⟩
    exact Option.bind_eq_some_iff.2 ⟨pending, hpending, rfl⟩

theorem keys_table_eq_some_iff (entries : Table) (k : KeySettings) :
    KeySettings.ofValue? (.table entries) = some k ↔
      orDefault readChar KeySettings.default.oneShot (entries.lookup "temporary_normal") =
          some k.oneShot ∧
        orDefault readCount KeySettings.default.countLimit (entries.lookup "count_limit") =
          some k.countLimit := by
  obtain ⟨oneShot, countLimit⟩ := k
  simp [KeySettings.ofValue?, Fields.ofValue?, Fields.get?, Option.bind_eq_some_iff,
    KeySettings.default]

theorem ofTable?_eq_some_iff_sections (t : Table) (c : Config) :
    ofTable? t = some c ↔
      orDefault Theme.ofValue? Theme.default (t.lookup "indicator") = some c.theme ∧
        orDefault KeySettings.ofValue? KeySettings.default (t.lookup "keys") = some c.keys := by
  obtain ⟨theme, keys⟩ := c
  simp [ofTable?, Option.bind_eq_some_iff]

theorem theme_eq_some_iff {t : Table} (h : Plain t) (th : Theme) :
    orDefault Theme.ofValue? Theme.default (t.lookup "indicator") = some th ↔
      (∀ w, t.lookup "indicator" = some w → ∃ entries, w = .table entries) ∧
        ∀ s ∈ Theme.states,
          Taken StyleWritten (s.2 Theme.default) (given t "indicator" s.1) (s.2 th) := by
  have hplain : (t.lookup "indicator").all isPlain := h.sections _ (by simp)
  rw [section_eq_some_iff Theme.ofValue?_empty (fun _ => rfl) hplain, theme_table_eq_some_iff]
  refine and_congr_right fun _ => forall₂_congr fun s hs => orDefault_eq_some_iff ?_ _
  intro w hw st
  have hw' := h.styles s hs
  rw [given, hw] at hw'
  exact style_eq_some_iff w hw' st

theorem keys_eq_some_iff {t : Table} (h : Plain t) (k : KeySettings) :
    orDefault KeySettings.ofValue? KeySettings.default (t.lookup "keys") = some k ↔
      (∀ w, t.lookup "keys" = some w → ∃ entries, w = .table entries) ∧
        Taken CharWritten KeySettings.default.oneShot (given t "keys" "temporary_normal")
            k.oneShot ∧
          Taken CountWritten KeySettings.default.countLimit (given t "keys" "count_limit")
            k.countLimit := by
  have hplain : (t.lookup "keys").all isPlain := h.sections _ (by simp)
  rw [section_eq_some_iff KeySettings.ofValue?_empty (fun _ => rfl) hplain, keys_table_eq_some_iff]
  refine and_congr_right fun _ => and_congr ?_ ?_
  · exact orDefault_eq_some_iff (fun w _ c => readChar_eq_some_iff w c) _
  · exact orDefault_eq_some_iff (fun w _ n => readCount_eq_some_iff w n) _

theorem ofTable?_eq_some_iff {t : Table} (h : Plain t) (c : Config) :
    ofTable? t = some c ↔ Sectioned t ∧ Overlays t c := by
  rw [ofTable?_eq_some_iff_sections, theme_eq_some_iff h, keys_eq_some_iff h]
  constructor
  · rintro ⟨⟨hindicator, hstyles⟩, hkeys, hchar, hcount⟩
    refine ⟨?_, hstyles, hchar, hcount⟩
    exact List.forall_mem_cons.2 ⟨hindicator, List.forall_mem_singleton.2 hkeys⟩
  · rintro ⟨hsections, hstyles, hchar, hcount⟩
    exact ⟨⟨hsections _ (by simp), hstyles⟩, hsections _ (by simp), hchar, hcount⟩

/-! ## Acceptance -/

/-- A theme can be put together from any styles. -/
theorem exists_theme {P : String × (Theme → Style) → Style → Prop}
    (h : ∀ s ∈ Theme.states, ∃ st, P s st) : ∃ th : Theme, ∀ s ∈ Theme.states, P s (s.2 th) := by
  simp only [Theme.states, List.forall_mem_cons] at h ⊢
  obtain ⟨⟨normal, hn⟩, ⟨insert, hi⟩, ⟨visual, hv⟩, ⟨search, hs⟩, ⟨pending, hp⟩, -⟩ := h
  exact ⟨⟨normal, insert, visual, search, pending⟩, hn, hi, hv, hs, hp, List.forall_mem_nil _⟩

theorem Acceptable.exists_overlays {t : Table} (h : Acceptable t) : ∃ c, Overlays t c := by
  have hstyles : ∀ s ∈ Theme.states, ∃ st,
      Taken StyleWritten (s.2 Config.default.theme) (given t "indicator" s.1) st :=
    fun s hs => exists_taken _ (h.styles s hs)
  obtain ⟨theme, htheme⟩ := exists_theme hstyles
  obtain ⟨oneShot, hchar⟩ := exists_taken Config.default.keys.oneShot h.oneShot
  have hwritten : ∀ v, given t "keys" "count_limit" = some v → ∃ n, CountWritten n v := by
    intro v hv
    obtain ⟨n, -, hn⟩ := h.countLimit v hv
    exact ⟨n, hn⟩
  obtain ⟨countLimit, hcount⟩ := exists_taken Config.default.keys.countLimit hwritten
  exact ⟨⟨theme, oneShot, countLimit⟩, htheme, hchar, hcount⟩

theorem inRange_given {t : Table} (h : ∀ e ∈ t, e.2.InRange) {part name : String} {v : Value}
    (hv : given t part name = some v) : v.InRange := by
  have hmem : (name, v) ∈ entriesOf (t.lookup part) := Toml.mem_of_lookup hv
  unfold entriesOf at hmem
  split at hmem
  · rename_i entries hpart
    cases h _ (Toml.mem_of_lookup hpart) with
    | table hentries => exact hentries _ hmem
  · cases hmem

/-- The settings that were taken are as they have to be; that the limit is no more than it may be,
is due to the range of integers. -/
theorem Overlays.acceptable {t : Table} {c : Config} (h : Overlays t c) (hsections : Sectioned t)
    (hrange : ∀ e ∈ t, e.2.InRange) : Acceptable t := by
  refine ⟨hsections, fun s hs v hv => ⟨_, (h.styles s hs).of_some hv⟩,
    fun v hv => ⟨_, h.oneShot.of_some hv⟩, fun v hv => ⟨_, ?_, h.countLimit.of_some hv⟩⟩
  have hwritten : v = .integer c.keys.countLimit := h.countLimit.of_some hv
  have hv' := inRange_given hrange hv
  rw [hwritten] at hv'
  cases hv' with
  | integer hn =>
    have hle : (c.keys.countLimit : Int) ≤ 9223372036854775807 := by
      simpa [Toml.inRange] using (Bool.and_eq_true_iff.1 hn).2
    have hpow : Nat.pow 2 63 - 1 = 9223372036854775807 := rfl
    omega

/-! ## Keys that are not looked at -/

theorem lookup_filter {p : String × Value → Bool} {k : String} (hp : ∀ v, p (k, v) = true)
    (t : Table) : (t.filter p).lookup k = t.lookup k := by
  induction t with
  | nil => rfl
  | cons e t ih =>
    obtain ⟨k', v⟩ := e
    by_cases hk : k = k'
    · subst hk
      rw [List.filter_cons_of_pos (hp v), List.lookup_cons_self, List.lookup_cons_self]
    · have hne : (k == k') = false := beq_false_of_ne hk
      rw [List.filter_cons]
      split
      · rw [List.lookup_cons, List.lookup_cons, ih]
      · rw [List.lookup_cons, hne, ih]

/-- Entries under other names may be added, removed and moved. -/
theorem SameUnder.of_filter {names : List String} {same : Value → Value → Prop}
    (hrefl : ∀ v, same v v) {t u : Table}
    (h : (t.filter fun e => names.contains e.1) = u.filter fun e => names.contains e.1) :
    SameUnder names same (.table t) (.table u) := by
  refine .table fun k hk => ?_
  have hp (_ : Value) : names.contains k = true := List.contains_iff_mem.2 hk
  rw [← lookup_filter (p := fun e => names.contains e.1) hp t, h, lookup_filter hp u]
  cases u.lookup k with
  | none => exact .none
  | some v => exact .some (hrefl v)

theorem orDefault_congr {α : Type} {read : Value → Option α} {default : α}
    {same : Value → Value → Prop} {v w : Option Value} (hread : ∀ v w, same v w → read v = read w)
    (h : Option.Rel same v w) : orDefault read default v = orDefault read default w := by
  cases h with
  | some h => exact hread _ _ h
  | none => rfl

theorem eq_of_rel {v w : Option Value} (h : Option.Rel Eq v w) : v = w := by
  cases h with
  | some h => rw [h]
  | none => rfl

theorem style_congr (v w : Value) (h : SameUnder ["background", "foreground"] Eq v w) :
    Style.ofValue? v = Style.ofValue? w := by
  cases h with
  | refl => rfl
  | table h =>
    have hbackground := eq_of_rel (h "background" (by simp))
    have hforeground := eq_of_rel (h "foreground" (by simp))
    simp [Style.ofValue?, Fields.ofValue?, Fields.get?, hbackground, hforeground]

theorem theme_congr (v w : Value) (h : SameUnder (Theme.states.map Prod.fst)
    (SameUnder ["background", "foreground"] Eq) v w) : Theme.ofValue? v = Theme.ofValue? w := by
  cases h with
  | refl => rfl
  | table h =>
    refine Option.ext fun th => ?_
    rw [theme_table_eq_some_iff, theme_table_eq_some_iff]
    refine forall₂_congr fun s hs => ?_
    rw [orDefault_congr style_congr (h s.1 (List.mem_map_of_mem hs))]

theorem keys_congr (v w : Value) (h : SameUnder ["temporary_normal", "count_limit"] Eq v w) :
    KeySettings.ofValue? v = KeySettings.ofValue? w := by
  cases h with
  | refl => rfl
  | table h =>
    refine Option.ext fun k => ?_
    rw [keys_table_eq_some_iff, keys_table_eq_some_iff,
      eq_of_rel (h "temporary_normal" (by simp)), eq_of_rel (h "count_limit" (by simp))]

theorem ofTable?_congr {t u : Table} (h : SameSettings t u) : ofTable? t = ofTable? u := by
  refine Option.ext fun c => ?_
  rw [ofTable?_eq_some_iff_sections, ofTable?_eq_some_iff_sections,
    orDefault_eq_read Theme.ofValue?_empty, orDefault_eq_read Theme.ofValue?_empty, orDefault_eq_read KeySettings.ofValue?_empty,
    orDefault_eq_read KeySettings.ofValue?_empty, theme_congr _ _ h.indicator, keys_congr _ _ h.keys]

/-! ## Documents -/

theorem parse?_eq {s : String} {t : Table} (h : Toml.parse s = some t) :
    parse? s = ofTable? t := by
  unfold parse?
  rw [h]
  rfl

/-- **Settings over the defaults.**  A document whose sections and styles are plain is accepted if
and only if each setting that it has is as it has to be.  Each of the seven settings is then the one
that the document has, or the default if it has none.  Documents that have the same settings give
the same, whatever keys they have beside them. -/
theorem parse?_overlays (s : String) (t : Table) (hparse : Toml.parse s = some t)
    (hplain : Plain t) :
    ((∃ c, parse? s = some c) ↔ Acceptable t) ∧
      (∀ c, parse? s = some c → Overlays t c) ∧
      ∀ (s' : String) (t' : Table), Toml.parse s' = some t' → SameSettings t t' →
        parse? s' = parse? s := by
  rw [parse?_eq hparse]
  refine ⟨⟨?_, ?_⟩, fun c hc => ((ofTable?_eq_some_iff hplain c).1 hc).2, ?_⟩
  · rintro ⟨c, hc⟩
    obtain ⟨hsections, hoverlays⟩ := (ofTable?_eq_some_iff hplain c).1 hc
    exact hoverlays.acceptable hsections (Toml.inRange_of_parse hparse)
  · intro h
    obtain ⟨c, hc⟩ := h.exists_overlays
    exact ⟨c, (ofTable?_eq_some_iff hplain c).2 ⟨h.sections, hc⟩⟩
  · intro s' t' hparse' hsame
    rw [parse?_eq hparse', ofTable?_congr hsame]

/-- One style is given; other keys and an empty section beside it change nothing. -/
theorem parse?_overlays_style :
    let s := "[indicator.visual]\nbackground=\"\"\nforeground=\"x\""
    let s' := "[indicator.visual]\nbackground=\"\"\nsize=1\nforeground=\"x\"\n[keys]"
    let visual : Value := .table [("background", .string ""), ("foreground", .string "x")]
    let t : Table := [("indicator", .table [("visual", visual)])]
    let c : Config := ⟨{ Theme.default with visual := ⟨"", "x"⟩ }, .default⟩
    Toml.parse s = some t ∧ Plain t ∧ Acceptable t ∧ Overlays t c ∧
      parse? s = some c ∧ parse? s' = some c := by
  intro s s' visual t c
  let visual' : Value :=
    .table [("background", .string ""), ("size", .integer 1), ("foreground", .string "x")]
  let t' : Table :=
    [("indicator", .table [("visual", visual')]), ("keys", .table [])]
  have hparse : Toml.parse s = some t := by decide +kernel
  have hparse' : Toml.parse s' = some t' := by decide +kernel
  have hplain : Plain t := ⟨by decide, by decide⟩
  have hvisual : SameUnder ["background", "foreground"] Eq visual visual' :=
    .of_filter (fun _ => rfl) rfl
  have hsame : SameSettings t t' := by
    refine ⟨.table fun k hk => ?_, .refl _⟩
    by_cases hk : k = "visual"
    · subst hk
      exact .some hvisual
    · have hne : (k == "visual") = false := beq_false_of_ne hk
      rw [List.lookup_cons, hne, List.lookup_cons, hne]
      exact .none
  have hc : parse? s = some c := by decide +kernel
  obtain ⟨haccept, hoverlays, hothers⟩ := parse?_overlays s t hparse hplain
  have hc' : parse? s' = some c := (hothers s' t' hparse' hsame).trans hc
  exact ⟨hparse, hplain, haccept.1 ⟨c, hc⟩, hoverlays c hc, hc, hc'⟩

end Config

end ModalInput
