import Mathlib.Data.List.Forall2
import ModalInput.Text.Json

/-!
# JSON text

A string in JSON has an escape for the quote, the backslash and the control characters, and for no
other character.  The text of a value tells where it ends, and it tells the value from every other.

    v.render.toList ++ r = w.render.toList ++ q → v = w ∧ r = q                (render_append_inj)
-/

namespace ModalInput.Text

/-! ## Definitions -/

/-- The characters whose escape is a letter or a mark behind a backslash. -/
def shortEscapes : List (Char × Char) :=
  [('"', '"'), ('\\', '\\'), ('\x08', 'b'), ('\x0c', 'f'), ('\n', 'n'), ('\r', 'r'), ('\t', 't')]

def hexDigits : List Char := "0123456789abcdef".toList

/-- How a character stands in a string. -/
inductive Spelled (c : Char) : List Char → Prop
  | plain (hlow : 32 ≤ c.toNat) (hquote : c ≠ '"') (hback : c ≠ '\\') : Spelled c [c]
  | short {x : Char} (h : (c, x) ∈ shortEscapes) : Spelled c ['\\', x]
  | code {x y : Char} (hlow : c.toNat < 32) (hlong : c ∉ shortEscapes.map Prod.fst)
      (hx : hexDigits[c.toNat / 16]? = some x) (hy : hexDigits[c.toNat % 16]? = some y) :
      Spelled c ['\\', 'u', '0', '0', x, y]

def Quoted (s t : String) : Prop :=
  ∃ us, List.Forall₂ Spelled s.toList us ∧ t = String.ofList ('"' :: us.flatten ++ ['"'])

/-- An object whose values are written already. -/
def object (fields : List (String × String)) : String :=
  "\x7b" ++ ",".intercalate (fields.map fun f => "\"" ++ f.1 ++ "\":" ++ f.2) ++ "\x7d"

/-! ## Numbers -/

theorem digits_eq_toDigits (n : Nat) : digits n = Nat.toDigits 10 n := by
  have hdigit : ∀ d, d < 10 → digitChar d = d.digitChar := by decide
  induction n using Nat.strongRecOn with
  | _ n ih =>
    unfold digits
    rw [Nat.toDigits_eq_if (by decide)]
    split
    · next hlt => rw [hdigit n hlt]
    · next hge => rw [ih (n / 10) (by omega), hdigit _ (Nat.mod_lt n (by decide))]

theorem decimal_eq_toString (n : Nat) : decimal n = toString n :=
  congrArg String.ofList (digits_eq_toDigits n)

/-! ## Strings -/

theorem hexDigits_getElem? (n : Nat) (h : n < 16) :
    hexDigits[n]? = some (Json.hexDigit n) := by
  have hall : ∀ n, n < 16 → hexDigits[n]? = some (Json.hexDigit n) := by decide
  exact hall n h

theorem escape_of_short {c x : Char} (h : (c, x) ∈ shortEscapes) : Json.escape c = ['\\', x] := by
  have hall : ∀ e ∈ shortEscapes, Json.escape e.1 = ['\\', e.2] := by decide
  exact hall _ h

theorem escape_of_long {c : Char} (h : c ∉ shortEscapes.map Prod.fst) :
    Json.escape c =
      if c.toNat < 32 then
        ['\\', 'u', '0', '0', Json.hexDigit (c.toNat / 16), Json.hexDigit (c.toNat % 16)]
      else [c] := by
  unfold Json.escape
  split
  case h_8 => rfl
  all_goals exact absurd (by decide) h

theorem spelled_escape (c : Char) : Spelled c (Json.escape c) := by
  by_cases hshort : c ∈ shortEscapes.map Prod.fst
  · obtain ⟨⟨c, x⟩, hx, rfl⟩ := List.mem_map.1 hshort
    rw [escape_of_short hx]
    exact .short hx
  · rw [escape_of_long hshort]
    split
    · next hlow =>
      exact .code hlow hshort (hexDigits_getElem? _ (by omega)) (hexDigits_getElem? _ (by omega))
    · next hlow =>
      refine .plain (by omega) ?_ ?_
      · rintro rfl
        exact hshort (by decide)
      · rintro rfl
        exact hshort (by decide)

/-- A character is written in one way. -/
theorem spelled_iff (c : Char) (u : List Char) : Spelled c u ↔ Json.escape c = u := by
  constructor
  · intro h
    cases h with
    | plain hlow hquote hback =>
      have hlong : c ∉ shortEscapes.map Prod.fst := by
        have hlist : ∀ e ∈ shortEscapes, e.1 = '"' ∨ e.1 = '\\' ∨ e.1.toNat < 32 := by decide
        intro hc
        obtain ⟨e, he, rfl⟩ := List.mem_map.1 hc
        rcases hlist e he with h | h | h
        · exact hquote h
        · exact hback h
        · omega
      rw [escape_of_long hlong, if_neg (by omega)]
    | short h => exact escape_of_short h
    | code hlow hlong hx hy =>
      rw [hexDigits_getElem? _ (by omega), Option.some.injEq] at hx hy
      rw [escape_of_long hlong, if_pos hlow, hx, hy]
  · rintro rfl
    exact spelled_escape c

/-- Rows of things that are each written in one way. -/
theorem forall₂_iff_map {α β : Type} {R : α → β → Prop} {f : α → β} (h : ∀ a b, R a b ↔ f a = b)
    (as : List α) (bs : List β) : List.Forall₂ R as bs ↔ as.map f = bs := by
  have hR : R = fun a b => f a = b := funext fun a => funext fun b => propext (h a b)
  rw [hR, ← List.forall₂_eq_eq_eq, List.forall₂_map_left_iff]

theorem quoted_iff (s t : String) : Quoted s t ↔ Json.quote s = t := by
  constructor
  · rintro ⟨us, hus, rfl⟩
    rw [forall₂_iff_map spelled_iff] at hus
    rw [← hus]
    rfl
  · rintro rfl
    exact ⟨_, (forall₂_iff_map spelled_iff _ _).2 rfl, rfl⟩

/-! ## Objects -/

/-- The string has no character with an escape. -/
def isPlain (s : String) : Bool := s.toList.flatMap Json.escape = s.toList

theorem quote_of_isPlain {s : String} (h : isPlain s = true) : Json.quote s = "\"" ++ s ++ "\"" := by
  unfold Json.quote
  rw [of_decide_eq_true h, ← String.toList_inj]
  simp

theorem renderFields_eq (fs : List (String × Json)) :
    Json.renderFields fs = fs.map fun f => Json.quote f.1 ++ ":" ++ f.2.render := by
  induction fs with
  | nil => rfl
  | cons f fs ih =>
    unfold Json.renderFields
    rw [ih]
    rfl

theorem render_obj {fs : List (String × Json)} (names : List String)
    (hnames : fs.map Prod.fst = names) (h : names.all isPlain = true) :
    (Json.obj fs).render = object (fs.map fun f => (f.1, f.2.render)) := by
  have hfields : Json.renderFields fs =
      (fs.map fun f => (f.1, f.2.render)).map fun f => "\"" ++ f.1 ++ "\":" ++ f.2 := by
    rw [renderFields_eq, List.map_map]
    refine List.map_congr_left fun f hf => ?_
    have hplain : isPlain f.1 = true :=
      List.all_eq_true.1 h f.1 (hnames ▸ List.mem_map_of_mem hf)
    rw [quote_of_isPlain hplain]
    simp [String.append_assoc]
  show "\x7b" ++ ",".intercalate (Json.renderFields fs) ++ "\x7d" = _
  rw [hfields]
  rfl

theorem render_bool (b : Bool) : (Json.bool b).render = toString b := by
  cases b <;> rfl

theorem render_nat (n : Nat) : (Json.nat n).render = toString n := decimal_eq_toString n

theorem render_str (s : String) : (Json.str s).render = Json.quote s := rfl

/-! ## Where a text ends -/

/-- The text does not go on with a digit. -/
def Stops (r : List Char) : Prop := ∀ c, r.head? = some c → c.isDigit = false

theorem takeWhile_digits_append (n : Nat) {r : List Char} (hr : Stops r) :
    (digits n ++ r).takeWhile Char.isDigit = digits n := by
  have hrest : r.takeWhile Char.isDigit = [] := by
    cases r with
    | nil => rfl
    | cons c r => rw [List.takeWhile_cons, hr c rfl, if_neg Bool.false_ne_true]
  rw [List.takeWhile_append_of_pos (List.all_eq_true.1 (isDigit_digits n)), hrest, List.append_nil]

theorem digits_append_inj {m n : Nat} {r q : List Char} (hr : Stops r) (hq : Stops q)
    (h : digits m ++ r = digits n ++ q) : m = n ∧ r = q := by
  have hdigits : digits m = digits n := by
    rw [← takeWhile_digits_append m hr, h, takeWhile_digits_append n hq]
  rw [hdigits] at h
  exact ⟨digits_inj hdigits, List.append_cancel_left h⟩

theorem escape_append_inj {c d : Char} {r q : List Char}
    (h : Json.escape c ++ r = Json.escape d ++ q) : c = d ∧ r = q := by
  have hmark : ∀ e ∈ shortEscapes, ∀ f ∈ shortEscapes, e.2 = f.2 → e.1 = f.1 := by decide
  have hcode : ∀ e ∈ shortEscapes, e.2 ≠ 'u' := by decide
  have hhex : ∀ m, m < 16 → ∀ n, n < 16 → hexDigits[m]? = hexDigits[n]? → m = n := by decide
  have hc := spelled_escape c
  have hd := spelled_escape d
  generalize Json.escape c = u at h hc
  generalize Json.escape d = v at h hd
  cases hc with
  | plain _ _ hback =>
    cases hd with
    | plain => exact List.cons.inj h
    | short | code => exact absurd (List.cons.inj h).1 hback
  | short hx =>
    cases hd with
    | plain _ _ hback => exact absurd (List.cons.inj h).1.symm hback
    | short hy =>
      obtain ⟨hxy, hrest⟩ := List.cons.inj (List.cons.inj h).2
      exact ⟨hmark _ hx _ hy hxy, hrest⟩
    | code => exact absurd (List.cons.inj (List.cons.inj h).2).1 (hcode _ hx)
  | code hlow _ hx hy =>
    cases hd with
    | plain _ _ hback => exact absurd (List.cons.inj h).1.symm hback
    | short hz => exact absurd (List.cons.inj (List.cons.inj h).2).1.symm (hcode _ hz)
    | code hlow' _ hx' hy' =>
      simp only [List.cons_append, List.nil_append, List.cons.injEq, true_and] at h
      obtain ⟨rfl, rfl, hrest⟩ := h
      have hhigh := hhex _ (by omega) _ (by omega) (hx.trans hx'.symm)
      have hrem := hhex _ (Nat.mod_lt _ (by decide)) _ (Nat.mod_lt _ (by decide)) (hy.trans hy'.symm)
      exact ⟨Char.toNat_inj.1 (by omega), hrest⟩

/-- A quote in a string has a backslash before it. -/
theorem escape_append_ne_quote (c : Char) (r q : List Char) : Json.escape c ++ r ≠ '"' :: q := by
  have hc := spelled_escape c
  generalize Json.escape c = u at hc
  intro h
  cases hc with
  | plain _ hquote => exact hquote (List.cons.inj h).1
  | short | code => exact absurd (List.cons.inj h).1 (by decide)

theorem body_append_inj {s t r q : List Char}
    (h : s.flatMap Json.escape ++ '"' :: r = t.flatMap Json.escape ++ '"' :: q) :
    s = t ∧ r = q := by
  induction s generalizing t with
  | nil =>
    cases t with
    | nil => exact ⟨rfl, (List.cons.inj h).2⟩
    | cons d t =>
      rw [List.flatMap_cons, List.append_assoc] at h
      exact absurd h.symm (escape_append_ne_quote d _ _)
  | cons c s ih =>
    cases t with
    | nil =>
      rw [List.flatMap_cons, List.append_assoc] at h
      exact absurd h (escape_append_ne_quote c _ _)
    | cons d t =>
      rw [List.flatMap_cons, List.flatMap_cons, List.append_assoc, List.append_assoc] at h
      obtain ⟨rfl, hrest⟩ := escape_append_inj h
      obtain ⟨rfl, hq⟩ := ih hrest
      exact ⟨rfl, hq⟩

theorem quote_append_inj {s t : String} {r q : List Char}
    (h : (Json.quote s).toList ++ r = (Json.quote t).toList ++ q) : s = t ∧ r = q := by
  unfold Json.quote at h
  simp only [String.toList_ofList, List.append_assoc, List.cons_append, List.nil_append,
    List.cons.injEq, true_and] at h
  obtain ⟨hst, hq⟩ := body_append_inj h
  exact ⟨String.toList_inj.1 hst, hq⟩

/-! ## Rows -/

theorem stops_cons {c : Char} (hc : c.isDigit = false) (r : List Char) : Stops (c :: r) := by
  intro d hd
  cases hd
  exact hc

section
variable {α : Type} {write : α → List Char} {close : Char}

/-- What stands behind the first part of a row: the end of the row, or a comma and the rest. -/
def afterFirst (write : α → List Char) (close : Char) : List α → List Char → List Char
  | [], r => close :: r
  | a :: as, r => ',' :: ([','].intercalate ((a :: as).map write) ++ close :: r)

theorem row_cons (a : α) (as : List α) (r : List Char) :
    [','].intercalate ((a :: as).map write) ++ close :: r =
      write a ++ afterFirst write close as r := by
  cases as with
  | nil => rw [List.map_singleton, List.intercalate_singleton, afterFirst]
  | cons b as =>
    rw [List.map_cons, List.map_cons, List.intercalate_cons_cons, List.append_assoc,
      List.append_assoc]
    rfl

theorem stops_afterFirst (hclose : close.isDigit = false) (as : List α) (r : List Char) :
    Stops (afterFirst write close as r) := by
  cases as with
  | nil => exact stops_cons hclose r
  | cons => exact stops_cons (by decide) _

/-- A row whose parts tell where they end tells its parts and where it ends itself. -/
theorem row_append_inj (hclose : close.isDigit = false) (hcomma : close ≠ ',')
    (hopen : ∀ a r q, write a ++ r ≠ close :: q) {as bs : List α} {r q : List Char}
    (hwrite : ∀ a ∈ as, ∀ b r q, Stops r → Stops q → write a ++ r = write b ++ q → a = b ∧ r = q)
    (h : [','].intercalate (as.map write) ++ close :: r =
      [','].intercalate (bs.map write) ++ close :: q) : as = bs ∧ r = q := by
  induction as generalizing bs with
  | nil =>
    cases bs with
    | nil => exact ⟨rfl, (List.cons.inj h).2⟩
    | cons b bs =>
      rw [row_cons] at h
      exact absurd h.symm (hopen b _ _)
  | cons a as ih =>
    cases bs with
    | nil =>
      rw [row_cons] at h
      exact absurd h (hopen a _ _)
    | cons b bs =>
      rw [row_cons, row_cons] at h
      obtain ⟨rfl, hrest⟩ := hwrite a List.mem_cons_self b _ _ (stops_afterFirst hclose as r)
        (stops_afterFirst hclose bs q) h
      cases as with
      | nil =>
        cases bs with
        | nil => exact ⟨rfl, (List.cons.inj hrest).2⟩
        | cons => exact absurd (List.cons.inj hrest).1 hcomma
      | cons c cs =>
        cases bs with
        | nil => exact absurd (List.cons.inj hrest).1.symm hcomma
        | cons d ds =>
          obtain ⟨hsame, hq⟩ := ih (fun x hx => hwrite x (List.mem_cons_of_mem a hx))
            (List.cons.inj hrest).2
          exact ⟨congrArg (a :: ·) hsame, hq⟩

end

/-! ## Values -/

namespace Json

theorem induct {motive : Json → Prop} (null : motive .null) (bool : ∀ b, motive (.bool b))
    (nat : ∀ n, motive (.nat n)) (str : ∀ s, motive (.str s))
    (arr : ∀ vs, (∀ v ∈ vs, motive v) → motive (.arr vs))
    (obj : ∀ fs, (∀ f ∈ fs, motive f.2) → motive (.obj fs)) : ∀ v, motive v
  | .null => null
  | .bool b => bool b
  | .nat n => nat n
  | .str s => str s
  | .arr vs => arr vs fun v _ => induct null bool nat str arr obj v
  | .obj fs => obj fs fun f hf =>
    have hfield : sizeOf f.2 < sizeOf f := by
      obtain ⟨name, v⟩ := f
      rw [Prod.mk.sizeOf_spec]
      show sizeOf v < _
      omega
    have hsize : sizeOf f.2 < 1 + sizeOf fs := by
      have hmem := List.sizeOf_lt_of_mem hf
      omega
    induct null bool nat str arr obj f.2

/-! Which of the six a value is shows in the first character of its text. -/

def kind : Json → Nat
  | .null => 0
  | .bool _ => 1
  | .nat _ => 2
  | .str _ => 3
  | .arr _ => 4
  | .obj _ => 5

def kindOf (c : Char) : Nat :=
  if c = 'n' then 0
  else if c = 't' ∨ c = 'f' then 1
  else if c.isDigit then 2
  else if c = '"' then 3
  else if c = '[' then 4
  else if c = '\x7b' then 5
  else 6

theorem kindOf_of_isDigit {c : Char} (h : c.isDigit = true) : kindOf c = 2 := by
  have hn : c ≠ 'n' := by rintro rfl; cases h
  have ht : c ≠ 't' := by rintro rfl; cases h
  have hf : c ≠ 'f' := by rintro rfl; cases h
  unfold kindOf
  rw [if_neg hn, if_neg (not_or.2 ⟨ht, hf⟩), if_pos h]

/-! The texts as characters. -/

/-- A field of an object. -/
def fieldText (f : String × Json) : List Char := (quote f.1).toList ++ ':' :: f.2.render.toList

theorem toList_nat (n : Nat) : (Json.nat n).render.toList = digits n := String.toList_ofList

theorem toList_str (s : String) :
    (Json.str s).render.toList = '"' :: (s.toList.flatMap escape ++ ['"']) := String.toList_ofList

theorem toList_arr (vs : List Json) :
    (Json.arr vs).render.toList =
      '[' :: ([','].intercalate (vs.map fun v => v.render.toList) ++ [']']) := by
  have hitems : ∀ vs, renderItems vs = vs.map render := by
    intro vs
    induction vs with
    | nil => rfl
    | cons v vs ih => exact congrArg (v.render :: ·) ih
  show ("[" ++ ",".intercalate (renderItems vs) ++ "]").toList = _
  rw [hitems, String.toList_append, String.toList_append, String.toList_intercalate, List.map_map]
  rfl

theorem toList_obj (fs : List (String × Json)) :
    (Json.obj fs).render.toList =
      '\x7b' :: ([','].intercalate (fs.map fieldText) ++ ['\x7d']) := by
  have hfields : (renderFields fs).map String.toList = fs.map fieldText := by
    rw [renderFields_eq, List.map_map]
    refine List.map_congr_left fun f _ => ?_
    simp [fieldText]
  show ("\x7b" ++ ",".intercalate (renderFields fs) ++ "\x7d").toList = _
  rw [String.toList_append, String.toList_append, String.toList_intercalate, hfields]
  rfl

theorem exists_render_eq_cons (v : Json) :
    ∃ c u, v.render.toList = c :: u ∧ kindOf c = v.kind := by
  cases v with
  | null => exact ⟨'n', "ull".toList, by decide⟩
  | bool b =>
    cases b with
    | true => exact ⟨'t', "rue".toList, by decide⟩
    | false => exact ⟨'f', "alse".toList, by decide⟩
  | nat n =>
    rw [toList_nat]
    cases hd : digits n with
    | nil => exact absurd hd (digits_ne_nil n)
    | cons c u =>
      have hdigit := isDigit_digits n
      rw [hd, List.all_cons, Bool.and_eq_true] at hdigit
      exact ⟨c, u, rfl, kindOf_of_isDigit hdigit.1⟩
  | str s => exact ⟨'"', _, toList_str s, rfl⟩
  | arr vs => exact ⟨'[', _, toList_arr vs, rfl⟩
  | obj fs => exact ⟨'\x7b', _, toList_obj fs, rfl⟩

theorem kind_eq {v w : Json} {r q : List Char}
    (h : v.render.toList ++ r = w.render.toList ++ q) : v.kind = w.kind := by
  obtain ⟨c, u, hv, hc⟩ := v.exists_render_eq_cons
  obtain ⟨d, t, hw, hd⟩ := w.exists_render_eq_cons
  rw [hv, hw] at h
  rw [← hc, (List.cons.inj h).1, hd]

/-- A field does not begin like the end of an object. -/
theorem fieldText_append_ne_brace (f : String × Json) (r q : List Char) :
    fieldText f ++ r ≠ '\x7d' :: q := by
  unfold fieldText quote
  rw [String.toList_ofList]
  exact fun h => absurd (List.cons.inj h).1 (by decide)

/-- A value does not begin like the end of an array. -/
theorem render_append_ne_bracket (v : Json) (r q : List Char) :
    v.render.toList ++ r ≠ ']' :: q := by
  obtain ⟨c, u, hv, hc⟩ := v.exists_render_eq_cons
  intro h
  rw [hv] at h
  rw [(List.cons.inj h).1] at hc
  cases v <;> cases hc

theorem fieldText_append_inj {f g : String × Json} {r q : List Char}
    (hvalue : ∀ {r q}, f.2.render.toList ++ r = g.2.render.toList ++ q → Stops r → Stops q →
      f.2 = g.2 ∧ r = q) (hr : Stops r) (hq : Stops q)
    (h : fieldText f ++ r = fieldText g ++ q) : f = g ∧ r = q := by
  unfold fieldText at h
  rw [List.append_assoc, List.append_assoc] at h
  obtain ⟨hname, hrest⟩ := quote_append_inj h
  obtain ⟨hv, hend⟩ := hvalue (List.cons.inj hrest).2 hr hq
  exact ⟨Prod.ext hname hv, hend⟩

/-- The text of a value tells the value, and in a longer text it tells where it ends. -/
theorem render_append_inj {v w : Json} {r q : List Char} (hr : Stops r) (hq : Stops q)
    (h : v.render.toList ++ r = w.render.toList ++ q) : v = w ∧ r = q := by
  induction v using induct generalizing w r q with
  | null =>
    have hk := kind_eq h
    cases w with
    | null => exact ⟨rfl, List.append_cancel_left h⟩
    | _ => cases hk
  | bool b =>
    have hk := kind_eq h
    cases w with
    | bool c =>
      cases b <;> cases c
      · exact ⟨rfl, List.append_cancel_left h⟩
      · exact absurd (List.cons.inj h).1 (by decide)
      · exact absurd (List.cons.inj h).1 (by decide)
      · exact ⟨rfl, List.append_cancel_left h⟩
    | _ => cases hk
  | nat n =>
    have hk := kind_eq h
    cases w with
    | nat m =>
      rw [toList_nat, toList_nat] at h
      obtain ⟨rfl, hend⟩ := digits_append_inj hr hq h
      exact ⟨rfl, hend⟩
    | _ => cases hk
  | str s =>
    have hk := kind_eq h
    cases w with
    | str t =>
      obtain ⟨rfl, hend⟩ := quote_append_inj h
      exact ⟨rfl, hend⟩
    | _ => cases hk
  | arr vs ih =>
    have hk := kind_eq h
    cases w with
    | arr ws =>
      rw [toList_arr, toList_arr] at h
      simp only [List.cons_append, List.append_assoc, List.nil_append, List.cons.injEq,
        true_and] at h
      obtain ⟨rfl, hend⟩ := row_append_inj (by decide) (by decide) render_append_ne_bracket
        (fun v hv w r q hr hq h => ih v hv hr hq h) h
      exact ⟨rfl, hend⟩
    | _ => cases hk
  | obj fs ih =>
    have hk := kind_eq h
    cases w with
    | obj gs =>
      rw [toList_obj, toList_obj] at h
      simp only [List.cons_append, List.append_assoc, List.nil_append, List.cons.injEq,
        true_and] at h
      obtain ⟨rfl, hend⟩ := row_append_inj (by decide) (by decide) fieldText_append_ne_brace
        (fun f hf g r q hr hq h => fieldText_append_inj (fun h hr hq => ih f hf hr hq h) hr hq h) h
      exact ⟨rfl, hend⟩
    | _ => cases hk

theorem render_inj {v w : Json} (h : v.render = w.render) : v = w := by
  have hend : Stops [] := nofun
  exact (render_append_inj hend hend (congrArg (·.toList ++ []) h)).1

end Json

end ModalInput.Text
