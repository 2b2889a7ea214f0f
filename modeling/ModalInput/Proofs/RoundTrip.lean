import Mathlib.Data.List.Forall2
import ModalInput.Key.Notation.Printer
import ModalInput.Proofs.Notation

/-!
# Presses written and read back

What the printer writes reads back as the presses it was written for, next to whatever else it
stands.  A bracket may also have its modifier letters in another order, more than once or in the
other case, and the name of its key in another case.

    (∀ p ∈ ps, Writable p) → parse (renderAll ps) = .ok ps                     (parse_spelled)
-/

namespace ModalInput.Notation

/-! ## Ways to write a press -/

/-- The presses that have a notation.  A bracket would end at the key `>`, so only the bare press
of it has one. -/
structure Writable (p : Press) : Prop where
  named : (∃ c, p.name = String.singleton c) ∨ ∃ k : NamedKey, p.name = k.name
  shift : ∀ c, p.name = String.singleton c → Text.isUppercase c = true → p.shift = true
  gt : p.name = ">" → p = .ofChar '>'

/-- The text `w` is the name `v` in some case; a single character has only the one it is in. -/
def Recased (v w : List Char) : Prop := w = v ∨ v.length ≠ 1 ∧ lowercase w = lowercase v

/-- Modifier letters, each with its dash. -/
def letterText (xs : List Char) : List Char := xs.flatMap fun x => [x, '-']

/-- The texts that stand for a press: the one that the printer writes, and every bracket with
letters for the same modifiers and the name of the key. -/
inductive Spelled (p : Press) : List Char → Prop
  | rendered : Spelled p (render p)
  | bracket {xs w : List Char} (hgt : p.name ≠ ">")
      (hx : ∀ x ∈ xs, ∃ m ∈ p.modifiers, x ∈ modifierLetters m)
      (hm : ∀ m ∈ p.modifiers, ∃ x ∈ xs, x ∈ modifierLetters m)
      (hw : Recased (bracketName p.name).toList w) :
      Spelled p ('<' :: (letterText xs ++ w) ++ ['>'])

theorem writable_of_char {p : Press} {c : Char} (hname : p.name = String.singleton c)
    (hshift : Text.isUppercase c = true → p.shift = true) (hgt : c = '>' → p = .ofChar '>') :
    Writable p where
  named := Or.inl ⟨c, hname⟩
  shift d hd hupper := by
    rw [hname] at hd
    rw [← String.singleton_inj.1 hd] at hupper
    exact hshift hupper
  gt h := by
    rw [hname] at h
    exact hgt (String.singleton_inj.1 h)

theorem length_keyName (k : NamedKey) : k.name.toList.length ≠ 1 := by
  cases k <;> decide

theorem writable_of_key {p : Press} {k : NamedKey} (hname : p.name = k.name) : Writable p where
  named := Or.inr ⟨k, hname⟩
  shift c hc := by
    have hlen := length_keyName k
    rw [← hname, hc, String.toList_singleton] at hlen
    exact absurd rfl hlen
  gt h := by
    have hlen := length_keyName k
    rw [← hname, h] at hlen
    exact absurd rfl hlen

/-! ## Brackets -/

theorem mem_modifierLetters_unique {x : Char} {m n : Modifier} (hm : x ∈ modifierLetters m)
    (hn : x ∈ modifierLetters n) : n = m := by
  rw [mem_modifierLetters_iff] at hm hn
  rw [hm] at hn
  cases hn
  rfl

/-- A row of letters stands for the modifiers that one of them stands for. -/
theorem exists_token {w : List Char} {key : String} (hw : Names w key) (xs : List Char)
    (hxs : ∀ x ∈ xs, ∃ m, x ∈ modifierLetters m) :
    ∃ ms, Token (letterText xs ++ w) ms key ∧ ∀ m, m ∈ ms ↔ ∃ x ∈ xs, x ∈ modifierLetters m := by
  induction xs with
  | nil => exact ⟨[], .key hw, by simp⟩
  | cons x xs ih =>
    obtain ⟨m, hm⟩ := hxs x List.mem_cons_self
    obtain ⟨ms, htoken, hmem⟩ := ih fun y hy => hxs y (List.mem_cons_of_mem x hy)
    refine ⟨m :: ms, .hold hm htoken, fun n => ?_⟩
    have hx : n = m ↔ x ∈ modifierLetters n :=
      ⟨fun h => h ▸ hm, mem_modifierLetters_unique hm⟩
    rw [List.mem_cons, hmem, hx]
    simp

theorem gt_not_mem_letterText {xs : List Char} (hxs : ∀ x ∈ xs, ∃ m, x ∈ modifierLetters m) :
    '>' ∉ letterText xs := by
  unfold letterText
  rw [List.mem_flatMap]
  rintro ⟨x, hx, hgt⟩
  obtain ⟨m, hm⟩ := hxs x hx
  simp only [List.mem_cons, List.not_mem_nil, or_false] at hgt
  rcases hgt with rfl | hgt
  · cases m <;> exact absurd hm (by decide)
  · exact absurd hgt (by decide)

def isHeld (p : Press) : Modifier → Bool
  | .shift => p.shift
  | .control => p.control
  | .alt => p.alt
  | .super => p.super

theorem mem_modifiers_iff (p : Press) (m : Modifier) : m ∈ p.modifiers ↔ isHeld p m = true := by
  unfold Press.modifiers isHeld
  cases m <;> simp

/-- With its uppercase character a key brings shift, which a press that is writable has. -/
theorem not_isUppercaseName {p : Press} (hp : Writable p) (hs : p.shift = false) :
    isUppercaseName p.name = false := by
  rw [Bool.eq_false_iff]
  intro hupper
  unfold isUppercaseName at hupper
  rw [Bool.and_eq_true, decide_eq_true_eq, List.length_eq_one_iff] at hupper
  obtain ⟨⟨c, hc⟩, hall⟩ := hupper
  rw [hc, List.all_cons, List.all_nil, Bool.and_true] at hall
  have hname : p.name = String.singleton c := by
    rw [← String.toList_inj, hc, String.toList_singleton]
  rw [hp.shift c hname hall] at hs
  cases hs

theorem bracketPress_of_modifiers {p : Press} (hp : Writable p) {ms : List Modifier}
    (h : ∀ m, m ∈ ms ↔ m ∈ p.modifiers) : bracketPress ms p.name = p := by
  have hheld : ∀ m, decide (m ∈ ms) = isHeld p m := by
    intro m
    rw [Bool.eq_iff_iff, decide_eq_true_eq, h, mem_modifiers_iff]
  have hshift : (p.shift || isUppercaseName p.name) = p.shift := by
    cases hs : p.shift with
    | true => rfl
    | false => exact not_isUppercaseName hp hs
  unfold bracketPress
  rw [hheld, hheld, hheld, hheld]
  show ({ p with shift := p.shift || isUppercaseName p.name } : Press) = p
  rw [hshift]

/-! ## Names of keys -/

theorem Recased.lowercase_eq {v w : List Char} (h : Recased v w) : lowercase w = lowercase v := by
  rcases h with rfl | ⟨-, h⟩
  · rfl
  · exact h

theorem bracketName_key (k : NamedKey) : lowercase (bracketName k.name).toList ∈ spellings k := by
  cases k <;> decide

theorem bracketNames_first : ∀ e ∈ bracketNames, e.1 = "<" ∨ e.1.toList.length ≠ 1 := by
  decide

theorem bracketName_char {c : Char} (hc : c ≠ '<') :
    bracketName (String.singleton c) = String.singleton c := by
  have hnone : bracketNames.lookup (String.singleton c) = none := by
    rw [List.lookup_eq_none_iff]
    intro e he
    rw [bne_iff_ne]
    intro hname
    rcases bracketNames_first e he with hlt | hlen
    · rw [hlt] at hname
      exact hc (String.singleton_inj.1 hname)
    · rw [← hname, String.toList_singleton] at hlen
      exact hlen rfl
  unfold bracketName
  rw [hnone]
  rfl

theorem names_of_recased {p : Press} (hp : Writable p) {w : List Char}
    (hw : Recased (bracketName p.name).toList w) : Names w p.name := by
  rcases hp.named with ⟨c, hc⟩ | ⟨k, hk⟩
  · rw [hc] at hw ⊢
    by_cases hlt : c = '<'
    · subst hlt
      exact .lt hw.lowercase_eq
    · rw [bracketName_char hlt, String.toList_singleton] at hw
      rcases hw with rfl | ⟨hlen, -⟩
      · exact .char c
      · exact absurd rfl hlen
  · rw [hk] at hw ⊢
    refine .key k ?_
    rw [hw.lowercase_eq]
    exact bracketName_key k

theorem spellings_no_gt (k : NamedKey) : ∀ n ∈ spellings k, '>' ∉ n.toList := by
  cases k <;> decide

theorem gt_not_mem_of_lowercase {w : List Char} (h : '>' ∉ (lowercase w).toList) : '>' ∉ w := by
  rw [toList_lowercase] at h
  exact fun hw => h (List.mem_map_of_mem hw)

/-- Only the key `>` has the end of a bracket in its name. -/
theorem gt_not_mem_of_names {w : List Char} {key : String} (h : Names w key) (hgt : key ≠ ">") :
    '>' ∉ w := by
  cases h with
  | char c =>
    intro hc
    cases List.mem_singleton.1 hc
    exact hgt rfl
  | key k hk => exact gt_not_mem_of_lowercase (spellings_no_gt k _ hk)
  | space h => exact gt_not_mem_of_lowercase (by rw [h]; decide)
  | lt h => exact gt_not_mem_of_lowercase (by rw [h]; decide)

/-! ## One press -/

theorem item_of_bracket {p : Press} (hp : Writable p) (hgt : p.name ≠ ">") {xs w : List Char}
    (hx : ∀ x ∈ xs, ∃ m ∈ p.modifiers, x ∈ modifierLetters m)
    (hm : ∀ m ∈ p.modifiers, ∃ x ∈ xs, x ∈ modifierLetters m)
    (hw : Recased (bracketName p.name).toList w) :
    Item ('<' :: (letterText xs ++ w) ++ ['>']) p := by
  have hnames := names_of_recased hp hw
  have hletters : ∀ x ∈ xs, ∃ m, x ∈ modifierLetters m := by
    intro x h
    obtain ⟨m, -, hxm⟩ := hx x h
    exact ⟨m, hxm⟩
  obtain ⟨ms, htoken, hms⟩ := exists_token hnames xs hletters
  have hsame : ∀ m, m ∈ ms ↔ m ∈ p.modifiers := by
    intro m
    rw [hms]
    constructor
    · rintro ⟨x, h, hxm⟩
      obtain ⟨n, hn, hxn⟩ := hx x h
      rw [mem_modifierLetters_unique hxn hxm]
      exact hn
    · exact hm m
  have hopen : '>' ∉ letterText xs ++ w := by
    rw [List.mem_append, not_or]
    exact ⟨gt_not_mem_letterText hletters, gt_not_mem_of_names hnames hgt⟩
  have hitem := Item.bracket hopen htoken
  rw [bracketPress_of_modifiers hp hsame] at hitem
  exact hitem

theorem letterOfModifier_mem (m : Modifier) : letterOfModifier m ∈ modifierLetters m := by
  cases m <;> decide

/-- The bracket of the printer has one letter for each modifier. -/
theorem item_renderBracket {p : Press} (hp : Writable p) (hgt : p.name ≠ ">") :
    Item (renderBracket p) p := by
  have htext : renderBracket p = '<' :: (letterText (p.modifiers.map letterOfModifier) ++
      (bracketName p.name).toList) ++ ['>'] := by
    unfold renderBracket letterText
    rw [List.flatMap_map]
    rfl
  rw [htext]
  refine item_of_bracket hp hgt (fun x hx => ?_) (fun m hm => ?_) (Or.inl rfl)
  · obtain ⟨m, hm, rfl⟩ := List.mem_map.1 hx
    exact ⟨m, hm, letterOfModifier_mem m⟩
  · exact ⟨_, List.mem_map_of_mem hm, letterOfModifier_mem m⟩

theorem render_ofChar {c : Char} (hc : c ≠ '<') : render (.ofChar c) = [c] := by
  have hname : (Press.ofChar c).name.toList = [c] := String.toList_singleton c
  unfold render
  rw [hname]
  exact if_pos ⟨hc, rfl⟩

/-- Only a character without further modifiers is written bare. -/
theorem render_eq (p : Press) :
    (∃ c, c ≠ '<' ∧ p = .ofChar c ∧ render p = [c]) ∨ render p = renderBracket p := by
  unfold render
  split
  · split_ifs with h
    · exact Or.inl ⟨_, h.1, h.2, rfl⟩
    · exact Or.inr rfl
  · exact Or.inr rfl

theorem item_render {p : Press} (hp : Writable p) : Item (render p) p := by
  rcases render_eq p with ⟨c, hc, rfl, hbare⟩ | hbracket
  · rw [hbare, ofChar_eq_barePress]
    exact .char hc
  · rw [hbracket]
    refine item_renderBracket hp fun hgt => ?_
    rw [hp.gt hgt, render_ofChar (by decide)] at hbracket
    exact absurd (congrArg List.head? hbracket) (by decide)

theorem item_of_spelled {p : Press} (hp : Writable p) {u : List Char} (h : Spelled p u) :
    Item u p := by
  cases h with
  | rendered => exact item_render hp
  | bracket hgt hx hm hw => exact item_of_bracket hp hgt hx hm hw

/-! ## Rows of presses -/

theorem written_of_spelled {ps : List Press} {us : List (List Char)}
    (h : List.Forall₂ Spelled ps us) (hp : ∀ p ∈ ps, Writable p) : Written us.flatten ps := by
  induction h with
  | nil => exact .nil
  | @cons p u ps us hu _ ih =>
    have hitem := item_of_spelled (hp p List.mem_cons_self) hu
    exact .cons hitem (ih fun q hq => hp q (List.mem_cons_of_mem p hq))

theorem spelled_render (ps : List Press) : List.Forall₂ Spelled ps (ps.map render) := by
  rw [List.forall₂_map_right_iff, List.forall₂_same]
  exact fun p _ => .rendered

/-- **Round trip.**  What the printer writes for a row of presses reads back as that row, and so
does each text that spells the presses one after another. -/
theorem parse_spelled {ps : List Press} (hp : ∀ p ∈ ps, Writable p) :
    parse (renderAll ps) = .ok ps ∧
      ∀ us, List.Forall₂ Spelled ps us → parse (String.ofList us.flatten) = .ok ps := by
  have hspelled : ∀ us, List.Forall₂ Spelled ps us →
      parse (String.ofList us.flatten) = .ok ps := by
    intro us hus
    refine parse_of_written ?_
    rw [String.toList_ofList]
    exact written_of_spelled hus hp
  refine ⟨?_, hspelled⟩
  have hprinted := hspelled _ (spelled_render ps)
  rw [← List.flatMap_def] at hprinted
  exact hprinted

/-- A row with the keys that open and close brackets, and a text of it with letters repeated and
cases mixed. -/
theorem parse_spelled_mixed :
    let ps : List Press :=
      [⟨"<", false, true, false, false⟩, .ofChar '-', ⟨"Escape", false, false, false, true⟩,
        ⟨"G", true, true, false, false⟩, .ofChar '>']
    (∀ p ∈ ps, Writable p) ∧ renderAll ps = "<C-lt>-<M-Esc><C-S-G>>" ∧
      parse (renderAll ps) = .ok ps ∧ parse "<c-C-LT>-<d-eSC><s-C-G>>" = .ok ps := by
  intro ps
  have hp : ∀ p ∈ ps, Writable p := by
    intro p h
    simp only [ps, List.mem_cons, List.not_mem_nil, or_false] at h
    rcases h with rfl | rfl | rfl | rfl | rfl
    · exact writable_of_char (c := '<') rfl (by decide) (by decide)
    · exact writable_of_char (c := '-') rfl (by decide) (by decide)
    · exact writable_of_key (k := .escape) rfl
    · exact writable_of_char (c := 'G') rfl (by decide) (by decide)
    · exact writable_of_char (c := '>') rfl (by decide) (by decide)
  obtain ⟨us, hus, htext⟩ : ∃ us, List.Forall₂ Spelled ps us ∧
      String.ofList us.flatten = "<c-C-LT>-<d-eSC><s-C-G>>" := by
    refine ⟨['<' :: (letterText ['c', 'C'] ++ ['L', 'T']) ++ ['>'], render (.ofChar '-'),
      '<' :: (letterText ['d'] ++ ['e', 'S', 'C']) ++ ['>'],
      '<' :: (letterText ['s', 'C'] ++ ['G']) ++ ['>'], render (.ofChar '>')],
      .cons ?_ (.cons .rendered (.cons ?_ (.cons ?_ (.cons .rendered .nil)))), by decide⟩
    · refine .bracket (by decide) ?_ ?_ (Or.inr (by decide)) <;>
        simp [Press.modifiers, modifierLetters]
    · refine .bracket (by decide) ?_ ?_ (Or.inr (by decide)) <;>
        simp [Press.modifiers, modifierLetters]
    · refine .bracket (by decide) ?_ ?_ (Or.inl (by decide)) <;>
        simp [Press.modifiers, modifierLetters]
  obtain ⟨hprinted, hread⟩ := parse_spelled hp
  have hvariant := hread us hus
  rw [htext] at hvariant
  exact ⟨hp, by decide, hprinted, hvariant⟩

end ModalInput.Notation
