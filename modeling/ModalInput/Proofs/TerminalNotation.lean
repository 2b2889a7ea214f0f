import ModalInput.Key.Terminal
import ModalInput.Proofs.RoundTrip
import ModalInput.Proofs.Run

/-!
# The terminal and the notation

A key of the terminal and the bracket that is written for it are the same press: the two have
tables of their own for the names of keys and for the modifiers, and the tables agree.  So a session
at a terminal and one that reads a text come to the same.

    k.Bracket u → Item u k.press                                                (Bracket.item)
    List.Forall₂ Stroke.Bracket ks us →
      parse (String.ofList us.flatten) = .ok (ks.map Stroke.press)     (notation_agrees_terminal)
-/

namespace ModalInput.Terminal

open Notation

/-! ## Brackets for keys -/

/-- A key of the terminal with the modifiers that it reports. -/
structure Stroke where
  code : Code
  flags : List Flag
  deriving DecidableEq, Repr

def Stroke.press (k : Stroke) : Press := Terminal.press k.code k.flags

/-- The letters of the modifiers held; the two that count as super share one. -/
def flagLetters (flags : List Flag) : List Char :=
  (if .shift ∈ flags then ['S'] else []) ++ (if .control ∈ flags then ['C'] else []) ++
    (if .alt ∈ flags then ['A'] else []) ++
    (if .super ∈ flags ∨ .metaKey ∈ flags then ['M'] else [])

/-- The text that stands for a key in a bracket: a character, or one of its names in any case. -/
inductive KeyText : Code → List Char → Prop
  | char {c : Char} (hlt : c ≠ '<') (hgt : c ≠ '>') : KeyText (.char c) [c]
  | lt {w : List Char} (h : lowercase w = "lt") : KeyText (.char '<') w
  | key (k : NamedKey) {w : List Char} (h : lowercase w ∈ spellings k) : KeyText (.named k) w

/-- The bracket that holds a text behind the letters of the modifiers. -/
def bracketText (flags : List Flag) (w : List Char) : List Char :=
  '<' :: (letterText (flagLetters flags) ++ w) ++ ['>']

/-- The text is a bracket for the stroke. -/
def Stroke.Bracket (k : Stroke) (u : List Char) : Prop :=
  ∃ w, KeyText k.code w ∧ u = bracketText k.flags w

/-! ## Tables -/

theorem KeyText.names {code : Code} {w : List Char} (h : KeyText code w) : Names w code.name := by
  cases h with
  | char => exact .char _
  | lt h => exact .lt h
  | key k h =>
    rw [Code.name_named]
    exact .key k h

theorem KeyText.name_ne_gt {code : Code} {w : List Char} (h : KeyText code w) :
    code.name ≠ ">" := by
  cases h with
  | char _ hgt => exact fun h => hgt (String.singleton_inj.1 h)
  | lt => decide
  | key k => cases k <;> decide

/-- All characters but the one that closes a bracket, and all keys with a name, have a text. -/
theorem exists_keyText {code : Code}
    (h : (∃ c, code = .char c ∧ c ≠ '>') ∨ ∃ k, code = .named k) : ∃ w, KeyText code w := by
  rcases h with ⟨c, rfl, hgt⟩ | ⟨k, rfl⟩
  · by_cases hlt : c = '<'
    · subst hlt
      exact ⟨['l', 't'], .lt (by decide)⟩
    · exact ⟨[c], .char hlt hgt⟩
  · exact ⟨_, .key k (bracketName_key k)⟩

/-- Each letter stands for one of the modifiers held. -/
theorem exists_flag_of_letter {flags : List Flag} {x : Char} (hx : x ∈ flagLetters flags) :
    ∃ f ∈ flags, ∃ m, f.modifier? = some m ∧ x ∈ modifierLetters m := by
  unfold flagLetters at hx
  simp only [List.mem_append, List.mem_ite_nil_right, List.mem_singleton] at hx
  rcases hx with ((⟨hf, rfl⟩ | ⟨hf, rfl⟩) | ⟨hf, rfl⟩) | ⟨hf | hf, rfl⟩
  all_goals exact ⟨_, hf, _, rfl, by decide⟩

/-- The terminal's table of modifiers and the letters of the notation agree. -/
theorem mem_modifiers_iff_letter (flags : List Flag) (m : Modifier) :
    m ∈ flags.filterMap Flag.modifier? ↔ ∃ x ∈ flagLetters flags, x ∈ modifierLetters m := by
  rw [List.mem_filterMap]
  constructor
  · rintro ⟨f, hf, hm⟩
    refine ⟨letterOfModifier m, ?_, letterOfModifier_mem m⟩
    cases f with
    | hyper => cases hm
    | _ =>
      cases hm
      simp [flagLetters, letterOfModifier, hf]
  · rintro ⟨x, hx, hm⟩
    obtain ⟨f, hf, n, hn, hxn⟩ := exists_flag_of_letter hx
    exact ⟨f, hf, by rw [hn, mem_modifierLetters_unique hm hxn]⟩

/-- The press of a bracket depends on which modifiers it has and not on how it has them. -/
theorem bracketPress_congr {ms ns : List Modifier} (h : ∀ m, m ∈ ms ↔ m ∈ ns) (key : String) :
    bracketPress ms key = bracketPress ns key := by
  unfold bracketPress
  simp only [h]

theorem Stroke.press_eq (k : Stroke) :
    k.press = bracketPress (k.flags.filterMap Flag.modifier?) k.code.name :=
  holdAll_ofName _ _

/-! ## One stroke -/

theorem Stroke.Bracket.item {k : Stroke} {u : List Char} (h : k.Bracket u) : Item u k.press := by
  obtain ⟨w, htext, rfl⟩ := h
  have hletters : ∀ x ∈ flagLetters k.flags, ∃ m, x ∈ modifierLetters m := by
    intro x hx
    obtain ⟨-, -, m, -, hm⟩ := exists_flag_of_letter hx
    exact ⟨m, hm⟩
  obtain ⟨ms, htoken, hms⟩ := exists_token htext.names (flagLetters k.flags) hletters
  have hopen : '>' ∉ letterText (flagLetters k.flags) ++ w := by
    rw [List.mem_append, not_or]
    exact ⟨gt_not_mem_letterText hletters, gt_not_mem_of_names htext.names htext.name_ne_gt⟩
  have hitem := Item.bracket hopen htoken
  rw [bracketPress_congr fun m => (hms m).trans (mem_modifiers_iff_letter k.flags m).symm,
    ← k.press_eq] at hitem
  exact hitem

/-! ## Rows of strokes -/

theorem written_of_brackets {ks : List Stroke} {us : List (List Char)}
    (h : List.Forall₂ Stroke.Bracket ks us) : Written us.flatten (ks.map Stroke.press) := by
  induction h with
  | nil => exact .nil
  | cons hu _ ih => exact .cons hu.item ih

theorem parse_of_brackets {ks : List Stroke} {us : List (List Char)}
    (h : List.Forall₂ Stroke.Bracket ks us) :
    parse (String.ofList us.flatten) = .ok (ks.map Stroke.press) := by
  refine parse_of_written ?_
  rw [String.toList_ofList]
  exact written_of_brackets h

/-- **The terminal.**  There is a bracket for every key that the terminal reports, the one that
closes brackets and the keys without a name apart.  The reader takes any such bracket for the press
that the terminal makes of the key.  So the strokes of a session at a terminal, written one after
another, read as its presses, and lead any session to the same state and the same recording. -/
theorem notation_agrees_terminal :
    (∀ k : Stroke, ((∃ c, k.code = .char c ∧ c ≠ '>') ∨ ∃ n, k.code = .named n) →
      ∃ u, k.Bracket u) ∧
    (∀ (k : Stroke) (u : List Char), k.Bracket u → parse (String.ofList u) = .ok [k.press]) ∧
    ∀ (ks : List Stroke) (us : List (List Char)), List.Forall₂ Stroke.Bracket ks us →
      parse (String.ofList us.flatten) = .ok (ks.map Stroke.press) ∧
        ∀ s : Session,
          (parse (String.ofList us.flatten)).map s.pressAll =
            .ok (s.pressAll (ks.map Stroke.press)) := by
  refine ⟨fun k hk => ?_, fun k u hu => ?_, fun ks us hus => ?_⟩
  · obtain ⟨w, hw⟩ := exists_keyText hk
    exact ⟨_, w, hw, rfl⟩
  · have hone := parse_of_brackets (.cons hu .nil)
    rw [List.flatten_cons, List.flatten_nil, List.append_nil] at hone
    exact hone
  · have hrow := parse_of_brackets hus
    refine ⟨hrow, fun s => ?_⟩
    rw [hrow]
    rfl

/-- The super key next to the meta key, the dash, and the character that opens brackets. -/
theorem notation_agrees_terminal_row :
    let ks : List Stroke :=
      [⟨.char 'É', [.metaKey, .super]⟩, ⟨.char '-', [.control]⟩, ⟨.char '<', [.alt, .shift]⟩,
        ⟨.named .escape, []⟩]
    let us : List (List Char) :=
      [bracketText [.metaKey, .super] ['É'], bracketText [.control] ['-'],
        bracketText [.alt, .shift] ['l', 't'], bracketText [] ['E', 's', 'c']]
    List.Forall₂ Stroke.Bracket ks us ∧ String.ofList us.flatten = "<M-É><C--><S-A-lt><Esc>" ∧
      parse "<M-É><C--><S-A-lt><Esc>" = .ok (ks.map Stroke.press) ∧
      ks.map Stroke.press =
        [⟨"É", true, false, false, true⟩, ⟨"-", false, true, false, false⟩,
          ⟨"<", true, false, true, false⟩, ⟨"Escape", false, false, false, false⟩] := by
  intro ks us
  have hks : List.Forall₂ Stroke.Bracket ks us := by
    refine .cons ⟨_, .char ?_ ?_, rfl⟩ (.cons ⟨_, .char ?_ ?_, rfl⟩
      (.cons ⟨_, .lt ?_, rfl⟩ (.cons ⟨_, .key .escape ?_, rfl⟩ .nil)))
    all_goals decide
  have htext : String.ofList us.flatten = "<M-É><C--><S-A-lt><Esc>" := by decide
  have hread := (notation_agrees_terminal.2.2 ks us hks).1
  rw [htext] at hread
  exact ⟨hks, htext, hread, by decide⟩

end ModalInput.Terminal
