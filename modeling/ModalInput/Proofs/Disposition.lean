import ModalInput.Proofs.Run

/-!
# What is kept from the host

The presses that are suppressed, by the mode and by what the host says of the press.  All others
pass, and a press that passes changes nothing: a run comes to the same without them.

    disposition keys m p = .suppress ↔ p.Suppressed keys m            (disposition_eq_suppress_iff)
    s.stepAll (s.withoutPassed is) = s.stepAll is                      (stepAll_withoutPassed)
-/

namespace ModalInput

/-! ## Definitions -/

/-- No modifier is held but shift. -/
def Press.Free (p : Press) : Prop := p.control = false ∧ p.alt = false ∧ p.super = false

def Press.IsEscape (p : Press) : Prop := p.name = "Escape" ∨ p.name = "Esc"

/-- The presses that the interpreter keeps from the host in each mode. -/
def Press.Suppressed (keys : KeySettings) (p : Press) : Mode → Prop
  | .insert =>
    p.name = String.singleton keys.oneShot ∧ p.control = true ∧ p.alt = false ∧ p.super = false ∨
      p.IsEscape ∧ p.Free
  | .search => p.IsEscape ∨ p.name = "Enter"
  | _ => p.Free ∧ p.name ∉ modifierNames

/-- The inputs without the presses that pass when their turn comes. -/
def Session.withoutPassed (s : Session) : List Input → List Input
  | [] => []
  | i :: is =>
    if (s.answer i).disposition = some .pass then (s.step i).withoutPassed is
    else i :: (s.step i).withoutPassed is

/-! ## Names of keys -/

namespace Key

theorem ofName_eq_char_iff (name : String) (c : Char) :
    ofName name = .char c ↔ name = String.singleton c := by
  constructor
  · intro h
    unfold ofName at h
    split at h
    · next d hd =>
      cases h
      rw [← String.ofList_toList (s := name), hd]
      rfl
    · split_ifs at h
  · rintro rfl
    unfold ofName
    rw [String.toList_singleton]

theorem ofName_eq_escape_iff (name : String) :
    ofName name = .escape ↔ name = "Escape" ∨ name = "Esc" := by
  constructor
  · intro h
    unfold ofName at h
    split at h
    · cases h
    · split_ifs at h with he
      exact he
  · rintro (rfl | rfl) <;> rfl

theorem ofName_eq_enter_iff (name : String) : ofName name = .enter ↔ name = "Enter" := by
  constructor
  · intro h
    unfold ofName at h
    split at h
    · cases h
    · split_ifs at h with _ hn
      exact hn
  · rintro rfl
    rfl

theorem ofName_eq_modifier_iff (name : String) :
    ofName name = .modifier ↔ name ∈ modifierNames := by
  constructor
  · intro h
    unfold ofName at h
    split at h
    · cases h
    · split_ifs at h with _ _ hm
      exact hm
  · intro h
    unfold modifierNames at h
    simp only [List.mem_cons, List.not_mem_nil, or_false] at h
    rcases h with rfl | rfl | rfl | rfl | rfl | rfl | rfl | rfl <;> rfl

end Key

/-! ## What is suppressed -/

variable (keys : KeySettings) (m : Mode) (p : Press)

theorem Press.hasHostModifier_eq_false_iff : p.hasHostModifier = false ↔ p.Free := by
  unfold hasHostModifier Free
  simp only [Bool.or_eq_false_iff, and_assoc]

theorem KeySettings.isOneShot_iff :
    keys.isOneShot p = true ↔
      p.name = String.singleton keys.oneShot ∧ p.control = true ∧ p.alt = false ∧
        p.super = false := by
  unfold isOneShot
  simp only [Bool.and_eq_true, Bool.not_eq_true', decide_eq_true_eq, Press.key,
    Key.ofName_eq_char_iff]
  tauto

theorem intake_ne_pass_iff :
    intake keys m p ≠ .pass ↔
      (m = .insert ∧ keys.isOneShot p = true) ∨
        (m = .search ∧ (p.key = .escape ∨ p.key = .enter)) ∨
        (m ≠ .search ∧ p.hasHostModifier = false ∧ p.key = .escape) ∨
        (m ≠ .search ∧ m ≠ .insert ∧ p.Plain) := by
  rw [← intake_eq_oneShot_iff, ← intake_eq_closeFind_iff, ← intake_eq_escape_iff keys]
  have hkey : intake keys m p = .key p.key ↔ m ≠ .search ∧ m ≠ .insert ∧ p.Plain := by
    rw [intake_eq_key_iff]
    tauto
  rw [← hkey]
  constructor
  · intro h
    have ht := taken_intake keys m p
    generalize intake keys m p = i at h ht ⊢
    cases ht with
    | find | host | insert => exact absurd rfl h
    | oneShot => exact Or.inl rfl
    | closeFind => exact Or.inr (Or.inl rfl)
    | escape => exact Or.inr (Or.inr (Or.inl rfl))
    | key => exact Or.inr (Or.inr (Or.inr rfl))
  · intro h
    rcases h with h | h | h | h <;> rw [h] <;> exact Intake.noConfusion

/-- Outside Insert mode and the find box, Escape is taken like any other key. -/
theorem Press.escape_or_plain_iff :
    (p.hasHostModifier = false ∧ p.key = .escape) ∨ p.Plain ↔
      p.Free ∧ p.name ∉ modifierNames := by
  unfold Plain
  rw [hasHostModifier_eq_false_iff, ← Key.ofName_eq_modifier_iff]
  constructor
  · rintro (⟨hf, he⟩ | ⟨hf, -, hm⟩)
    · exact ⟨hf, fun hm => by cases he.symm.trans hm⟩
    · exact ⟨hf, hm⟩
  · rintro ⟨hf, hm⟩
    by_cases he : p.key = .escape
    · exact Or.inl ⟨hf, he⟩
    · exact Or.inr ⟨hf, he, hm⟩

theorem disposition_eq_suppress_iff :
    disposition keys m p = .suppress ↔ p.Suppressed keys m := by
  have hd : disposition keys m p = .suppress ↔ intake keys m p ≠ .pass := by
    rw [ne_eq, ← disposition_eq_pass_iff]
    cases disposition keys m p <;> simp
  have hescape : p.key = .escape ↔ p.IsEscape := Key.ofName_eq_escape_iff p.name
  have henter : p.key = .enter ↔ p.name = "Enter" := Key.ofName_eq_enter_iff p.name
  rw [hd, intake_ne_pass_iff]
  unfold Press.Suppressed
  cases m with
  | insert =>
    rw [KeySettings.isOneShot_iff, Press.hasHostModifier_eq_false_iff, hescape]
    simp [and_comm]
  | search =>
    rw [hescape, henter]
    simp
  | _ =>
    rw [← Press.escape_or_plain_iff]
    simp

/-! ## Presses that pass -/

namespace Session

theorem stepAll_withoutPassed (s : Session) (is : List Input) :
    s.stepAll (s.withoutPassed is) = s.stepAll is := by
  induction is generalizing s with
  | nil => rfl
  | cons i is ih =>
    show _ = (s.step i).stepAll is
    unfold withoutPassed
    split_ifs with h
    · have hstep : s.step i = s := by
        cases i with
        | press p => exact s.step_of_pass p (Option.some.inj h)
        | _ => cases h
      rw [hstep]
      exact ih s
    · exact ih _

/-- **Dispositions.**  The suppressed presses of each mode are those of the table; any other press
leaves the whole session as it is, so that a run comes to the same without the presses that pass. -/
theorem suppressed_or_unchanged (s : Session) :
    (∀ p, (s.answer (.press p)).disposition = some .suppress ↔
      p.Suppressed s.config.keys s.state.mode) ∧
    (∀ p, (s.answer (.press p)).disposition = some .pass → s.step (.press p) = s) ∧
    ∀ is, s.stepAll (s.withoutPassed is) = s.stepAll is := by
  refine ⟨fun p => ?_, fun p h => s.step_of_pass p (Option.some.inj h), s.stepAll_withoutPassed⟩
  rw [← disposition_eq_suppress_iff]
  exact Option.some_inj

/-- In Insert mode a letter goes to the host, and the run that leaves it out comes to the same. -/
theorem suppressed_or_unchanged_insert :
    let s : Session := ⟨.default, { State.initial with mode := .insert }, .new⟩
    (s.answer (.press ((Press.ofChar 'o').hold .control))).disposition = some .suppress ∧
      (s.answer (.press (.ofChar 'x'))).disposition = some .pass ∧
      s.step (.press (.ofChar 'x')) = s ∧
      s.stepAll [.press (.ofName "Escape")] =
        s.stepAll [.press (.ofChar 'x'), .press (.ofName "Escape")] := by
  intro s
  have hlaw := suppressed_or_unchanged s
  have hpass : (s.answer (.press (.ofChar 'x'))).disposition = some .pass := by decide
  exact ⟨(hlaw.1 _).2 (Or.inl (by decide)), hpass, hlaw.2.1 _ hpass,
    hlaw.2.2 [.press (.ofChar 'x'), .press (.ofName "Escape")]⟩

end Session

end ModalInput
