import Mathlib.Data.List.Basic
import ModalInput.Proofs.EmittedKeys

/-!
# The text of a recording

The text of a recording tells every list of calls from every other.  It is made of parts with a
character between them that stands in none of the parts, on each of its levels: lines, the two words
of a line, the names held together in a chord, and the two ends of a selection.  So the parts can
be told from the text, level by level.

    [x].intercalate us = [x].intercalate vs → us = vs                    (intercalate_inj)
    r.text = q.text → r.calls = q.calls                                    (text_tells_calls)
-/

namespace ModalInput

/-! ## Parts of a text -/

/-- No part holds the character that stands between them. -/
def FreeOf (x : Char) (us : List (List Char)) : Prop := ∀ u ∈ us, x ∉ u

theorem intercalate_inj {x : Char} {us vs : List (List Char)} (hu : FreeOf x us) (hv : FreeOf x vs)
    (hune : us ≠ []) (hvne : vs ≠ []) (h : [x].intercalate us = [x].intercalate vs) : us = vs := by
  rw [← List.splitOn_intercalate x hu hune, h, List.splitOn_intercalate x hv hvne]

/-- Rows may be empty here, but parts may not, since a row of one empty part looks like no row. -/
theorem intercalate_inj_of_ne_nil {x : Char} {us vs : List (List Char)} (hu : FreeOf x us)
    (hv : FreeOf x vs) (hus : [] ∉ us) (hvs : [] ∉ vs)
    (h : [x].intercalate us = [x].intercalate vs) : us = vs := by
  have hblank {ws : List (List Char)} (hw : FreeOf x ws) (hws : [] ∉ ws)
      (hnil : [x].intercalate ws = []) : ws = [] := by
    by_contra hne
    have hone : FreeOf x [[]] := fun u hu => by simp [List.mem_singleton.1 hu]
    have hsame := intercalate_inj hw hone hne (by simp) (hnil.trans rfl)
    rw [hsame] at hws
    exact hws List.mem_cons_self
  by_cases hune : us = []
  · rw [hune] at h ⊢
    exact (hblank hv hvs h.symm).symm
  · by_cases hvne : vs = []
    · rw [hvne] at h
      exact absurd (hblank hu hus h) hune
    · exact intercalate_inj hu hv hune hvne h

/-- What stands in no part and not between them does not stand in the text. -/
theorem not_mem_intercalate {x y : Char} {us : List (List Char)} (h : FreeOf y us) (hne : y ≠ x) :
    y ∉ [x].intercalate us := by
  induction us with
  | nil => exact List.not_mem_nil
  | cons u us ih =>
    have hu : y ∉ u := h u List.mem_cons_self
    have hrest := ih fun v hv => h v (List.mem_cons_of_mem u hv)
    cases us with
    | nil =>
      rw [List.intercalate_singleton]
      exact hu
    | cons v us =>
      rw [List.intercalate_cons_cons, List.mem_append, List.mem_append, List.mem_singleton]
      rintro ((hy | hy) | hy)
      · exact hu hy
      · exact hne hy
      · exact hrest hy

/-- A part made of characters of one kind holds no character of another. -/
theorem not_mem_of_all {p : Char → Bool} {u : List Char} (h : u.all p = true) {x : Char}
    (hx : p x = false) : x ∉ u := by
  intro hmem
  rw [List.all_eq_true.1 h x hmem] at hx
  cases hx

/-! ## Selections -/

/-- The ends of a selection, with two points between them. -/
def Span.parts (r : Span) : List (List Char) := [Text.digits r.start, [], Text.digits r.stop]

theorem Span.toList_text (r : Span) : r.text.toList = ['.'].intercalate r.parts := by
  unfold Span.text Text.decimal parts
  simp only [String.toList_append, String.toList_ofList, List.intercalate_cons_cons,
    List.intercalate_singleton, List.append_assoc]
  rfl

theorem Span.freeOf_parts (r : Span) {y : Char} (hy : y.isDigit = false) : FreeOf y r.parts := by
  intro u hu
  simp only [parts, List.mem_cons, List.not_mem_nil, or_false] at hu
  rcases hu with rfl | rfl | rfl
  · exact not_mem_of_all (Text.isDigit_digits _) hy
  · exact List.not_mem_nil
  · exact not_mem_of_all (Text.isDigit_digits _) hy

theorem Span.text_inj {r q : Span} (h : r.text = q.text) : r = q := by
  have hlist := congrArg String.toList h
  rw [toList_text, toList_text] at hlist
  have hparts : r.parts = q.parts :=
    intercalate_inj (r.freeOf_parts (by decide)) (q.freeOf_parts (by decide)) (by simp [parts])
      (by simp [parts]) hlist
  simp only [parts, List.cons.injEq, true_and, and_true] at hparts
  cases r
  cases q
  rw [Span.mk.injEq]
  exact ⟨Text.digits_inj hparts.1, Text.digits_inj hparts.2⟩

/-! ## Keys -/

/-- The keys with a name. -/
def KeyCap.named : List KeyCap :=
  [.backspace, .enter, .escape, .space, .end, .home, .left, .up, .right, .down, .delete]

namespace KeyCap

theorem mem_named {k : KeyCap} (h : k.isNamed = true) : k ∈ named := by
  cases k with
  | letter | digit => cases h
  | _ => decide

theorem named_text : ∀ k ∈ named, k.text.toList.length ≠ 1 ∧
    k.text.toList.all Char.isAlphanum = true := by
  decide

theorem named_text_inj : ∀ k ∈ named, ∀ l ∈ named, k.text = l.text → k = l := by
  decide

theorem isAlpha_toLower {c : Char} (h : c.isAlpha = true) : c.toLower.isAlpha = true := by
  rw [Text.isAlpha_iff] at h ⊢
  rw [Text.toNat_toLower]
  split <;> omega

theorem isDigit_of_isAlpha {c : Char} (h : c.isAlpha = true) : c.isDigit = false := by
  unfold Char.isAlpha Char.isUpper Char.isLower at h
  unfold Char.isDigit
  simp [UInt32.le_iff_toNat_le] at *
  omega

/-- A key that exists has a name, or is one of a letter or of a digit. -/
theorem Genuine.cases {k : KeyCap} (h : k.Genuine) :
    k ∈ named ∨ ∃ c, k.text = String.singleton c ∧
      (c.isAlpha = true ∧ k = .letter c ∨ c.isDigit = true ∧ k = .digit c) := by
  rcases h with h | ⟨c, hc⟩
  · exact Or.inl (mem_named h)
  · unfold ofChar? at hc
    split_ifs at hc with hspace halpha hdigit
    · cases hc
      exact Or.inl (by decide)
    · cases hc
      exact Or.inr ⟨_, rfl, Or.inl ⟨isAlpha_toLower halpha, rfl⟩⟩
    · cases hc
      exact Or.inr ⟨_, rfl, Or.inr ⟨hdigit, rfl⟩⟩

theorem Genuine.isAlphanum {k : KeyCap} (h : k.Genuine) :
    k.text.toList.all Char.isAlphanum = true := by
  rcases h.cases with hk | ⟨c, ht, hc⟩
  · exact (named_text k hk).2
  · rw [ht, String.toList_singleton, List.all_cons, List.all_nil, Bool.and_true]
    unfold Char.isAlphanum
    rcases hc with ⟨hc, -⟩ | ⟨hc, -⟩ <;> rw [hc]
    · rfl
    · exact Bool.or_true _

/-- Only a letter and a digit are written as one character, and no character is both. -/
theorem Genuine.text_inj {k l : KeyCap} (hk : k.Genuine) (hl : l.Genuine)
    (h : k.text = l.text) : k = l := by
  rcases hk.cases with hk | ⟨c, hkt, hc⟩
  · rcases hl.cases with hl | ⟨d, hlt, -⟩
    · exact named_text_inj k hk l hl h
    · have hlen := (named_text k hk).1
      rw [h, hlt, String.toList_singleton] at hlen
      exact absurd rfl hlen
  · rcases hl.cases with hl | ⟨d, hlt, hd⟩
    · have hlen := (named_text l hl).1
      rw [← h, hkt, String.toList_singleton] at hlen
      exact absurd rfl hlen
    · rw [hkt, hlt] at h
      cases String.singleton_inj.1 h
      rcases hc with ⟨hc, rfl⟩ | ⟨hc, rfl⟩ <;> rcases hd with ⟨hd, rfl⟩ | ⟨hd, rfl⟩
      · rfl
      · rw [isDigit_of_isAlpha hc] at hd
        cases hd
      · rw [isDigit_of_isAlpha hd] at hc
        cases hc
      · rfl

end KeyCap

/-! ## Chords -/

/-- The names of the modifiers held. -/
def Held.words (h : Held) : List (List Char) :=
  (if h.control then ["ctrl".toList] else []) ++ (if h.shift then ["shift".toList] else [])

theorem Held.words_inj {h k : Held} (e : h.words = k.words) : h = k := by
  obtain ⟨a, b⟩ := h
  obtain ⟨c, d⟩ := k
  revert a b c d
  decide

theorem Held.isAlphanum_words (h : Held) : ∀ u ∈ h.words, u.all Char.isAlphanum = true := by
  obtain ⟨a, b⟩ := h
  revert a b
  decide

/-- A plus stands behind each name. -/
theorem Held.toList_text_append (h : Held) (u : List Char) :
    h.text.toList ++ u = ['+'].intercalate (h.words ++ [u]) := by
  obtain ⟨shift, control⟩ := h
  cases shift <;> cases control <;> simp [text, words]

/-- The names held and the key, with a plus between them. -/
def Chord.words (c : Chord) : List (List Char) := c.held.words ++ [c.key.text.toList]

theorem Chord.toList_text (c : Chord) : c.text.toList = ['+'].intercalate c.words := by
  unfold text
  rw [String.toList_append]
  exact c.held.toList_text_append _

theorem Chord.freeOf_words {c : Chord} (hc : c.key.Genuine) {y : Char} (hy : y.isAlphanum = false) :
    FreeOf y c.words := by
  intro u hu
  rcases List.mem_append.1 hu with hu | hu
  · exact not_mem_of_all (c.held.isAlphanum_words u hu) hy
  · rw [List.mem_singleton.1 hu]
    exact not_mem_of_all hc.isAlphanum hy

theorem Chord.text_inj {c d : Chord} (hc : c.key.Genuine) (hd : d.key.Genuine)
    (h : c.text = d.text) : c = d := by
  have hlist := congrArg String.toList h
  rw [toList_text, toList_text] at hlist
  have hwords : c.words = d.words :=
    intercalate_inj (freeOf_words hc (by decide)) (freeOf_words hd (by decide)) (by simp [words])
      (by simp [words]) hlist
  obtain ⟨hheld, hkey⟩ := List.append_inj' hwords rfl
  have hname : c.key.text = d.key.text := String.toList_inj.1 (List.singleton_inj.1 hkey)
  cases c
  cases d
  rw [Chord.mk.injEq]
  exact ⟨hc.text_inj hd hname, Held.words_inj hheld⟩

/-! ## Lines -/

theorem Action.name_inj {a b : Action} (h : a.name = b.name) : a = b := by
  cases a <;> cases b <;> first | rfl | exact absurd h (by decide)

theorem Action.isAlphanum_name (a : Action) : a.name.toList.all Char.isAlphanum = true := by
  cases a <;> decide

namespace Call

/-- What is asked for, and of what. -/
def words : Call Span → List (List Char)
  | .type c => ["emit".toList, c.text.toList]
  | .perform a => ["perform".toList, a.name.toList]
  | .restore r => ["restore".toList, r.text.toList]

theorem toList_text (c : Call Span) : c.text.toList = [' '].intercalate c.words := by
  cases c <;> simp [text, words]

theorem text_ne_nil (c : Call Span) : c.text.toList ≠ [] := by
  cases c <;> simp [text]

theorem words_ne_nil (c : Call Span) : c.words ≠ [] := by
  cases c <;> simp [words]

/-- The words are made of letters, digits, the plus of a chord and the points of a selection. -/
theorem freeOf_words {c : Call Span} (hc : c.Genuine) {y : Char} (hy : y.isAlphanum = false)
    (hplus : y ≠ '+') (hpoint : y ≠ '.') : FreeOf y c.words := by
  have hpair {v w : List Char} (hv : v.all Char.isAlphanum = true) (hw : y ∉ w) :
      FreeOf y [v, w] := by
    intro u hu
    simp only [List.mem_cons, List.not_mem_nil, or_false] at hu
    rcases hu with rfl | rfl
    · exact not_mem_of_all hv hy
    · exact hw
  have hdigit : y.isDigit = false := (Bool.or_eq_false_iff.1 hy).2
  cases c with
  | type chord =>
    refine hpair (by decide) ?_
    rw [chord.toList_text]
    exact not_mem_intercalate (Chord.freeOf_words hc hy) hplus
  | perform a => exact hpair (by decide) (not_mem_of_all a.isAlphanum_name hy)
  | restore r =>
    refine hpair (by decide) ?_
    rw [r.toList_text]
    exact not_mem_intercalate (r.freeOf_parts hdigit) hpoint

theorem lineFeed_not_mem_text {c : Call Span} (hc : c.Genuine) : '\n' ∉ c.text.toList := by
  rw [toList_text]
  exact not_mem_intercalate (freeOf_words hc (by decide) (by decide) (by decide)) (by decide)

theorem text_inj {c d : Call Span} (hc : c.Genuine) (hd : d.Genuine)
    (h : c.text.toList = d.text.toList) : c = d := by
  rw [toList_text, toList_text] at h
  have hwords : c.words = d.words :=
    intercalate_inj (freeOf_words hc (by decide) (by decide) (by decide))
      (freeOf_words hd (by decide) (by decide) (by decide)) c.words_ne_nil d.words_ne_nil h
  cases c with
  | type a =>
    cases d with
    | type b =>
      simp only [words, List.cons.injEq, true_and, and_true, String.toList_inj] at hwords
      rw [Chord.text_inj hc hd hwords]
    | perform | restore => exact absurd (List.head_eq_of_cons_eq hwords) (by decide)
  | perform a =>
    cases d with
    | perform b =>
      simp only [words, List.cons.injEq, true_and, and_true, String.toList_inj] at hwords
      rw [Action.name_inj hwords]
    | type | restore => exact absurd (List.head_eq_of_cons_eq hwords) (by decide)
  | restore r =>
    cases d with
    | restore q =>
      simp only [words, List.cons.injEq, true_and, and_true, String.toList_inj] at hwords
      rw [Span.text_inj hwords]
    | type | perform => exact absurd (List.head_eq_of_cons_eq hwords) (by decide)

end Call

/-! ## Recordings -/

theorem calls_eq_of_texts {cs ds : List (Call Span)} (hc : AllGenuine cs) (hd : AllGenuine ds)
    (h : cs.map (fun c => c.text.toList) = ds.map (fun c => c.text.toList)) : cs = ds := by
  induction cs generalizing ds with
  | nil => exact (List.map_eq_nil_iff.1 h.symm).symm
  | cons c cs ih =>
    cases ds with
    | nil => cases h
    | cons d ds =>
      rw [List.map_cons, List.map_cons, List.cons.injEq] at h
      have hc := List.forall_mem_cons.1 hc
      have hd := List.forall_mem_cons.1 hd
      rw [Call.text_inj hc.1 hd.1 h.1, ih hc.2 hd.2 h.2]

namespace Recording

theorem toList_text (r : Recording) :
    r.text.toList = ['\n'].intercalate (r.calls.map fun c => c.text.toList) := by
  unfold text
  rw [String.toList_intercalate, List.map_map]
  rfl

theorem text_inj {r q : Recording} (hr : AllGenuine r.calls) (hq : AllGenuine q.calls)
    (h : r.text = q.text) : r.calls = q.calls := by
  have hfree {r : Recording} (hr : AllGenuine r.calls) :
      FreeOf '\n' (r.calls.map fun c => c.text.toList) := by
    intro u hu
    obtain ⟨c, hc, rfl⟩ := List.mem_map.1 hu
    exact Call.lineFeed_not_mem_text (hr c hc)
  have hblank (r : Recording) : [] ∉ r.calls.map fun c => c.text.toList := by
    intro hu
    obtain ⟨c, -, hc⟩ := List.mem_map.1 hu
    exact c.text_ne_nil hc
  have hlist := congrArg String.toList h
  rw [toList_text, toList_text] at hlist
  exact calls_eq_of_texts hr hq
    (intercalate_inj_of_ne_nil (hfree hr) (hfree hq) (hblank r) (hblank q) hlist)

end Recording

/-- **The text of a recording.**  Calls of keys that exist can be told from their text, whatever the
modifiers, the actions and the ends of selections.  All that inputs add to a recording are such
calls, so two recordings that began empty have one text only if they hold the same calls. -/
theorem text_tells_calls :
    (∀ r q : Recording, AllGenuine r.calls → AllGenuine q.calls → r.text = q.text →
      r.calls = q.calls) ∧
    (∀ (s : Session) (is : List Input), s.surface.calls = [] →
      AllGenuine (s.stepAll is).surface.calls) ∧
    ∀ (s t : Session) (is js : List Input), s.surface.calls = [] → t.surface.calls = [] →
      (s.stepAll is).surface.text = (t.stepAll js).surface.text →
        (s.stepAll is).surface.calls = (t.stepAll js).surface.calls := by
  have hrun : ∀ (s : Session) (is : List Input), s.surface.calls = [] →
      AllGenuine (s.stepAll is).surface.calls := by
    intro s is hs
    refine Session.genuine_stepAll ?_ is
    rw [hs]
    exact allGenuine_nil
  refine ⟨fun r q hr hq h => Recording.text_inj hr hq h, hrun, fun s t is js hs ht h => ?_⟩
  exact Recording.text_inj (hrun s is hs) (hrun t js ht) h

/-- Two runs that set and use marks under different names, and the find box, whose key is that of a
letter. -/
theorem text_tells_calls_marks :
    let s := Session.new .default .new
    let is : List Input := "ma'a/".toList.map fun c => .press (.ofChar c)
    let js : List Input := "mb'b/".toList.map fun c => .press (.ofChar c)
    let q : Recording :=
      { Recording.new with
        calls := [.restore ⟨0, 0⟩, .type (.plain .home), .type (.control (.letter 'f'))] }
    (s.stepAll is).surface.text = "restore 0..0\nemit home\nemit ctrl+f" ∧
      (s.stepAll is).surface.calls = (s.stepAll js).surface.calls ∧
      AllGenuine q.calls ∧ (s.stepAll is).surface.calls = q.calls := by
  intro s is js q
  -- Numerals are worked out by a recursion that only the kernel follows.
  have htext : (s.stepAll is).surface.text = "restore 0..0\nemit home\nemit ctrl+f" := by
    decide +kernel
  have hother : (s.stepAll js).surface.text = "restore 0..0\nemit home\nemit ctrl+f" := by
    decide +kernel
  have hq : AllGenuine q.calls := by
    refine List.forall_mem_cons.2 ⟨trivial, List.forall_mem_cons.2 ⟨Or.inl rfl, ?_⟩⟩
    exact List.forall_mem_cons.2 ⟨Or.inr ⟨'F', by decide⟩, allGenuine_nil⟩
  obtain ⟨hcalls, hrun, hruns⟩ := text_tells_calls
  refine ⟨htext, hruns s s is js rfl rfl (htext.trans hother.symm), hq, ?_⟩
  exact hcalls _ q (hrun s is rfl) hq (htext.trans (by decide +kernel))

/-- A digit on the key of a letter would not show. -/
example : Call.text (.type (.plain (.letter '1'))) = Call.text (.type (.plain (.digit '1'))) := by
  decide

end ModalInput
