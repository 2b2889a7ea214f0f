import ModalInput.Proofs.JsonText
import ModalInput.Replay

/-!
# The lines of a replay

What stands on the line of an item, letter by letter.  In text that is the name of a press, a call
in words, or the text of an announcement; in JSON it is all that the item holds.  A string in JSON
has an escape for the quote, the backslash and the control characters, and for no other character.

    Line json i l ↔ (if json then i.toJson.render else i.text) = l             (line_iff)
    Lines true is out → Lines true js out → is = js                             (lines_json_inj)
-/

namespace ModalInput.Replay

open Text

/-! ## Names -/

/-- The keys of a surface other than letters and digits. -/
def capNames : List (KeyCap × String) :=
  [(.backspace, "backspace"), (.enter, "enter"), (.escape, "esc"), (.space, "space"), (.end, "end"),
    (.home, "home"), (.left, "left"), (.up, "up"), (.right, "right"), (.down, "down"),
    (.delete, "delete")]

def actionNames : List (Action × String) :=
  [(.copy, "copy"), (.cut, "cut"), (.paste, "paste"), (.undo, "undo"), (.redo, "redo")]

def modeNames : List (Mode × String) :=
  [(.normal, "Normal"), (.insert, "Insert"), (.visual, "Visual"), (.visualLine, "VisualLine"),
    (.search, "Search"), (.operatorMotion, "WaitForOperatorMotion1"),
    (.operatorObject, "WaitForOperatorMotion2"), (.visualObject, "WaitForVisualTextObject")]

inductive CapText : KeyCap → String → Prop
  | letter (c : Char) : CapText (.letter c) (String.singleton c)
  | digit (c : Char) : CapText (.digit c) (String.singleton c)
  | named {k : KeyCap} {w : String} (h : (k, w) ∈ capNames) : CapText k w

/-- In JSON the escape key goes by its full name. -/
inductive CapJson : KeyCap → String → Prop
  | letter {c : Char} {t : String} (h : Quoted (String.singleton c) t) :
      CapJson (.letter c) (object [("letter", t)])
  | digit {c : Char} {t : String} (h : Quoted (String.singleton c) t) :
      CapJson (.digit c) (object [("digit", t)])
  | escape : CapJson .escape "\"escape\""
  | named {k : KeyCap} {w : String} (h : (k, w) ∈ capNames) (hk : k ≠ .escape) :
      CapJson k ("\"" ++ w ++ "\"")

/-! ## Lines -/

inductive TextLine : Item → String → Prop
  | pass (p : Press) : TextLine (.pass p) ("pass " ++ p.name)
  | emit {c : Chord} {w : String} (h : CapText c.key w) :
      TextLine (.call (.type c)) ("emit " ++ (if c.held.control then "ctrl+" else "") ++
        (if c.held.shift then "shift+" else "") ++ w)
  | perform {a : Action} {w : String} (h : (a, w) ∈ actionNames) :
      TextLine (.call (.perform a)) ("perform " ++ w)
  | restore (r : Span) :
      TextLine (.call (.restore r)) ("restore " ++ toString r.start ++ ".." ++ toString r.stop)
  | status (s : Status) : TextLine (.status s) ("-- " ++ s.text ++ " --")

inductive JsonLine : Item → String → Prop
  | pass {p : Press} {name : String} (h : Quoted p.name name) :
      JsonLine (.pass p) (object [("pass", object [("alt", toString p.alt),
        ("ctrl", toString p.control), ("key", name), ("meta", toString p.super),
        ("shift", toString p.shift)])])
  | emit {c : Chord} {key : String} (h : CapJson c.key key) :
      JsonLine (.call (.type c)) (object [("call", "\"emit\""), ("key", key),
        ("mods", object [("shift", toString c.held.shift), ("control", toString c.held.control)])])
  | perform {a : Action} {w : String} (h : (a, w) ∈ actionNames) :
      JsonLine (.call (.perform a)) (object [("call", "\"perform\""), ("action", "\"" ++ w ++ "\"")])
  | restore (r : Span) :
      JsonLine (.call (.restore r)) (object [("call", "\"restore_selection\""),
        ("range", object [("start", toString r.start), ("end", toString r.stop)])])
  | status {s : Status} {mode back fore text : String} (hmode : (s.mode, mode) ∈ modeNames)
      (hback : Quoted s.style.background back) (hfore : Quoted s.style.foreground fore)
      (htext : Quoted s.text text) :
      JsonLine (.status s) (object [("status", object [("caret_visible", toString s.caretVisible),
        ("mode", "\"" ++ mode ++ "\""),
        ("style", object [("background", back), ("foreground", fore)]), ("text", text)])])

/-- The line of an item, in JSON or in text. -/
def Line (json : Bool) (i : Item) (l : String) : Prop := if json then JsonLine i l else TextLine i l

/-- An output with the lines of these items, each with a line feed. -/
def Lines (json : Bool) (is : List Item) (out : String) : Prop :=
  ∃ ls, List.Forall₂ (Line json) is ls ∧ out = String.join (ls.map (· ++ "\n"))

/-! ## Names -/

/-- Every key but those of letters and digits is in the list, under its name. -/
theorem mem_capNames (k : KeyCap) :
    (∃ c, k = .letter c) ∨ (∃ c, k = .digit c) ∨ (k, k.text) ∈ capNames := by
  cases k with
  | letter c => exact Or.inl ⟨c, rfl⟩
  | digit c => exact Or.inr (Or.inl ⟨c, rfl⟩)
  | _ => exact Or.inr (Or.inr (by decide))

theorem capText_iff (k : KeyCap) (w : String) : CapText k w ↔ k.text = w := by
  constructor
  · intro h
    cases h with
    | letter | digit => rfl
    | named h =>
      have hall : ∀ e ∈ capNames, e.1.text = e.2 := by decide
      exact hall _ h
  · rintro rfl
    rcases mem_capNames k with ⟨c, rfl⟩ | ⟨c, rfl⟩ | h
    · exact .letter c
    · exact .digit c
    · exact .named h

theorem capJson_iff (k : KeyCap) (t : String) : CapJson k t ↔ k.toJson.render = t := by
  have hletter : ∀ c, (KeyCap.letter c).toJson.render =
      object [("letter", Json.quote (String.singleton c))] :=
    fun c => render_obj ["letter"] rfl (by decide)
  have hdigit : ∀ c, (KeyCap.digit c).toJson.render =
      object [("digit", Json.quote (String.singleton c))] :=
    fun c => render_obj ["digit"] rfl (by decide)
  have hnamed : ∀ e ∈ capNames, e.1 ≠ .escape →
      e.1.toJson.render = "\"" ++ e.2 ++ "\"" := by decide
  constructor
  · intro h
    cases h with
    | letter h => rw [hletter, (quoted_iff _ _).1 h]
    | digit h => rw [hdigit, (quoted_iff _ _).1 h]
    | escape => decide
    | named h hk => exact hnamed _ h hk
  · rintro rfl
    rcases mem_capNames k with ⟨c, rfl⟩ | ⟨c, rfl⟩ | h
    · rw [hletter]
      exact .letter ((quoted_iff _ _).2 rfl)
    · rw [hdigit]
      exact .digit ((quoted_iff _ _).2 rfl)
    · by_cases hk : k = .escape
      · subst hk
        exact .escape
      · rw [hnamed _ h hk]
        exact .named h hk

theorem mem_actionNames (a : Action) (w : String) : (a, w) ∈ actionNames ↔ a.name = w := by
  cases a <;> simp [actionNames, Action.name, eq_comm]

theorem mem_modeNames (m : Mode) (w : String) : (m, w) ∈ modeNames ↔ m.name = w := by
  cases m <;> simp [modeNames, Mode.name, eq_comm]

theorem quote_actionName (a : Action) : Json.quote a.name = "\"" ++ a.name ++ "\"" := by
  cases a <;> exact quote_of_isPlain (by decide)

theorem quote_modeName (m : Mode) : Json.quote m.name = "\"" ++ m.name ++ "\"" := by
  cases m <;> exact quote_of_isPlain (by decide)

/-! ## Lines of text -/

theorem text_emit (c : Chord) :
    (Item.call (.type c)).text = "emit " ++ (if c.held.control then "ctrl+" else "") ++
      (if c.held.shift then "shift+" else "") ++ c.key.text := by
  show "emit " ++ (_ ++ _ ++ _) = _
  rw [← String.append_assoc, ← String.append_assoc]

theorem text_restore (r : Span) :
    (Item.call (.restore r)).text = "restore " ++ toString r.start ++ ".." ++ toString r.stop := by
  show "restore " ++ (decimal r.start ++ ".." ++ decimal r.stop) = _
  rw [decimal_eq_toString, decimal_eq_toString, ← String.append_assoc, ← String.append_assoc]

theorem textLine_iff (i : Item) (l : String) : TextLine i l ↔ i.text = l := by
  constructor
  · intro h
    cases h with
    | pass | status => rfl
    | emit h => rw [text_emit, (capText_iff _ _).1 h]
    | perform h =>
      rw [← (mem_actionNames _ _).1 h]
      rfl
    | restore r => exact text_restore r
  · rintro rfl
    cases i with
    | pass p => exact .pass p
    | status s => exact .status s
    | call c =>
      cases c with
      | type c =>
        rw [text_emit]
        exact .emit ((capText_iff _ _).2 rfl)
      | perform a => exact .perform ((mem_actionNames _ _).2 rfl)
      | restore r =>
        rw [text_restore]
        exact .restore r

/-! ## Lines of JSON -/

theorem render_pass (p : Press) :
    (Item.pass p).toJson.render = object [("pass", object [("alt", toString p.alt),
      ("ctrl", toString p.control), ("key", Json.quote p.name), ("meta", toString p.super),
      ("shift", toString p.shift)])] := by
  unfold Item.toJson
  rw [render_obj ["pass"] rfl (by decide), List.map_singleton,
    render_obj ["alt", "ctrl", "key", "meta", "shift"] rfl (by decide)]
  simp only [List.map_cons, List.map_nil, render_bool, render_str]

theorem render_emit (c : Chord) :
    (Item.call (.type c)).toJson.render = object [("call", "\"emit\""),
      ("key", c.key.toJson.render),
      ("mods", object [("shift", toString c.held.shift),
        ("control", toString c.held.control)])] := by
  have hemit : Json.quote "emit" = "\"emit\"" := by decide
  have hmods : c.held.toJson.render =
      object [("shift", toString c.held.shift), ("control", toString c.held.control)] := by
    unfold Held.toJson
    rw [render_obj ["shift", "control"] rfl (by decide)]
    simp only [List.map_cons, List.map_nil, render_bool]
  unfold Item.toJson Call.toJson
  rw [render_obj ["call", "key", "mods"] rfl (by decide)]
  simp only [List.map_cons, List.map_nil, render_str, hemit, hmods]

theorem render_perform (a : Action) :
    (Item.call (.perform a)).toJson.render =
      object [("call", "\"perform\""), ("action", "\"" ++ a.name ++ "\"")] := by
  have hperform : Json.quote "perform" = "\"perform\"" := by decide
  unfold Item.toJson Call.toJson
  rw [render_obj ["call", "action"] rfl (by decide)]
  simp only [List.map_cons, List.map_nil, render_str, hperform, quote_actionName]

theorem render_restore (r : Span) :
    (Item.call (.restore r)).toJson.render = object [("call", "\"restore_selection\""),
      ("range", object [("start", toString r.start), ("end", toString r.stop)])] := by
  have hrestore : Json.quote "restore_selection" = "\"restore_selection\"" := by decide
  unfold Item.toJson Call.toJson
  rw [render_obj ["call", "range"] rfl (by decide)]
  simp only [List.map_cons, List.map_nil, render_str, hrestore]
  rw [render_obj ["start", "end"] rfl (by decide)]
  simp only [List.map_cons, List.map_nil, render_nat]

theorem render_status (s : Status) :
    (Item.status s).toJson.render =
      object [("status", object [("caret_visible", toString s.caretVisible),
        ("mode", "\"" ++ s.mode.name ++ "\""),
        ("style", object [("background", Json.quote s.style.background),
          ("foreground", Json.quote s.style.foreground)]),
        ("text", Json.quote s.text)])] := by
  have hstyle : (styleJson s.style).render =
      object [("background", Json.quote s.style.background),
        ("foreground", Json.quote s.style.foreground)] :=
    render_obj ["background", "foreground"] rfl (by decide)
  unfold Item.toJson
  rw [render_obj ["status"] rfl (by decide), List.map_singleton,
    render_obj ["caret_visible", "mode", "style", "text"] rfl (by decide)]
  simp only [List.map_cons, List.map_nil, render_bool, render_str, hstyle, quote_modeName]

theorem jsonLine_iff (i : Item) (l : String) : JsonLine i l ↔ i.toJson.render = l := by
  constructor
  · intro h
    cases h with
    | pass h => rw [render_pass, (quoted_iff _ _).1 h]
    | emit h => rw [render_emit, (capJson_iff _ _).1 h]
    | perform h => rw [render_perform, (mem_actionNames _ _).1 h]
    | restore r => exact render_restore r
    | status hmode hback hfore htext =>
      rw [render_status, (mem_modeNames _ _).1 hmode, (quoted_iff _ _).1 hback,
        (quoted_iff _ _).1 hfore, (quoted_iff _ _).1 htext]
  · rintro rfl
    cases i with
    | pass p =>
      rw [render_pass]
      exact .pass ((quoted_iff _ _).2 rfl)
    | status s =>
      rw [render_status]
      exact .status ((mem_modeNames _ _).2 rfl) ((quoted_iff _ _).2 rfl) ((quoted_iff _ _).2 rfl)
        ((quoted_iff _ _).2 rfl)
    | call c =>
      cases c with
      | type c =>
        rw [render_emit]
        exact .emit ((capJson_iff _ _).2 rfl)
      | perform a =>
        rw [render_perform]
        exact .perform ((mem_actionNames _ _).2 rfl)
      | restore r =>
        rw [render_restore]
        exact .restore r

/-! ## Outputs -/

theorem line_iff (json : Bool) (i : Item) (l : String) :
    Line json i l ↔ (if json then i.toJson.render else i.text) = l := by
  cases json with
  | true => exact jsonLine_iff i l
  | false => exact textLine_iff i l

/-- A format writes the lines of what it shows, and nothing else. -/
theorem lines_iff (f : Format) (is : List Item) (out : String) :
    Lines f.json is out ↔ String.join (is.map f.line) = out := by
  have hlines : (is.map fun i => if f.json then i.toJson.render else i.text).map (· ++ "\n") =
      is.map f.line := List.map_map
  unfold Lines
  constructor
  · rintro ⟨ls, hls, rfl⟩
    rw [forall₂_iff_map (line_iff f.json)] at hls
    rw [← hls, hlines]
  · rintro rfl
    exact ⟨_, (forall₂_iff_map (line_iff f.json) _ _).2 rfl, by rw [hlines]⟩

/-! ## Reading JSON back -/

/-- Only a letter or a digit has a tag. -/
theorem toJson_ne_obj {k : KeyCap} {w : String} (h : (k, w) ∈ capNames)
    (fs : List (String × Json)) : k.toJson ≠ .obj fs := by
  cases k with
  | letter | digit => simp [capNames] at h
  | _ => nofun

theorem tagged_inj {s t : String} {c d : Char}
    (h : Json.obj [(s, .str (String.singleton c))] = .obj [(t, .str (String.singleton d))]) :
    s = t ∧ c = d := by
  simp only [Json.obj.injEq, List.cons.injEq, Prod.mk.injEq, Json.str.injEq, and_true] at h
  exact ⟨h.1, String.singleton_inj.1 h.2⟩

theorem keyCap_toJson_inj {k l : KeyCap} (h : k.toJson = l.toJson) : k = l := by
  have hlist : ∀ e ∈ capNames, ∀ f ∈ capNames, e.1.toJson.render = f.1.toJson.render →
      e.1 = f.1 := by decide
  rcases mem_capNames k with ⟨c, rfl⟩ | ⟨c, rfl⟩ | hk
  · rcases mem_capNames l with ⟨d, rfl⟩ | ⟨d, rfl⟩ | hl
    · rw [(tagged_inj h).2]
    · exact absurd (tagged_inj h).1 (by decide)
    · exact absurd h.symm (toJson_ne_obj hl _)
  · rcases mem_capNames l with ⟨d, rfl⟩ | ⟨d, rfl⟩ | hl
    · exact absurd (tagged_inj h).1 (by decide)
    · rw [(tagged_inj h).2]
    · exact absurd h.symm (toJson_ne_obj hl _)
  · rcases mem_capNames l with ⟨d, rfl⟩ | ⟨d, rfl⟩ | hl
    · exact absurd h (toJson_ne_obj hk _)
    · exact absurd h (toJson_ne_obj hk _)
    · exact hlist _ hk _ hl (congrArg Json.render h)

theorem held_toJson_inj {h k : Held} (e : h.toJson = k.toJson) : h = k := by
  obtain ⟨a, b⟩ := h
  obtain ⟨c, d⟩ := k
  simp only [Held.toJson, Json.obj.injEq, List.cons.injEq, Prod.mk.injEq, Json.bool.injEq,
    true_and, and_true] at e
  rw [e.1, e.2]

theorem actionName_inj {a b : Action} (h : a.name = b.name) : a = b := by
  have hlist : ∀ e ∈ actionNames, ∀ f ∈ actionNames, e.2 = f.2 → e.1 = f.1 := by decide
  exact hlist _ ((mem_actionNames a _).2 rfl) _ ((mem_actionNames b _).2 rfl) h

theorem modeName_inj {m n : Mode} (h : m.name = n.name) : m = n := by
  have hlist : ∀ e ∈ modeNames, ∀ f ∈ modeNames, e.2 = f.2 → e.1 = f.1 := by decide
  exact hlist _ ((mem_modeNames m _).2 rfl) _ ((mem_modeNames n _).2 rfl) h

theorem call_toJson_inj {c d : Call Span} (h : c.toJson = d.toJson) : c = d := by
  cases c with
  | type a =>
    cases d with
    | type b =>
      simp only [Call.toJson, Json.obj.injEq, List.cons.injEq, Prod.mk.injEq, true_and,
        and_true] at h
      rw [Call.type.injEq]
      exact Chord.ext (keyCap_toJson_inj h.1) (held_toJson_inj h.2)
    | perform | restore => simp [Call.toJson] at h
  | perform a =>
    cases d with
    | perform b =>
      simp only [Call.toJson, Json.obj.injEq, List.cons.injEq, Prod.mk.injEq, Json.str.injEq,
        true_and, and_true] at h
      rw [actionName_inj h]
    | type | restore => simp [Call.toJson] at h
  | restore r =>
    cases d with
    | restore q =>
      simp only [Call.toJson, Json.obj.injEq, List.cons.injEq, Prod.mk.injEq, Json.nat.injEq,
        true_and, and_true] at h
      rw [Call.restore.injEq]
      exact Span.ext h.1 h.2
    | type | perform => simp [Call.toJson] at h

theorem passJson_inj {p q : Press} (h : (Item.pass p).toJson = (Item.pass q).toJson) : p = q := by
  simp only [Item.toJson, Json.obj.injEq, List.cons.injEq, Prod.mk.injEq, Json.bool.injEq,
    Json.str.injEq, true_and, and_true] at h
  obtain ⟨halt, hcontrol, hname, hsuper, hshift⟩ := h
  exact Press.ext hname hshift hcontrol halt hsuper

theorem statusJson_inj {s t : Status} (h : (Item.status s).toJson = (Item.status t).toJson) :
    s = t := by
  simp only [Item.toJson, styleJson, Json.obj.injEq, List.cons.injEq, Prod.mk.injEq,
    Json.bool.injEq, Json.str.injEq, true_and, and_true] at h
  obtain ⟨hcaret, hmode, ⟨hback, hfore⟩, htext⟩ := h
  exact Status.ext (modeName_inj hmode) htext hcaret (Style.ext hback hfore)

/-- The name of the first field. -/
def tag : Item → String
  | .pass _ => "pass"
  | .call _ => "call"
  | .status _ => "status"

theorem exists_toJson_eq (i : Item) : ∃ v fs, i.toJson = .obj ((tag i, v) :: fs) := by
  cases i with
  | pass | status => exact ⟨_, _, rfl⟩
  | call c => cases c <;> exact ⟨_, _, rfl⟩

/-- All of an item is in its JSON. -/
theorem toJson_inj {i j : Item} (h : i.toJson = j.toJson) : i = j := by
  have htag : tag i = tag j := by
    obtain ⟨v, fs, hi⟩ := exists_toJson_eq i
    obtain ⟨w, gs, hj⟩ := exists_toJson_eq j
    rw [hi, hj, Json.obj.injEq, List.cons.injEq, Prod.mk.injEq] at h
    exact h.1.1
  cases i with
  | pass p =>
    cases j with
    | pass q => rw [passJson_inj h]
    | call | status => simp [tag] at htag
  | call c =>
    cases j with
    | call d => rw [call_toJson_inj h]
    | pass | status => simp [tag] at htag
  | status s =>
    cases j with
    | status t => rw [statusJson_inj h]
    | pass | call => simp [tag] at htag

/-- JSON lines are the lines of one row of items only. -/
theorem lines_json_inj {is js : List Item} {out : String} (h : Lines true is out)
    (k : Lines true js out) : is = js := by
  let f : Format := ⟨true, true⟩
  have hout : String.join (is.map f.line) = String.join (js.map f.line) :=
    ((lines_iff f is out).1 h).trans ((lines_iff f js out).1 k).symm
  have hline : ∀ i u, (f.line i ++ u).toList = i.toJson.render.toList ++ '\n' :: u.toList := by
    intro i u
    simp [Format.line, f]
  have hend : ∀ u, Stops ('\n' :: u) := stops_cons (by decide)
  have hne : ∀ i is, String.join ([].map f.line) ≠ String.join ((i :: is).map f.line) := by
    intro i is he
    have hlist := congrArg String.toList he
    rw [List.map_cons, String.join_cons, hline] at hlist
    exact List.append_ne_nil_of_right_ne_nil _ (List.cons_ne_nil _ _) hlist.symm
  clear h k
  induction is generalizing js with
  | nil =>
    cases js with
    | nil => rfl
    | cons j js => exact absurd hout (hne j js)
  | cons i is ih =>
    cases js with
    | nil => exact absurd hout.symm (hne i is)
    | cons j js =>
      have hlist := congrArg String.toList hout
      rw [List.map_cons, List.map_cons, String.join_cons, String.join_cons, hline, hline] at hlist
      obtain ⟨hij, hrest⟩ := Json.render_append_inj (hend _) (hend _) hlist
      rw [toJson_inj hij, ih (String.toList_inj.1 (List.cons.inj hrest).2)]

end ModalInput.Replay
