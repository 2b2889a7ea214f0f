import Mathlib.Data.List.Basic
import ModalInput.Key.Notation.Grammar

/-!
# Reading key notation

The reader accepts the texts of the grammar, and of any other text it reports the bracket at fault.
A row of items is read whatever follows it, so a text is read on behind its well-formed part; and
every text either is well formed or has a bracket at fault.

    Written u ps → read here (u ++ v) = (read (here + byteSize u) v).map (ps ++ ·)
                                                                                 (read_written)
    parse s = .ok ps ↔ Written s.toList ps                                       (parse_exact)
    parse s = .error f ↔ Faulty s.toList f
-/

namespace ModalInput.Notation

/-! ## Modifier letters -/

theorem mem_modifierLetters_iff (x : Char) (m : Modifier) :
    x ∈ modifierLetters m ↔ modifierOfLetter x = some m := by
  constructor
  · intro h
    cases m with
    | super =>
      simp only [modifierLetters, List.mem_cons, List.not_mem_nil, or_false] at h
      rcases h with rfl | rfl | rfl | rfl <;> rfl
    | control | alt | shift =>
      simp only [modifierLetters, List.mem_cons, List.not_mem_nil, or_false] at h
      rcases h with rfl | rfl <;> rfl
  · intro h
    unfold modifierOfLetter at h
    split at h
    case h_6 => cases h
    all_goals
      next hx =>
        cases h
        rcases Text.eq_or_eq_of_toLower x _ hx with rfl | rfl <;> decide

/-! ## Names of keys -/

theorem toList_lowercase (w : List Char) : (lowercase w).toList = w.map Char.toLower :=
  String.toList_ofList

/-- A name has more than one letter, and the second is no dash. -/
theorem spellings_second (k : NamedKey) :
    ∀ n ∈ spellings k, n.toList[1]?.isSome ∧ n.toList[1]? ≠ some '-' := by
  cases k <;> decide

theorem names_of_mem {w : List Char} {key : String} (h : (lowercase w, key) ∈ keyNames) :
    Names w key := by
  unfold keyNames at h
  simp only [List.mem_cons, Prod.mk.injEq, List.not_mem_nil, or_false] at h
  -- Ten names of keys, the two characters, and the other keys.
  iterate 10
    rcases h with ⟨h, rfl⟩ | h
    · exact .key _ (by rw [h]; decide)
  rcases h with ⟨h, rfl⟩ | ⟨h, rfl⟩ | h
  · exact .space h
  · exact .lt h
  iterate 5
    rcases h with ⟨h, rfl⟩ | h
    · exact .key _ (by rw [h]; decide)
  obtain ⟨h, rfl⟩ := h
  exact .key _ (by rw [h]; decide)

theorem lookup_spellings (k : NamedKey) : ∀ n ∈ spellings k, keyNames.lookup n = some k.name := by
  cases k <;> decide

/-- Only a single character is not looked up. -/
theorem keyOfName_of_second {w : List Char} (h : w[1]?.isSome) :
    keyOfName w = keyNames.lookup (lowercase w) := by
  unfold keyOfName
  split
  · cases h
  · rfl

theorem isSome_second {w : List Char} {n : String} (h : lowercase w = n)
    (hn : n.toList[1]?.isSome) : w[1]?.isSome := by
  rw [← h, toList_lowercase, List.getElem?_map, Option.isSome_map] at hn
  exact hn

theorem keyOfName_eq_some_iff (w : List Char) (key : String) :
    keyOfName w = some key ↔ Names w key := by
  constructor
  · intro h
    unfold keyOfName at h
    split at h
    · cases h
      exact .char _
    · obtain ⟨l, r, hl, -⟩ := List.lookup_eq_some_iff.1 h
      refine names_of_mem ?_
      rw [hl]
      exact List.mem_append_right l List.mem_cons_self
  · intro h
    cases h with
    | char c => rfl
    | key k hk =>
      rw [keyOfName_of_second (isSome_second rfl (spellings_second k _ hk).1)]
      exact lookup_spellings k _ hk
    | space h =>
      rw [keyOfName_of_second (isSome_second h (by decide)), h]
      decide
    | lt h =>
      rw [keyOfName_of_second (isSome_second h (by decide)), h]
      decide

/-- What looks like a modifier letter with its dash is no name. -/
theorem not_names_dash (x : Char) (w : List Char) (key : String) : ¬ Names (x :: '-' :: w) key := by
  have hsecond : (lowercase (x :: '-' :: w)).toList[1]? = some '-' := by
    rw [toList_lowercase]
    rfl
  intro h
  cases h with
  | key k hk => exact (spellings_second k _ hk).2 hsecond
  | space h =>
    rw [h] at hsecond
    exact absurd hsecond (by decide)
  | lt h =>
    rw [h] at hsecond
    exact absurd hsecond (by decide)

/-! ## Brackets -/

theorem Token.ne_nil {w : List Char} {ms : List Modifier} {key : String} (h : Token w ms key) :
    w ≠ [] := by
  rintro rfl
  cases h with
  | key h =>
    cases h with
    | key k hk => exact absurd (spellings_second k _ hk).1 (by decide)
    | space h => exact absurd h (by decide)
    | lt h => exact absurd h (by decide)

theorem token_iff_splitModifiers (w : List Char) (ms : List Modifier) (key : String) :
    Token w ms key ↔ (splitModifiers w).1 = ms ∧ Names (splitModifiers w).2 key := by
  induction w using splitModifiers.induct generalizing ms with
  | case1 x c rest m hm ns name hsplit ih =>
    have hstep : splitModifiers (x :: '-' :: c :: rest) = (m :: ns, name) := by
      rw [splitModifiers, hm, hsplit]
    rw [hsplit] at ih
    rw [hstep]
    constructor
    · intro h
      cases h with
      | key h => exact absurd h (not_names_dash x _ key)
      | hold hx h =>
        rw [mem_modifierLetters_iff, hm] at hx
        cases hx
        obtain ⟨rfl, hn⟩ := (ih _).1 h
        exact ⟨rfl, hn⟩
    · rintro ⟨rfl, hn⟩
      exact .hold ((mem_modifierLetters_iff x m).2 hm) ((ih ns).2 ⟨rfl, hn⟩)
  | case2 x c rest hm =>
    have hstep : splitModifiers (x :: '-' :: c :: rest) = ([], x :: '-' :: c :: rest) := by
      rw [splitModifiers, hm]
    rw [hstep]
    constructor
    · intro h
      cases h with
      | key h => exact ⟨rfl, h⟩
      | hold hx h =>
        rw [mem_modifierLetters_iff, hm] at hx
        cases hx
    · rintro ⟨rfl, hn⟩
      exact .key hn
  | case3 w hw =>
    have hstep : splitModifiers w = ([], w) := by
      rw [splitModifiers]
      exact hw
    rw [hstep]
    constructor
    · intro h
      cases h with
      | key h => exact ⟨rfl, h⟩
      | @hold x m v _ _ hx h =>
        cases v with
        | nil => exact absurd rfl h.ne_nil
        | cons c rest => exact absurd rfl (hw x c rest)
    · rintro ⟨rfl, hn⟩
      exact .key hn

theorem holdAll_eq (p : Press) (ms : List Modifier) :
    p.holdAll ms =
      { name := p.name
        shift := decide (.shift ∈ ms) || p.shift
        control := decide (.control ∈ ms) || p.control
        alt := decide (.alt ∈ ms) || p.alt
        super := decide (.super ∈ ms) || p.super } := by
  induction ms generalizing p with
  | nil => simp [Press.holdAll]
  | cons m ms ih =>
    show (p.hold m).holdAll ms = _
    rw [ih]
    cases m <;> simp [Press.hold]

theorem holdAll_ofName (ms : List Modifier) (key : String) :
    (Press.ofName key).holdAll ms = bracketPress ms key := by
  rw [holdAll_eq, shift_ofName]
  unfold bracketPress
  simp only [Press.ofName, Bool.or_false]

theorem pressOfToken_eq (w : List Char) :
    pressOfToken w =
      (keyOfName (splitModifiers w).2).map (bracketPress (splitModifiers w).1) := by
  show (keyOfName (splitModifiers w).2).map
    (fun key => (Press.ofName key).holdAll (splitModifiers w).1) = _
  congr 1
  funext key
  exact holdAll_ofName _ key

theorem pressOfToken_of_token {w : List Char} {ms : List Modifier} {key : String}
    (h : Token w ms key) : pressOfToken w = some (bracketPress ms key) := by
  obtain ⟨rfl, hn⟩ := (token_iff_splitModifiers w ms key).1 h
  rw [pressOfToken_eq, (keyOfName_eq_some_iff _ key).2 hn]
  rfl

theorem pressOfToken_eq_none {w : List Char} (h : ∀ ms key, ¬ Token w ms key) :
    pressOfToken w = none := by
  rw [pressOfToken_eq]
  cases hk : keyOfName (splitModifiers w).2 with
  | none => rfl
  | some key =>
    exact absurd ((token_iff_splitModifiers w _ key).2 ⟨rfl, (keyOfName_eq_some_iff _ key).1 hk⟩)
      (h _ key)

/-! ## Cutting into pieces -/

theorem closing_of_not_mem (here : Nat) {v : List Char} (hv : '>' ∉ v) : closing here v = none := by
  induction v generalizing here with
  | nil => rw [closing]
  | cons c v ih =>
    rw [List.mem_cons, not_or] at hv
    rw [closing, if_neg (Ne.symm hv.1), ih _ hv.2]
    rfl

theorem closing_append (here : Nat) {w : List Char} (hw : '>' ∉ w) (v : List Char) :
    closing here (w ++ '>' :: v) = some (w, pieces (here + byteSize (w ++ ['>'])) v) := by
  induction w generalizing here with
  | nil =>
    show closing here ('>' :: v) = _
    rw [closing, if_pos rfl]
    rfl
  | cons c w ih =>
    rw [List.mem_cons, not_or] at hw
    show closing here (c :: (w ++ '>' :: v)) = _
    rw [closing, if_neg (Ne.symm hw.1), ih _ hw.2, List.cons_append, byteSize_cons, Nat.add_assoc]
    rfl

/-! ## Reading on -/

/-- Reads a text that starts at byte `here`. -/
def read (here : Nat) (w : List Char) : Except Fault (List Press) :=
  (pieces here w).mapM Piece.press

theorem mapM_press_cons {c : Piece} {p : Press} (h : c.press = .ok p) (cs : List Piece) :
    (c :: cs).mapM Piece.press = (cs.mapM Piece.press).map (p :: ·) := by
  rw [List.mapM_cons, h]
  cases cs.mapM Piece.press <;> rfl

theorem mapM_press_cons_error {c : Piece} {f : Fault} (h : c.press = .error f) (cs : List Piece) :
    (c :: cs).mapM Piece.press = .error f := by
  rw [List.mapM_cons, h]
  rfl

theorem pieces_bracket (here : Nat) {w : List Char} (hw : '>' ∉ w) (v : List Char) :
    pieces here ('<' :: w ++ '>' :: v) =
      .bracket here w :: pieces (here + byteSize ('<' :: w ++ ['>'])) v := by
  show pieces here ('<' :: (w ++ '>' :: v)) = _
  rw [pieces, if_pos rfl, closing_append _ hw, List.cons_append, byteSize_cons, Nat.add_assoc]

/-- An item is read the same whatever follows it. -/
theorem read_item {u : List Char} {p : Press} (h : Item u p) (here : Nat) (v : List Char) :
    read here (u ++ v) = (read (here + byteSize u) v).map (p :: ·) := by
  unfold read
  cases h with
  | @char c hc =>
    show (pieces here (c :: v)).mapM _ = _
    have hpress : (Piece.plain c).press = .ok (barePress c) :=
      congrArg Except.ok (ofChar_eq_barePress c)
    rw [pieces, if_neg hc, byteSize_cons, byteSize_nil]
    exact mapM_press_cons hpress _
  | @bracket w ms key hw ht =>
    have hpress : (Piece.bracket here w).press = .ok (bracketPress ms key) := by
      simp only [Piece.press, pressOfToken_of_token ht]
    rw [List.append_assoc]
    show (pieces here ('<' :: w ++ '>' :: v)).mapM _ = _
    rw [pieces_bracket here hw]
    exact mapM_press_cons hpress _

theorem map_append_cons (r : Except Fault (List Press)) (p : Press) (ps : List Press) :
    (r.map (ps ++ ·)).map (p :: ·) = r.map (p :: ps ++ ·) := by
  cases r <;> rfl

theorem read_written {u : List Char} {ps : List Press} (h : Written u ps) (here : Nat)
    (v : List Char) : read here (u ++ v) = (read (here + byteSize u) v).map (ps ++ ·) := by
  induction h generalizing here with
  | nil =>
    rw [byteSize_nil, Nat.add_zero, List.nil_append]
    cases read here v <;> rfl
  | cons hi _ ih =>
    rw [List.append_assoc, read_item hi, ih, map_append_cons, byteSize_append, Nat.add_assoc]

theorem read_unterminated (here : Nat) {v : List Char} (hv : '>' ∉ v) :
    read here ('<' :: v) = .error (.unterminated here) := by
  unfold read
  rw [pieces, if_pos rfl, closing_of_not_mem _ hv]
  exact mapM_press_cons_error rfl []

theorem read_unknownName (here : Nat) {w : List Char} (hw : '>' ∉ w)
    (h : ∀ ms key, ¬ Token w ms key) (v : List Char) :
    read here ('<' :: w ++ '>' :: v) = .error (.unknownName here (String.ofList w)) := by
  have hpress : (Piece.bracket here w).press = .error (.unknownName here (String.ofList w)) := by
    simp only [Piece.press, pressOfToken_eq_none h]
  unfold read
  rw [pieces_bracket here hw]
  exact mapM_press_cons_error hpress _

/-! ## All texts -/

/-- Every text is a row of items, or has a bracket at fault behind one. -/
theorem written_or_faulty (w : List Char) : (∃ ps, Written w ps) ∨ ∃ f, Faulty w f := by
  induction hn : w.length using Nat.strongRecOn generalizing w with
  | _ n ih =>
    have behind : ∀ {u v p}, Item u p → v.length < n → w = u ++ v →
        (∃ ps, Written w ps) ∨ ∃ f, Faulty w f := by
      intro u v p hi hlt hw
      subst hw
      rcases ih v.length hlt v rfl with ⟨ps, hv⟩ | ⟨f, hv⟩
      · exact Or.inl ⟨p :: ps, .cons hi hv⟩
      · exact Or.inr (hv.cons hi)
    cases w with
    | nil => exact Or.inl ⟨[], .nil⟩
    | cons c v =>
      rw [List.length_cons] at hn
      by_cases hc : c = '<'
      · subst hc
        by_cases hv : '>' ∈ v
        · obtain ⟨t, v, rfl, ht⟩ := List.eq_append_cons_of_mem hv
          by_cases htoken : ∃ ms key, Token t ms key
          · obtain ⟨ms, key, htoken⟩ := htoken
            refine behind (v := v) (.bracket ht htoken) ?_ (by simp)
            rw [List.length_append, List.length_cons] at hn
            omega
          · refine Or.inr ⟨_, Faulty.unknownName (v := v) .nil ht fun ms key h => ?_⟩
            exact htoken ⟨ms, key, h⟩
        · exact Or.inr ⟨_, .unterminated .nil hv⟩
      · exact behind (.char hc) (by omega) rfl

/-- The same fault behind a text of `n` bytes. -/
def Fault.behind (n : Nat) : Fault → Fault
  | .unterminated offset => .unterminated (n + offset)
  | .unknownName offset token => .unknownName (n + offset) token

@[simp] theorem Fault.behind_zero (f : Fault) : f.behind 0 = f := by
  cases f <;> simp [behind]

@[simp] theorem Fault.offset_behind (n : Nat) (f : Fault) : (f.behind n).offset = n + f.offset := by
  cases f <;> rfl

@[simp] theorem Fault.reason_behind (n : Nat) (f : Fault) : (f.behind n).reason = f.reason := by
  cases f <;> rfl

theorem read_of_written {w : List Char} {ps : List Press} (h : Written w ps) (here : Nat) :
    read here w = .ok ps := by
  have hread := read_written h here []
  rw [List.append_nil] at hread
  rw [hread]
  show Except.ok (ps ++ []) = _
  rw [List.append_nil]

/-- Where a text starts shows in its fault and in nothing else. -/
theorem read_of_faulty {w : List Char} {f : Fault} (h : Faulty w f) (here : Nat) :
    read here w = .error (f.behind here) := by
  cases h with
  | unterminated hu hv =>
    rw [read_written hu, read_unterminated _ hv]
    rfl
  | unknownName hu hw hn =>
    rw [List.append_assoc, read_written hu, read_unknownName _ hw hn]
    rfl

theorem parse_of_written {s : String} {ps : List Press} (h : Written s.toList ps) :
    parse s = .ok ps :=
  read_of_written h 0

theorem parse_of_faulty {s : String} {f : Fault} (h : Faulty s.toList f) : parse s = .error f := by
  have hread := read_of_faulty h 0
  rw [Fault.behind_zero] at hread
  exact hread

theorem parse_eq_ok_iff (s : String) (ps : List Press) :
    parse s = .ok ps ↔ Written s.toList ps := by
  refine ⟨fun h => ?_, parse_of_written⟩
  rcases written_or_faulty s.toList with ⟨qs, hw⟩ | ⟨f, hf⟩
  · rw [parse_of_written hw] at h
    cases h
    exact hw
  · rw [parse_of_faulty hf] at h
    cases h

theorem parse_eq_error_iff (s : String) (f : Fault) :
    parse s = .error f ↔ Faulty s.toList f := by
  refine ⟨fun h => ?_, parse_of_faulty⟩
  rcases written_or_faulty s.toList with ⟨qs, hw⟩ | ⟨g, hf⟩
  · rw [parse_of_written hw] at h
    cases h
  · rw [parse_of_faulty hf] at h
    cases h
    exact hf

/-- **Reading.**  A text is accepted if and only if it is a row of items, with the presses of the
items.  Any other text is refused for the first bracket at fault: the text before it is accepted,
and the reason says whether it is open or what it holds. -/
theorem parse_exact (s : String) :
    (∀ ps, parse s = .ok ps ↔ Written s.toList ps) ∧
      (∀ f, parse s = .error f ↔ Faulty s.toList f) ∧
      ∀ f, parse s = .error f → ∃ u v ps, s.toList = u ++ '<' :: v ∧
        f.offset = (String.ofList u).utf8ByteSize ∧ parse (String.ofList u) = .ok ps ∧
        ('>' ∉ v ∧ f.reason = "unterminated '<'" ∨
          ∃ w t, v = w ++ '>' :: t ∧ '>' ∉ w ∧ (∀ ms key, ¬ Token w ms key) ∧
            f.reason = "unknown key name '" ++ String.ofList w ++ "'") := by
  refine ⟨parse_eq_ok_iff s, parse_eq_error_iff s, fun f hf => ?_⟩
  have hfaulty := (parse_eq_error_iff s f).1 hf
  generalize s.toList = w at hfaulty
  cases hfaulty with
  | @unterminated u v ps hu hv =>
    have hbefore : parse (String.ofList u) = .ok ps :=
      parse_of_written (by rw [String.toList_ofList]; exact hu)
    exact ⟨u, v, ps, rfl, rfl, hbefore, Or.inl ⟨hv, rfl⟩⟩
  | @unknownName u w v ps hu hw hn =>
    have hbefore : parse (String.ofList u) = .ok ps :=
      parse_of_written (by rw [String.toList_ofList]; exact hu)
    exact ⟨u, w ++ '>' :: v, ps, List.append_assoc _ _ _, rfl, hbefore,
      Or.inr ⟨w, v, rfl, hw, hn, rfl⟩⟩

/-- Uppercase characters bring shift, in a bracket too; and the second bracket of the other text is at
fault, nine bytes behind the start. -/
theorem parse_exact_bogus :
    let ps : List Press :=
      [⟨"É", true, false, false, false⟩, ⟨"a", false, false, false, false⟩,
        ⟨"G", true, true, false, false⟩, ⟨"Escape", false, false, true, false⟩]
    let s := "é<C-S-G><Bogus>x"
    let f := Fault.unknownName 9 "Bogus"
    parse "Éa<C-G><A-Esc>" = .ok ps ∧ Written "Éa<C-G><A-Esc>".toList ps ∧
    parse s = .error f ∧ Faulty s.toList f ∧
      ∃ u v ps, s.toList = u ++ '<' :: v ∧ f.offset = (String.ofList u).utf8ByteSize ∧
        parse (String.ofList u) = .ok ps ∧
        ('>' ∉ v ∧ f.reason = "unterminated '<'" ∨
          ∃ w t, v = w ++ '>' :: t ∧ '>' ∉ w ∧ (∀ ms key, ¬ Token w ms key) ∧
            f.reason = "unknown key name '" ++ String.ofList w ++ "'") := by
  intro ps s f
  have haccept : parse "Éa<C-G><A-Esc>" = .ok ps := by decide +kernel
  have hparse : parse s = .error f := by decide
  have hlaw := parse_exact s
  exact ⟨haccept, ((parse_exact _).1 ps).1 haccept, hparse, (hlaw.2.1 f).1 hparse,
    hlaw.2.2 f hparse⟩

end ModalInput.Notation
