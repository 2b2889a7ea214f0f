import ModalInput.Proofs.Notation

/-!
# Texts of key notation put together

A text that is accepted is read to its end before the next one starts, so what is read of two texts
in a row is what is read of each, with the faults of the second so many bytes further on.  A bracket
that is closed is at fault whatever follows it; an open one stays open until a `>` comes.

    parse a = .ok xs →
      parse (a ++ b) = ((parse b).mapError (.behind a.utf8ByteSize)).map (xs ++ ·)
                                                                             (parse_append_of_ok)
-/

namespace ModalInput.Notation

theorem byteSize_toList (s : String) : byteSize s.toList = s.utf8ByteSize := by
  unfold byteSize
  rw [String.ofList_toList]

theorem read_eq (here : Nat) (s : String) :
    read here s.toList = (parse s).mapError (.behind here) := by
  rcases written_or_faulty s.toList with ⟨ps, hw⟩ | ⟨f, hf⟩
  · rw [parse_of_written hw]
    exact read_of_written hw here
  · rw [parse_of_faulty hf]
    exact read_of_faulty hf here

/-! ## Two texts -/

theorem parse_append_of_ok {a : String} {xs : List Press} (h : parse a = .ok xs) (b : String) :
    parse (a ++ b) = ((parse b).mapError (.behind a.utf8ByteSize)).map (xs ++ ·) := by
  have hw := (parse_eq_ok_iff a xs).1 h
  show read 0 (a ++ b).toList = _
  rw [String.toList_append, read_written hw, Nat.zero_add, byteSize_toList, read_eq]

theorem Faulty.append_of_unknownName {u : List Char} {offset : Nat} {token : String}
    (h : Faulty u (.unknownName offset token)) (v : List Char) :
    Faulty (u ++ v) (.unknownName offset token) := by
  cases h with
  | @unknownName u w t ps hu hw hn =>
    have hf := Faulty.unknownName (v := t ++ v) hu hw hn
    rw [← List.cons_append, ← List.append_assoc] at hf
    exact hf

theorem Faulty.append_of_unterminated {u : List Char} {offset : Nat}
    (h : Faulty u (.unterminated offset)) {v : List Char} (hv : '>' ∉ v) :
    Faulty (u ++ v) (.unterminated offset) := by
  cases h with
  | @unterminated u w ps hu hw =>
    have hopen : '>' ∉ w ++ v := by
      rw [List.mem_append, not_or]
      exact ⟨hw, hv⟩
    have hf := Faulty.unterminated hu hopen
    rw [← List.cons_append, ← List.append_assoc] at hf
    exact hf

/-- **Texts in a row.**  Behind an accepted text the next one is read as on its own: its presses
follow, or its fault is reported so many bytes further on.  An unknown name is reported whatever
follows, and an open bracket as long as nothing closes it. -/
theorem parse_append (a b : String) :
    (∀ xs, parse a = .ok xs →
      (∀ ys, parse b = .ok ys → parse (a ++ b) = .ok (xs ++ ys)) ∧
      ∀ f, parse b = .error f → ∃ g, parse (a ++ b) = .error g ∧ g = f.behind a.utf8ByteSize ∧
        g.offset = a.utf8ByteSize + f.offset ∧ g.reason = f.reason) ∧
    (∀ offset token, parse a = .error (.unknownName offset token) →
      parse (a ++ b) = .error (.unknownName offset token)) ∧
    ∀ offset, parse a = .error (.unterminated offset) → '>' ∉ b.toList →
      parse (a ++ b) = .error (.unterminated offset) := by
  refine ⟨fun xs ha => ⟨fun ys hb => ?_, fun f hb => ?_⟩, fun offset token ha => ?_,
    fun offset ha hb => ?_⟩
  · rw [parse_append_of_ok ha, hb]
    rfl
  · refine ⟨f.behind a.utf8ByteSize, ?_, rfl, f.offset_behind _, f.reason_behind _⟩
    rw [parse_append_of_ok ha, hb]
    rfl
  · refine parse_of_faulty ?_
    rw [String.toList_append]
    exact ((parse_eq_error_iff a _).1 ha).append_of_unknownName b.toList
  · refine parse_of_faulty ?_
    rw [String.toList_append]
    exact ((parse_eq_error_iff a _).1 ha).append_of_unterminated hb

/-- The first text takes six bytes and ends behind a bracket; what follows it is accepted, or has a
fault that moves from byte one to byte seven. -/
theorem parse_append_bogus :
    let a := "é<CR>"
    let x := Press.ofChar 'é'
    let y := Press.ofName "Enter"
    parse a = .ok [x, y] ∧
      parse (a ++ "j<C-o>") = .ok ([x, y] ++ [.ofChar 'j', (Press.ofChar 'o').hold .control]) ∧
      (∃ g, parse (a ++ "j<Bogus>") = .error g ∧ g = Fault.unknownName 7 "Bogus" ∧ g.offset = 7 ∧
        g.reason = "unknown key name 'Bogus'") ∧
      parse ("<Bogus><" ++ a) = .error (.unknownName 0 "Bogus") ∧
      parse ("j<C-" ++ "o<é") = .error (.unterminated 1) := by
  intro a x y
  have ha : parse a = .ok [x, y] := by decide
  refine ⟨ha, ((parse_append a "j<C-o>").1 [x, y] ha).1 _ (by decide), ?_,
    (parse_append "<Bogus><" a).2.1 0 "Bogus" (by decide),
    (parse_append "j<C-" "o<é").2.2 1 (by decide) (by decide)⟩
  exact ((parse_append a "j<Bogus>").1 [x, y] ha).2 (.unknownName 1 "Bogus") (by decide)

end ModalInput.Notation
