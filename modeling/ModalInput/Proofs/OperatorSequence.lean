import ModalInput.Proofs.Outcome
import ModalInput.Proofs.Run

/-!
# Operator sequences

An operator in Normal mode, with digits on either side of it, and the key that follows: the
operator's own letter takes whole lines, `w` and `p` take up to the end of a word or a paragraph,
`i` and `a` wait for a text object, and any other key gives the operator up without a call.

    s.Gives (digits ++ [op] ++ digits ++ [k])
      (operatorCalls op effect n k) (s.state.afterMotion op k)         (gives_operator_sequence)
-/

namespace ModalInput

/-! ## The table -/

/-- The operators of Normal mode, by letter, with what each does with a selection. -/
def effect? (op : Char) : Option (List (Call Span)) :=
  match op with
  | 'd' => some [.perform .cut, .type (.plain .backspace)]
  | 'c' => some [.perform .cut]
  | 'y' => some [.perform .copy]
  | _ => none

/-- The calls of an operator that is followed by the key `k`, under the count `n`. -/
def operatorCalls (op : Char) (effect : List (Call Span)) (n : Nat) (k : Char) :
    List (Call Span) :=
  if k = op then
    .type (.plain .home) :: List.replicate (n - 1) (.type (.shift .down)) ++
      .type (.shift .end) :: effect
  else
    match k with
    | 'w' => .type (.controlShift .right) :: effect
    | 'p' => .type (.controlShift .down) :: effect
    | _ => []

/-- The calls for the key after an operator and `i` or `a`. -/
def objectCalls (effect : List (Call Span)) (k : Key) : List (Call Span) :=
  match k with
  | .char 'w' => .type (.control .left) :: .type (.controlShift .right) :: effect
  | .char 'p' => .type (.control .up) :: .type (.controlShift .down) :: effect
  | _ => []

/-- The mode in which an operator leaves the machine. -/
def operatorTarget (op : Char) : Mode := if op = 'c' then .insert else .normal

/-- The state after an operator and the key `k`. -/
def State.afterMotion {S : Type} (s : State S) (op k : Char) : State S :=
  if k = 'i' ∨ k = 'a' then
    { s with mode := .operatorObject, pending := .empty, operator := Operator.ofChar? op }
  else if k = op ∨ k = 'w' ∨ k = 'p' then s.ended (operatorTarget op)
  else s.ended .normal

/-- The state after an operator, `i` or `a`, and the key `k`. -/
def State.afterObject {S : Type} (s : State S) (op : Char) (k : Key) : State S :=
  if k = .escape then
    { s with mode := .normal, pending := .empty, operator := none, oneShot := false }
  else if k = .char 'w' ∨ k = .char 'p' then s.ended (operatorTarget op)
  else s.ended .normal

/-- The actions among the calls. -/
def performed (cs : List (Call Span)) : List Action :=
  cs.filterMap fun c =>
    match c with
    | .perform a => some a
    | _ => none

/-! ## The table and the machine -/

theorem exists_operator (op : Char) (effect : List (Call Span)) (h : effect? op = some effect) :
    ∃ o : Operator, Operator.ofChar? op = some o ∧ o ≠ .put ∧ o.letter = op ∧ o.calls = effect ∧
      o.target = operatorTarget op ∧ NormalEntry.ofChar? op = some (.leader (.operator o)) ∧
      op.isDigit = false := by
  unfold effect? at h
  split at h
  case h_4 => cases h
  all_goals
    cases h
    exact ⟨_, rfl, by decide, rfl, rfl, rfl, rfl, rfl⟩

theorem typed_wholeLines (n : Nat) :
    (typed (Gesture.wholeLines n) : List (Call Span)) =
      .type (.plain .home) :: List.replicate (n - 1) (.type (.shift .down)) ++
        [.type (.shift .end)] := by
  unfold typed Gesture.wholeLines
  rw [List.map_append, List.map_cons, List.map_replicate]
  rfl

theorem length_performed_effect (op : Char) (effect : List (Call Span))
    (h : effect? op = some effect) : (performed effect).length = 1 := by
  unfold effect? at h
  split at h
  case h_4 => cases h
  all_goals
    cases h
    rfl

theorem performed_type (c : Chord) (cs : List (Call Span)) :
    performed (.type c :: cs) = performed cs := rfl

theorem performed_append (cs ds : List (Call Span)) :
    performed (cs ++ ds) = performed cs ++ performed ds :=
  List.filterMap_append

theorem performed_replicate (n : Nat) (c : Chord) :
    performed (List.replicate n (.type c)) = [] := by
  induction n with
  | zero => rfl
  | succ n ih => rw [List.replicate_succ, performed_type, ih]

theorem length_performed_operatorCalls (op : Char) (effect : List (Call Span)) (n : Nat) (k : Char)
    (h : effect? op = some effect) :
    (performed (operatorCalls op effect n k)).length =
      if k = op ∨ k = 'w' ∨ k = 'p' then 1 else 0 := by
  have he := length_performed_effect op effect h
  unfold operatorCalls
  by_cases hk : k = op
  · rw [if_pos hk, if_pos (Or.inl hk), performed_append, performed_type, performed_type,
      performed_replicate, List.nil_append]
    exact he
  · rw [if_neg hk]
    split
    · rw [if_pos (Or.inr (Or.inl rfl))]; exact he
    · rw [if_pos (Or.inr (Or.inr rfl))]; exact he
    · next hw hp =>
      rw [if_neg (fun h => h.elim hk (fun h => h.elim hw hp))]
      rfl

theorem length_performed_objectCalls (op : Char) (effect : List (Call Span)) (k : Key)
    (h : effect? op = some effect) :
    (performed (objectCalls effect k)).length = if k = .char 'w' ∨ k = .char 'p' then 1 else 0 := by
  have he := length_performed_effect op effect h
  unfold objectCalls
  split
  · rw [if_pos (Or.inl rfl)]; exact he
  · rw [if_pos (Or.inr rfl)]; exact he
  · next hw hp =>
    rw [if_neg (fun h => h.elim hw hp)]
    rfl

/-! ## The keys in the machine -/

theorem operatorCalls_eq (op : Operator) (n : Nat) (k : Char) :
    operatorCalls op.letter op.calls n k = op.callsFor n k := by
  unfold operatorCalls Operator.callsFor
  by_cases hl : k = op.letter
  · have hi : ¬ (k = 'i' ∨ k = 'a') := by rw [hl]; exact Edit.letter_ne_object op
    rw [if_pos hl, if_neg hi, if_pos hl, typed_wholeLines, List.append_assoc]
    rfl
  · rw [if_neg hl, if_neg hl]
    split
    · rfl
    · rfl
    · next hw hp =>
      rw [(TextObject.ofChar?_eq_none_iff k).2 (fun h => h.elim hw hp)]
      exact (ite_self _).symm

theorem State.afterMotion_eq {S : Type} (s : State S) (op : Operator) (k : Char)
    (hop : Operator.ofChar? op.letter = some op) (ht : op.target = operatorTarget op.letter) :
    s.afterMotion op.letter k =
      if k = 'i' ∨ k = 'a' then
        { s with mode := .operatorObject, pending := .empty, operator := some op }
      else if k = op.letter ∨ TextObject.ofChar? k ≠ none then s.ended op.target
      else s.ended .normal := by
  unfold afterMotion
  rw [hop, ht]
  have hiff : (k = op.letter ∨ TextObject.ofChar? k ≠ none) ↔
      (k = op.letter ∨ k = 'w' ∨ k = 'p') := by
    rw [ne_eq, TextObject.ofChar?_eq_none_iff, not_not]
  simp only [hiff]

theorem objectCalls_object (effect : List (Call Span)) (c : Char) (o : TextObject)
    (h : TextObject.ofChar? c = some o) :
    objectCalls effect (.char c) = typed o.toStart ++ typed o.extendToEnd ++ effect := by
  unfold TextObject.ofChar? at h
  split at h
  case h_3 => cases h
  all_goals
    cases h
    rfl

theorem objectCalls_other (effect : List (Call Span)) (k : Key)
    (h : k.char?.bind TextObject.ofChar? = none) : objectCalls effect k = [] := by
  unfold objectCalls
  split
  · cases h
  · cases h
  · rfl

/-- What becomes of a suppressed key where an operator waits for its text object. -/
theorem object_of_outcome {cx : Context Span} {s t : State Span} {cs : List (Call Span)}
    {p : Press} (hm : s.mode = .operatorObject) (op : Operator) (ho : s.operator = some op)
    (ht : op.target = operatorTarget op.letter)
    (hd : disposition cx.config.keys s.mode p = .suppress) (hout : Outcome cx s p t cs) :
    t = s.afterObject op.letter p.key ∧ cs = objectCalls op.calls p.key := by
  unfold State.afterObject
  cases hout
  case pass hp => rw [hd] at hp; cases hp
  case escape hs hp hk =>
    rw [if_pos hk, hk, hm]
    exact ⟨rfl, rfl⟩
  case object a c o hm' ha hp hc =>
    obtain rfl : op = a := Option.some.inj (ho.symm.trans ha)
    have hwp : p.key = .char 'w' ∨ p.key = .char 'p' := by
      rw [hp.1, Key.char.injEq, Key.char.injEq]
      by_contra hn
      rw [(TextObject.ofChar?_eq_none_iff c).2 hn] at hc
      cases hc
    rw [if_neg hp.plain.2.1, if_pos hwp, ht, hp.1, objectCalls_object op.calls c o hc]
    exact ⟨rfl, rfl⟩
  case noObject hm' hp hk =>
    have hwp : ¬ (p.key = .char 'w' ∨ p.key = .char 'p') := by
      rintro (hc | hc) <;> rw [hc] at hk <;> cases hk
    rw [if_neg hp.2.1, if_neg hwp, objectCalls_other op.calls p.key hk]
    exact ⟨rfl, rfl⟩
  case oneShot hm' _ | closeFind hm' _ | clear hm' _ _ | normal _ hm' _ _ | extend _ _ hm' _ _ |
      operate _ _ hm' _ _ | await _ hm' _ _ | ignore hm' _ _ | select _ _ hm' _ _ |
      noSelect hm' _ _ =>
    rw [hm] at hm'
    cases hm'

namespace Session

/-- What a suppressed key gives after an operator and `i` or `a`. -/
theorem Gives.object {s : Session} {ps : List Press} {cs : List (Call Span)} {t : State Span}
    (h : s.Gives ps cs t) (hu : s.surface.unavailable = []) (hs : t.Sound s.config.keys)
    (hm : t.mode = .operatorObject) (op : Operator) (ho : t.operator = some op)
    (ht : op.target = operatorTarget op.letter) (e : Press)
    (he : ModalInput.disposition s.config.keys .operatorObject e = .suppress) :
    s.Gives (ps ++ [e]) (cs ++ objectCalls op.calls e.key) (t.afterObject op.letter e.key) := by
  obtain ⟨host, hone⟩ := h.press hu e
  have hout := hs.outcome ⟨s.config, host⟩ e
  obtain ⟨hstate, hcalls⟩ := object_of_outcome hm op ho ht (by rw [hm]; exact he) hout
  rw [hstate, hcalls] at hone
  exact hone

/-- **Operator sequences.**  Whatever is typed around the operator, its sequence makes the calls of
the table; a completed one performs exactly one action and any other none. -/
theorem gives_operator_sequence (s : Session) (hs : s.state.AtRest)
    (hu : s.surface.unavailable = []) (op : Char) (effect : List (Call Span))
    (hop : effect? op = some effect) (w₁ w₂ : List Char) (ps₁ ps₂ : List Press) (o : Press)
    (hw : IsCount (w₁ ++ w₂)) (ht₁ : List.Forall₂ Press.Types ps₁ w₁) (ho : o.Types op)
    (ht₂ : List.Forall₂ Press.Types ps₂ w₂) (k : Char) (q : Press) (hq : q.Types k)
    (hk : (Pending.empty.pushAccepted s.config.keys.countLimit (w₁ ++ w₂)).accepts k = false) :
    let n := (Pending.empty.pushAccepted s.config.keys.countLimit (w₁ ++ w₂)).count
      s.config.keys.countLimit
    let keys := ps₁ ++ [o] ++ ps₂ ++ [q]
    s.Gives keys (operatorCalls op effect n k) (s.state.afterMotion op k) ∧
      (k = 'i' ∨ k = 'a' → ∀ (qs : List Press) (e : Press),
        (∀ p ∈ qs, ModalInput.disposition s.config.keys .operatorObject p = .pass) →
        ModalInput.disposition s.config.keys .operatorObject e = .suppress →
        s.Gives (keys ++ qs ++ [e]) (objectCalls effect e.key) (s.state.afterObject op e.key)) ∧
      (performed (operatorCalls op effect n k)).length =
        (if k = op ∨ k = 'w' ∨ k = 'p' then 1 else 0) ∧
      ∀ e : Key, (performed (objectCalls effect e)).length =
        if e = .char 'w' ∨ e = .char 'p' then 1 else 0 := by
  intro n keys
  obtain ⟨a, hof, hput, rfl, rfl, htarget, hentry, hdigit⟩ := exists_operator op effect hop
  have hdigits := (Pending.digits_pushAccepted s.config.keys.countLimit (w₁ ++ w₂) hw).symm
  have hlead := gives_leader hs hu ht₁ ht₂ hw o a.letter (.operator a) ho hentry hdigit
  obtain ⟨host, hg⟩ := hlead.char hu hs.1 q k hq
  have ha : (⟨kept s.config.keys.countLimit (w₁ ++ w₂), some (.operator a), none⟩ :
      Pending).accepts k = false := by
    rw [← hk]
    exact Pending.accepts_congr hdigits k
  have hn : (⟨kept s.config.keys.countLimit (w₁ ++ w₂), some (.operator a), none⟩ :
      Pending).count s.config.keys.countLimit = n :=
    Pending.count_congr hdigits s.config.keys.countLimit
  rw [Edit.calls_normalChar_sequence _ _ k _ ha rfl (by exact hs.mode_ne_visualLine),
    Edit.state_normalChar_operator _ _ k a ha rfl, hn, Leader.callsFor, List.nil_append,
    ← operatorCalls_eq] at hg
  have hmain : s.Gives keys (operatorCalls a.letter a.calls n k)
      (s.state.afterMotion a.letter k) := by
    rw [State.afterMotion_eq s.state a k hof htarget]
    exact hg
  refine ⟨hmain, ?_, length_performed_operatorCalls _ _ n k hop,
    fun e => length_performed_objectCalls _ _ e hop⟩
  intro hi qs e hqs he
  have hwait : s.state.afterMotion a.letter k =
      { s.state with mode := .operatorObject, pending := .empty, operator := some a } := by
    unfold State.afterMotion
    rw [if_pos hi, hof]
  have hnone : operatorCalls a.letter a.calls n k = [] := by
    rw [operatorCalls_eq, Operator.callsFor, if_pos hi]
  rw [hwait, hnone] at hmain
  exact (hmain.pass hqs).object hu (State.sound_await a hput _) rfl a rfl htarget e he

/-- Out of Insert mode for one command, `2c3ip` changes a paragraph and goes back, also where the
host takes a shortcut before the last key. -/
theorem gives_operator_sequence_interrupted :
    let s : Session := ⟨.default, { State.initial with oneShot := true }, .new⟩
    s.state.AtRest ∧ s.surface.unavailable = [] ∧ effect? 'c' = some [.perform .cut] ∧
      IsCount (['2'] ++ ['3']) ∧
      (Pending.empty.pushAccepted s.config.keys.countLimit (['2'] ++ ['3'])).accepts 'i' = false ∧
      s.Gives [.ofChar '2', .ofChar 'c', .ofChar '3', .ofChar 'i', (Press.ofChar 'x').hold .control,
          .ofChar 'p']
        [.type (.control .up), .type (.controlShift .down), .perform .cut]
        { s.state with mode := .insert, oneShot := false } := by
  intro s
  have hs : s.state.AtRest := ⟨rfl, rfl, rfl⟩
  have hw : IsCount (['2'] ++ ['3']) := by decide
  have hk : (Pending.empty.pushAccepted s.config.keys.countLimit (['2'] ++ ['3'])).accepts 'i' =
      false :=
    Pending.accepts_eq_false_of_not_isDigit _ 'i' rfl
  have hlaw := gives_operator_sequence s hs rfl 'c' _ rfl ['2'] ['3'] _ _ (.ofChar 'c') hw
    (.cons (types_ofChar '2') .nil) (types_ofChar 'c') (.cons (types_ofChar '3') .nil) 'i'
    (.ofChar 'i') (types_ofChar 'i') hk
  have hobject := hlaw.2.1 (Or.inl rfl) [(Press.ofChar 'x').hold .control] (.ofChar 'p')
    (by decide) (by decide)
  exact ⟨hs, rfl, rfl, hw, hk, hobject⟩

end Session

end ModalInput
