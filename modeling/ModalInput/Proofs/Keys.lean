import ModalInput.Proofs.Execution

/-!
# What a key does

For each table of keys, the state that a key leaves and the calls that it asks for.  Where a
command ends, the state is `s.ended m`: nothing pending, no operator, and back in Insert mode if
that is where the command was opened from.
-/

namespace ModalInput

variable {S : Type}

/-- A command ends in the mode `m`. -/
def State.ended (s : State S) (m : Mode) : State S :=
  ({ s with mode := m, pending := .empty, operator := none } : State S).resume

/-- The marks after a mark is set under a selection that the host may not have. -/
def Marks.note (m : Marks S) (label : Char) (selection : Option S) : Marks S :=
  match selection with
  | some x => m.set label x
  | none => m

/-- The calls of an operator that the character `c` follows; its own letter takes so many lines. -/
def Operator.callsFor (op : Operator) (lines : Nat) (c : Char) : List (Call S) :=
  if c = 'i' ∨ c = 'a' then []
  else if c = op.letter then typed (Gesture.wholeLines lines) ++ op.calls
  else
    match TextObject.ofChar? c with
    | some o => typed o.extendToEnd ++ op.calls
    | none => []

theorem Operator.callsFor_eq_nil (op : Operator) (lines : Nat) (c : Char)
    (h : ¬ (c = op.letter ∨ TextObject.ofChar? c ≠ none)) :
    (op.callsFor lines c : List (Call S)) = [] := by
  obtain ⟨hl, ho⟩ := not_or.1 h
  unfold Operator.callsFor
  rw [if_neg hl, Decidable.not_not.1 ho]
  exact ite_self _

/-- The calls of a leader with the argument `c`. -/
def Leader.callsFor (l : Leader) (marks : Marks S) (count : Nat) (c : Char) : List (Call S) :=
  match l with
  | .mark => []
  | .jump linewise =>
    match marks.get? c with
    | some x => .restore x :: if linewise then typed [.plain .home] else []
    | none => []
  | .go => if c = 'g' then typed (Gesture.toLine count) else []
  | .operator op => op.callsFor count c

/-! ## The way back -/

/-- The way back is taken once, also where a second end follows on the first. -/
theorem State.resume_clear (s : State S) :
    ({ s.resume with pending := .empty } : State S).resume =
      ({ s with pending := .empty } : State S).resume := by
  unfold resume
  by_cases h : s.oneShot ∧ ¬ s.mode.awaitsKey ∧ s.mode ≠ .search
  · simp only [if_pos h, Bool.false_eq_true, false_and, if_false]
  · simp only [if_neg h]

theorem State.resume_of_awaitsKey (s : State S) (h : s.mode.awaitsKey = true) : s.resume = s := by
  unfold resume
  rw [if_neg (fun hs => hs.2.1 h)]

theorem State.resume_of_not_oneShot (s : State S) (h : s.oneShot = false) : s.resume = s := by
  unfold resume
  rw [if_neg (fun hs => by rw [h] at hs; cases hs.1)]

@[simp] theorem State.marks_resume (s : State S) : s.resume.marks = s.marks := by
  unfold resume
  split <;> rfl

@[simp] theorem State.pending_resume (s : State S) : s.resume.pending = s.pending := by
  unfold resume
  split <;> rfl

@[simp] theorem State.operator_resume (s : State S) : s.resume.operator = s.operator := by
  unfold resume
  split <;> rfl

@[simp] theorem State.marks_ended (s : State S) (m : Mode) : (s.ended m).marks = s.marks :=
  State.marks_resume _

@[simp] theorem State.pending_ended (s : State S) (m : Mode) : (s.ended m).pending = .empty :=
  State.pending_resume _

@[simp] theorem State.operator_ended (s : State S) (m : Mode) : (s.ended m).operator = none :=
  State.operator_resume _

/-! ## Modes of a selection -/

theorem Mode.ne_of_isSelecting {m n : Mode} (h : m.isSelecting = true)
    (hn : n.isSelecting = false) : m ≠ n := by
  rintro rfl
  cases h.symm.trans hn

theorem Mode.awaitsKey_of_isSelecting {m : Mode} (h : m.isSelecting = true) :
    m.awaitsKey = false := by
  cases m with
  | visual | visualLine => rfl
  | _ => cases h

/-! ## Keys that name something -/

theorem TextObject.ofChar?_eq_none_iff (k : Char) :
    TextObject.ofChar? k = none ↔ ¬ (k = 'w' ∨ k = 'p') := by
  unfold TextObject.ofChar?
  split
  case h_3 hw hp => exact ⟨fun _ h => h.elim hw hp, fun _ => rfl⟩
  all_goals simp

theorem Key.exists_char_of_bind {α : Type} {k : Key} {f : Char → Option α} {a : α}
    (h : k.char?.bind f = some a) : ∃ c, k = .char c ∧ f c = some a := by
  cases k with
  | char c => exact ⟨c, rfl, h⟩
  | _ => cases h

/-- A key either names a text object or gives the operator up. -/
theorem Key.textObject_cases (k : Key) :
    (∃ c o, k = .char c ∧ TextObject.ofChar? c = some o) ∨
      k.char?.bind TextObject.ofChar? = none := by
  cases h : k.char?.bind TextObject.ofChar? with
  | none => exact Or.inr rfl
  | some o =>
    obtain ⟨c, hk, hc⟩ := exists_char_of_bind h
    exact Or.inl ⟨c, o, hk, hc⟩

namespace Edit

variable (cx : Context S) (s : State S)

/-! ## After an operator -/

theorem motionKey_apply_await (op : Operator) (c : Char) (h : s.operator = some op)
    (hc : c = 'i' ∨ c = 'a') : motionKey (.char c) cx s = enter .operatorObject cx s := by
  unfold motionKey
  simp only [look_apply, h, Key.char?]
  rw [if_pos hc]

theorem motionKey_apply_line (op : Operator) (c : Char) (h : s.operator = some op)
    (hc : ¬ (c = 'i' ∨ c = 'a')) (hl : c = op.letter) :
    motionKey (.char c) cx s =
      (request (typed (Gesture.wholeLines 1)) ++ operate op ++ finish : Edit S) cx s := by
  unfold motionKey
  simp only [look_apply, h, Key.char?]
  rw [if_neg hc, if_pos hl]

theorem motionKey_apply_object (op : Operator) (c : Char) (o : TextObject)
    (h : s.operator = some op) (hc : ¬ (c = 'i' ∨ c = 'a')) (hl : c ≠ op.letter)
    (ho : TextObject.ofChar? c = some o) :
    motionKey (.char c) cx s =
      (request (typed o.extendToEnd) ++ operate op ++ finish : Edit S) cx s := by
  unfold motionKey
  simp only [look_apply, h, Key.char?]
  rw [if_neg hc, if_neg hl, ho]

theorem motionKey_apply_other (op : Operator) (c : Char) (h : s.operator = some op)
    (hc : ¬ (c = 'i' ∨ c = 'a')) (hl : c ≠ op.letter) (ho : TextObject.ofChar? c = none) :
    motionKey (.char c) cx s = (abandon ++ finish : Edit S) cx s := by
  unfold motionKey
  simp only [look_apply, h, Key.char?]
  rw [if_neg hc, if_neg hl, ho]

/-- The letters of the text objects are not those that ask for one. -/
theorem ofChar?_ne_object (c : Char) (o : TextObject) (h : TextObject.ofChar? c = some o) :
    ¬ (c = 'i' ∨ c = 'a') := by
  rintro (rfl | rfl) <;> cases h

theorem state_motionKey (op : Operator) (c : Char) (h : s.operator = some op) :
    (motionKey (.char c)).state cx s =
      if c = 'i' ∨ c = 'a' then { s with mode := .operatorObject }
      else if c = op.letter ∨ TextObject.ofChar? c ≠ none then
        ({ s with operator := none, mode := op.target } : State S).resume
      else ({ s with operator := none, mode := .normal } : State S).resume := by
  by_cases hc : c = 'i' ∨ c = 'a'
  · rw [if_pos hc, state_congr cx s (motionKey_apply_await cx s op c h hc), state_enter]
  · rw [if_neg hc]
    by_cases hl : c = op.letter
    · rw [if_pos (Or.inl hl), state_congr cx s (motionKey_apply_line cx s op c h hc hl)]
      simp only [state_append, state_request, state_operate, state_finish]
    · cases ho : TextObject.ofChar? c with
      | some o =>
        rw [if_pos (Or.inr (by simp)),
          state_congr cx s (motionKey_apply_object cx s op c o h hc hl ho)]
        simp only [state_append, state_request, state_operate, state_finish]
      | none =>
        rw [if_neg (by simp [hl]), state_congr cx s (motionKey_apply_other cx s op c h hc hl ho)]
        simp only [state_append, state_abandon, state_finish]

theorem calls_motionKey (op : Operator) (c : Char) (h : s.operator = some op)
    (hm : s.mode ≠ .visualLine) :
    (motionKey (.char c)).calls cx s = op.callsFor 1 c := by
  unfold Operator.callsFor
  have hop : (operate op ++ finish : Edit S).calls cx s = op.calls := by
    rw [calls_append, calls_operate, calls_finish, op.leaving_eq_nil s.mode hm, List.append_nil,
      List.append_nil]
  by_cases hc : c = 'i' ∨ c = 'a'
  · rw [if_pos hc, calls_congr cx s (motionKey_apply_await cx s op c h hc), calls_enter]
  · rw [if_neg hc]
    by_cases hl : c = op.letter
    · rw [if_pos hl, calls_congr cx s (motionKey_apply_line cx s op c h hc hl), append_assoc,
        calls_append, calls_request, state_request, hop]
    · rw [if_neg hl]
      cases ho : TextObject.ofChar? c with
      | some o =>
        rw [calls_congr cx s (motionKey_apply_object cx s op c o h hc hl ho), append_assoc,
          calls_append, calls_request, state_request, hop]
      | none =>
        rw [calls_congr cx s (motionKey_apply_other cx s op c h hc hl ho), calls_append,
          calls_abandon, calls_finish, s.mode.stepBack_eq_nil hm, List.append_nil]

/-! ## After an operator that waits for a text object -/

theorem objectKey_apply_object (c : Char) (o : TextObject) (ho : TextObject.ofChar? c = some o) :
    objectKey (.char c) cx s =
      (request (typed o.toStart) ++ motionKey (.char c) : Edit S) cx s := by
  unfold objectKey
  simp only [Key.char?, Option.bind_some, ho]

theorem objectKey_apply_other (k : Key) (hk : k.char?.bind TextObject.ofChar? = none) :
    objectKey k cx s = (abandon ++ finish : Edit S) cx s := by
  unfold objectKey
  rw [hk]

theorem state_objectKey_object (op : Operator) (c : Char) (o : TextObject)
    (h : s.operator = some op) (ho : TextObject.ofChar? c = some o) :
    (objectKey (.char c)).state cx s =
      ({ s with operator := none, mode := op.target } : State S).resume := by
  rw [state_congr cx s (objectKey_apply_object cx s c o ho), state_append, state_request,
    state_motionKey cx s op c h, if_neg (ofChar?_ne_object c o ho), if_pos (Or.inr (by simp [ho]))]

theorem state_objectKey_other (k : Key) (hk : k.char?.bind TextObject.ofChar? = none) :
    (objectKey k).state cx s = ({ s with operator := none, mode := .normal } : State S).resume := by
  rw [state_congr cx s (objectKey_apply_other cx s k hk), state_append, state_abandon,
    state_finish]

/-- Only over a visual selection is there an operator whose letter names a text object. -/
theorem calls_objectKey_object (op : Operator) (c : Char) (o : TextObject)
    (h : s.operator = some op) (hop : op ≠ .put) (ho : TextObject.ofChar? c = some o)
    (hm : s.mode ≠ .visualLine) :
    (objectKey (.char c)).calls cx s = typed o.toStart ++ typed o.extendToEnd ++ op.calls := by
  have hl : c ≠ op.letter := by
    rintro rfl
    cases op
    case put => exact hop rfl
    all_goals cases ho
  rw [calls_congr cx s (objectKey_apply_object cx s c o ho), calls_append, calls_request,
    state_request, calls_motionKey cx s op c h hm, Operator.callsFor,
    if_neg (ofChar?_ne_object c o ho), if_neg hl, ho, List.append_assoc]

theorem calls_objectKey_other (k : Key) (hk : k.char?.bind TextObject.ofChar? = none)
    (hm : s.mode ≠ .visualLine) : (objectKey k).calls cx s = [] := by
  rw [calls_congr cx s (objectKey_apply_other cx s k hk), calls_append, calls_abandon,
    calls_finish, s.mode.stepBack_eq_nil hm, List.append_nil]

/-! ## In Normal mode -/

theorem normalChar_apply_digit (c : Char) (ha : s.pending.accepts c = true) :
    normalChar c cx s =
      (update (fun t => { t with pending := t.pending.push cx.config.keys.countLimit c }) ++
        announce : Edit S) cx s := by
  unfold normalChar
  rw [look_apply, if_pos ha]

theorem normalChar_apply_sequence (c : Char) (l : Leader) (ha : s.pending.accepts c = false)
    (hl : s.pending.leader = some l) :
    normalChar c cx s =
      (update (fun t => { t with pending := { t.pending with argument := some c } }) ++
        sequence l c (s.pending.count cx.config.keys.countLimit) ++ clearPending ++ finish :
          Edit S) cx s := by
  unfold normalChar
  rw [look_apply, if_neg (by simp [ha]), hl]

theorem normalChar_apply_command (c : Char) (cmd : Command) (ha : s.pending.accepts c = false)
    (hl : s.pending.leader = none) (hc : NormalEntry.ofChar? c = some (.command cmd)) :
    normalChar c cx s =
      (command cmd (s.pending.count cx.config.keys.countLimit) s.pending.hasCount ++
        clearPending ++ finish : Edit S) cx s := by
  unfold normalChar
  rw [look_apply, if_neg (by simp [ha]), hl, hc]

theorem normalChar_apply_leader (c : Char) (l : Leader) (ha : s.pending.accepts c = false)
    (hl : s.pending.leader = none) (hc : NormalEntry.ofChar? c = some (.leader l)) :
    normalChar c cx s =
      (update (fun t => { t with pending := { t.pending with leader := some l } }) ++
        announce : Edit S) cx s := by
  unfold normalChar
  rw [look_apply, if_neg (by simp [ha]), hl, hc]

theorem normalChar_apply_other (c : Char) (ha : s.pending.accepts c = false)
    (hl : s.pending.leader = none) (hc : NormalEntry.ofChar? c = none) :
    normalChar c cx s = clearPending cx s := by
  unfold normalChar
  rw [look_apply, if_neg (by simp [ha]), hl, hc]

theorem state_normalChar_digit (c : Char) (ha : s.pending.accepts c = true) :
    (normalChar c).state cx s =
      { s with pending := s.pending.push cx.config.keys.countLimit c } :=
  state_congr cx s (normalChar_apply_digit cx s c ha)

theorem calls_normalChar_digit (c : Char) (ha : s.pending.accepts c = true) :
    (normalChar c).calls cx s = [] :=
  calls_congr cx s (normalChar_apply_digit cx s c ha)

theorem state_normalChar_command (c : Char) (cmd : Command) (ha : s.pending.accepts c = false)
    (hl : s.pending.leader = none) (hc : NormalEntry.ofChar? c = some (.command cmd)) :
    (normalChar c).state cx s =
      ({ s with mode := cmd.target s.mode, pending := .empty } : State S).resume := by
  rw [state_congr cx s (normalChar_apply_command cx s c cmd ha hl hc), state_append, state_append,
    state_command, state_clearPending, state_finish]

theorem calls_normalChar_command (c : Char) (cmd : Command) (ha : s.pending.accepts c = false)
    (hl : s.pending.leader = none) (hc : NormalEntry.ofChar? c = some (.command cmd)) :
    (normalChar c).calls cx s =
      cmd.calls (s.pending.count cx.config.keys.countLimit) s.pending.hasCount ++ cmd.opening := by
  rw [calls_congr cx s (normalChar_apply_command cx s c cmd ha hl hc), calls_append, calls_append,
    calls_command, calls_clearPending, calls_finish, List.append_nil, List.append_nil]

theorem state_normalChar_leader (c : Char) (l : Leader) (ha : s.pending.accepts c = false)
    (hl : s.pending.leader = none) (hc : NormalEntry.ofChar? c = some (.leader l)) :
    (normalChar c).state cx s = { s with pending := { s.pending with leader := some l } } :=
  state_congr cx s (normalChar_apply_leader cx s c l ha hl hc)

theorem calls_normalChar_leader (c : Char) (l : Leader) (ha : s.pending.accepts c = false)
    (hl : s.pending.leader = none) (hc : NormalEntry.ofChar? c = some (.leader l)) :
    (normalChar c).calls cx s = [] :=
  calls_congr cx s (normalChar_apply_leader cx s c l ha hl hc)

theorem state_normalChar_other (c : Char) (ha : s.pending.accepts c = false)
    (hl : s.pending.leader = none) (hc : NormalEntry.ofChar? c = none) :
    (normalChar c).state cx s = { s with pending := .empty } :=
  state_congr cx s (normalChar_apply_other cx s c ha hl hc)

theorem calls_normalChar_other (c : Char) (ha : s.pending.accepts c = false)
    (hl : s.pending.leader = none) (hc : NormalEntry.ofChar? c = none) :
    (normalChar c).calls cx s = [] :=
  calls_congr cx s (normalChar_apply_other cx s c ha hl hc)

/-! ## The argument of a leader -/

/-- However its argument is taken, a leader is cleared and the way back is looked for. -/
theorem state_normalChar_sequence (c : Char) (l : Leader) (ha : s.pending.accepts c = false)
    (hl : s.pending.leader = some l) :
    (normalChar c).state cx s =
      ({ (sequence l c (s.pending.count cx.config.keys.countLimit)).state cx
        { s with pending := { s.pending with argument := some c } } with pending := .empty } :
          State S).resume := by
  rw [state_congr cx s (normalChar_apply_sequence cx s c l ha hl), state_append, state_append,
    state_append, state_update, state_clearPending, state_finish]

@[simp] theorem state_setMark (c : Char) :
    (setMark c).state cx s = { s with marks := s.marks.note c cx.host.selection } := by
  unfold setMark Marks.note
  rw [state_look]
  cases cx.host.selection <;> rfl

@[simp] theorem state_jump (c : Char) (linewise : Bool) : (jump c linewise).state cx s = s := by
  unfold jump
  rw [state_look]
  cases s.marks.get? c with
  | none => rfl
  | some x => exact state_request cx s _

/-- The leaders that only mark or move leave the rest of the state alone. -/
theorem state_sequence_of_not_operator (l : Leader) (c : Char) (n : Nat)
    (hl : ∀ op, l ≠ .operator op) :
    (sequence l c n).state cx s =
      { s with marks := if l = .mark then s.marks.note c cx.host.selection else s.marks } := by
  cases l with
  | mark => exact state_setMark cx s c
  | jump linewise => exact state_jump cx s c linewise
  | go =>
    unfold sequence
    rw [state_ite, state_request, state_skip, ite_self]
    rfl
  | operator op => exact absurd rfl (hl op)

theorem sequence_line (op : Operator) (c : Char) (n : Nat) (hc : c = op.letter) :
    (sequence (.operator op) c n : Edit S) =
      request (typed (Gesture.wholeLines n)) ++ operate op :=
  if_pos hc

theorem sequence_motion (op : Operator) (c : Char) (n : Nat) (hc : c ≠ op.letter) :
    (sequence (.operator op) c n : Edit S) =
      update (fun t => { t with operator := some op }) ++ enter .operatorMotion ++
        motionKey (.char c) :=
  if_neg hc

theorem letter_ne_object (op : Operator) : ¬ (op.letter = 'i' ∨ op.letter = 'a') := by
  cases op <;> decide

theorem state_normalChar_operator (c : Char) (op : Operator) (ha : s.pending.accepts c = false)
    (hl : s.pending.leader = some (.operator op)) :
    (normalChar c).state cx s =
      if c = 'i' ∨ c = 'a' then
        { s with mode := .operatorObject, pending := .empty, operator := some op }
      else if c = op.letter ∨ TextObject.ofChar? c ≠ none then s.ended op.target
      else s.ended .normal := by
  rw [state_normalChar_sequence cx s c _ ha hl]
  by_cases hc : c = op.letter
  · have hi : ¬ (c = 'i' ∨ c = 'a') := by rw [hc]; exact letter_ne_object op
    rw [if_neg hi, if_pos (Or.inl hc), sequence_line op c _ hc, state_append, state_request,
      state_operate]
    rfl
  · rw [sequence_motion op c _ hc, state_append, state_append, state_update, state_enter,
      state_motionKey cx _ op c rfl]
    by_cases hi : c = 'i' ∨ c = 'a'
    · rw [if_pos hi, if_pos hi]
      exact State.resume_of_awaitsKey _ rfl
    · rw [if_neg hi, if_neg hi]
      by_cases ho : c = op.letter ∨ TextObject.ofChar? c ≠ none
      · rw [if_pos ho, if_pos ho]
        exact State.resume_clear _
      · rw [if_neg ho, if_neg ho]
        exact State.resume_clear _

theorem calls_sequence (l : Leader) (c : Char) (n : Nat) (hm : s.mode ≠ .visualLine) :
    (sequence l c n).calls cx s = l.callsFor s.marks n c := by
  cases l with
  | mark =>
    show (setMark c).calls cx s = []
    unfold setMark
    rw [calls_look]
    cases cx.host.selection <;> rfl
  | jump linewise =>
    show (jump c linewise).calls cx s = _
    unfold jump Leader.callsFor
    rw [calls_look]
    cases s.marks.get? c with
    | some x => exact calls_request cx s _
    | none => rfl
  | go =>
    unfold sequence Leader.callsFor
    rw [calls_ite, calls_request, calls_skip]
  | operator op =>
    show _ = op.callsFor n c
    by_cases hc : c = op.letter
    · have hi : ¬ (c = 'i' ∨ c = 'a') := by rw [hc]; exact letter_ne_object op
      rw [sequence_line op c n hc, calls_append, calls_request, state_request, calls_operate,
        op.leaving_eq_nil s.mode hm, List.append_nil, Operator.callsFor, if_neg hi, if_pos hc]
    · rw [sequence_motion op c n hc, calls_append, calls_append, calls_update, calls_enter,
        state_append, state_update, state_enter, List.append_nil, List.nil_append,
        calls_motionKey cx _ op c rfl (fun e => by cases e), Operator.callsFor, Operator.callsFor,
        if_neg hc, if_neg hc]

theorem calls_normalChar_sequence (c : Char) (l : Leader) (ha : s.pending.accepts c = false)
    (hl : s.pending.leader = some l) (hm : s.mode ≠ .visualLine) :
    (normalChar c).calls cx s =
      l.callsFor s.marks (s.pending.count cx.config.keys.countLimit) c := by
  rw [calls_congr cx s (normalChar_apply_sequence cx s c l ha hl), calls_append, calls_append,
    calls_append, calls_update, state_update, calls_clearPending, calls_finish, List.append_nil,
    List.append_nil, List.nil_append]
  exact calls_sequence cx _ l c _ hm

/-! ## In the visual modes -/

theorem modeKey_of_isSelecting {m : Mode} (h : m.isSelecting = true) (k : Key) :
    (modeKey m k : Edit S) = visualKey k := by
  cases m with
  | visual | visualLine => rfl
  | _ => cases h

theorem state_visualKey (k : Key) :
    (visualKey k).state cx s =
      match k.char?.bind VisualEntry.ofChar? with
      | some (.operate op) => { s with operator := none, mode := op.target }
      | some .object => { s with mode := .visualObject }
      | some (.extend _) | none => s := by
  unfold visualKey
  cases k.char?.bind VisualEntry.ofChar? with
  | none => rfl
  | some e =>
    cases e with
    | extend m => exact state_request cx s _
    | operate op => exact state_operate cx s op
    | object => rfl

theorem calls_visualKey (k : Key) :
    (visualKey k).calls cx s =
      match k.char?.bind VisualEntry.ofChar? with
      | some (.extend m) => typed m.extending
      | some (.operate op) => op.calls ++ op.leaving s.mode
      | some .object | none => [] := by
  unfold visualKey
  cases k.char?.bind VisualEntry.ofChar? with
  | none => rfl
  | some e =>
    cases e with
    | extend m => exact calls_request cx s _
    | operate op => exact calls_operate cx s op
    | object => rfl

theorem state_visualObjectKey (k : Key) :
    (visualObjectKey k).state cx s = { s with mode := .visualLine } := by
  unfold visualObjectKey
  rw [state_append, state_enter]
  cases k.char?.bind TextObject.ofChar? with
  | none => rfl
  | some o =>
    dsimp only
    rw [state_request]

theorem calls_visualObjectKey (k : Key) :
    (visualObjectKey k).calls cx s =
      match k.char?.bind TextObject.ofChar? with
      | some o => typed o.selectAll
      | none => [] := by
  unfold visualObjectKey
  rw [calls_append, calls_enter, List.append_nil]
  cases k.char?.bind TextObject.ofChar? with
  | some o => exact calls_request cx s _
  | none => rfl

/-! ## Outside the tables -/

theorem state_openOneShot :
    openOneShot.state cx s = { s with mode := .normal, oneShot := true } := by
  unfold openOneShot
  rw [state_append, state_toNormal, state_update]

theorem calls_openOneShot : openOneShot.calls cx s = s.mode.stepBack := by
  unfold openOneShot
  rw [calls_append, calls_toNormal, calls_update, List.append_nil]

theorem state_escape :
    escape.state cx s =
      { s with mode := .normal, pending := .empty, operator := none, oneShot := false } := by
  unfold escape
  rw [state_look, state_append, state_append, state_append, state_clearPending, state_toNormal,
    state_update, state_ite, state_request, state_skip, ite_self]

/-- A selection is dropped before the modes are left. -/
theorem calls_escape :
    escape.calls cx s =
      (if s.mode.isSelecting then typed [.plain .right] else []) ++ s.mode.stepBack := by
  unfold escape
  simp only [calls_look, calls_append, calls_ite, state_append, state_ite, calls_request,
    calls_skip, state_request, state_skip, ite_self, calls_update, state_update, calls_toNormal,
    calls_clearPending, List.append_nil]

end Edit

end ModalInput
