import ModalInput.Proofs.Clamping
import ModalInput.Proofs.Run

/-!
# How much a press may ask for

The calls of a press are those of a command or of a leader under the count that is pending, or a
few calls that no count repeats.  Since the count keeps to the limit, so do the calls.

    Counted n ((Edit.press p).calls cx s)                                    (counted_press)
    Counted n cs → 1 ≤ n → cs.length ≤ max (3 * n) (n + 3)                   (Counted.length_le)
    (s.pressAll ps).surface.calls.length ≤
      s.surface.calls.length + ps.length * callBound limit                   (length_calls_pressAll)
-/

namespace ModalInput

variable {S : Type}

/-! ## Definitions -/

/-- The calls that one press may ask for under the count `n`. -/
inductive Counted (n : Nat) : List (Call S) → Prop
  | command (c : Command) (counted : Bool) : Counted n (c.calls n counted ++ c.opening)
  | leader (l : Leader) (marks : Marks S) (c : Char) : Counted n (l.callsFor marks n c)
  /-- No count repeats these. -/
  | few {cs : List (Call S)} (h : cs.length ≤ 4) : Counted n cs

/-- The most calls that one press may ask for under a limit. -/
def callBound (limit : Nat) : Nat := max (3 * max 1 limit) (max 1 limit + 3)

/-! ## Lengths -/

theorem length_typed (chords : List Chord) :
    (typed chords : List (Call S)).length = chords.length :=
  List.length_map _

theorem length_times {α : Type} (n : Nat) (block : List α) :
    (times n block).length = n * block.length := by
  unfold times
  rw [List.length_flatten, List.map_replicate, List.sum_replicate_nat]

theorem length_toLine (line : Nat) (h : 1 ≤ line) : (Gesture.toLine line).length = line := by
  unfold Gesture.toLine
  rw [List.length_append, List.length_replicate]
  show 1 + (line - 1) = line
  omega

theorem length_wholeLines (lines : Nat) (h : 1 ≤ lines) :
    (Gesture.wholeLines lines).length = lines + 1 := by
  unfold Gesture.wholeLines
  rw [List.length_append, List.length_cons, List.length_replicate]
  show lines - 1 + 1 + 1 = lines + 1
  omega

theorem length_stepBack (m : Mode) : (m.stepBack : List (Call S)).length ≤ 1 := by
  unfold Mode.stepBack
  split
  · exact Nat.le_refl 1
  · exact Nat.zero_le 1

/-- An operator types after its action, or is left by a step back, but not both. -/
theorem length_operator (op : Operator) (m : Mode) :
    (op.calls ++ op.leaving m : List (Call S)).length ≤ 2 := by
  have hback : (m.stepBack : List (Call S)).length ≤ 1 := length_stepBack m
  cases op with
  | delete | change => exact Nat.le_of_ble_eq_true rfl
  | yank | put =>
    rw [List.length_append]
    exact Nat.add_le_add_left hback 1

theorem length_operatorCalls (op : Operator) : (op.calls : List (Call S)).length ≤ 2 := by
  have h := length_operator (S := S) op .normal
  rw [List.length_append] at h
  omega

theorem length_extendToEnd (o : TextObject) : o.extendToEnd.length = 1 := by
  cases o <;> rfl

theorem length_toStart (o : TextObject) : o.toStart.length = 1 := by
  cases o <;> rfl

theorem length_selectAll (o : TextObject) : o.selectAll.length = 3 := by
  cases o <;> rfl

theorem length_extending (m : Motion) : m.extending.length ≤ 2 := by
  rw [m.extending_eq, List.length_map]
  cases m with
  | step d => exact Nat.le_of_ble_eq_true rfl
  | word w | paragraph w | document w => cases w <;> exact Nat.le_of_ble_eq_true rfl

/-- A selection is opened by commands that do nothing else. -/
theorem length_block_add_opening (c : Command) :
    (c.block : List (Call S)).length + (c.opening : List (Call S)).length ≤ 3 := by
  cases c with
  | motion m =>
    cases m with
    | step d => exact Nat.le_of_ble_eq_true rfl
    | word w | paragraph w | document w => cases w <;> exact Nat.le_of_ble_eq_true rfl
  | lineEdge w | openLine w => cases w <;> exact Nat.le_of_ble_eq_true rfl
  | deleteChar w | findAgain w => cases w <;> exact Nat.le_of_ble_eq_true rfl
  | insert p => cases p <;> exact Nat.le_of_ble_eq_true rfl
  | select b => cases b <;> exact Nat.le_of_ble_eq_true rfl
  | cutLineEnd b => cases b <;> exact Nat.le_of_ble_eq_true rfl
  | toLine | action a | joinLines | find => exact Nat.le_of_ble_eq_true rfl

theorem length_command (c : Command) (n : Nat) (counted : Bool) (hn : 1 ≤ n) :
    (c.calls n counted ++ c.opening : List (Call S)).length ≤ 3 * n := by
  have hparts : (c.block : List (Call S)).length + (c.opening : List (Call S)).length ≤ 3 :=
    length_block_add_opening c
  rw [List.length_append]
  unfold Command.calls
  by_cases h : c = .toLine ∧ counted = true
  · rw [if_pos h, length_typed, length_toLine n hn, h.1]
    show n + 0 ≤ 3 * n
    omega
  · rw [if_neg h, length_times]
    have htimes : (if c.repeats then n else 1) ≤ n := by
      split
      · exact Nat.le_refl n
      · exact hn
    calc
      (if c.repeats then n else 1) * (c.block : List (Call S)).length +
          (c.opening : List (Call S)).length
        ≤ n * (c.block : List (Call S)).length + n * (c.opening : List (Call S)).length :=
          Nat.add_le_add (Nat.mul_le_mul_right _ htimes) (Nat.le_mul_of_pos_left _ hn)
      _ = n * ((c.block : List (Call S)).length + (c.opening : List (Call S)).length) :=
          (Nat.mul_add _ _ _).symm
      _ ≤ n * 3 := Nat.mul_le_mul_left n hparts
      _ = 3 * n := Nat.mul_comm n 3

theorem length_callsFor_operator (op : Operator) (n : Nat) (c : Char) (hn : 1 ≤ n) :
    (op.callsFor n c : List (Call S)).length ≤ n + 3 := by
  have hop : (op.calls : List (Call S)).length ≤ 2 := length_operatorCalls op
  unfold Operator.callsFor
  by_cases hi : c = 'i' ∨ c = 'a'
  · rw [if_pos hi]
    exact Nat.zero_le _
  · rw [if_neg hi]
    by_cases hl : c = op.letter
    · rw [if_pos hl, List.length_append, length_typed, length_wholeLines n hn]
      omega
    · rw [if_neg hl]
      cases TextObject.ofChar? c with
      | some o =>
        show (typed o.extendToEnd ++ op.calls : List (Call S)).length ≤ n + 3
        rw [List.length_append, length_typed, length_extendToEnd]
        omega
      | none => exact Nat.zero_le _

/-- Only over a selection is there an operator whose letter names a text object, and that one makes
a single call. -/
theorem length_callsFor_object (op : Operator) (c : Char) (o : TextObject)
    (ho : TextObject.ofChar? c = some o) : (op.callsFor 1 c : List (Call S)).length ≤ 3 := by
  have hop : (op.calls : List (Call S)).length ≤ 2 := length_operatorCalls op
  unfold Operator.callsFor
  rw [if_neg (Edit.ofChar?_ne_object c o ho)]
  by_cases hl : c = op.letter
  · have hput : op = .put := by
      rw [hl] at ho
      cases op
      case put => rfl
      all_goals cases ho
    rw [if_pos hl, hput]
    exact Nat.le_refl 3
  · rw [if_neg hl, ho]
    show (typed o.extendToEnd ++ op.calls : List (Call S)).length ≤ 3
    rw [List.length_append, length_typed, length_extendToEnd]
    omega

theorem length_callsFor_leader (l : Leader) (marks : Marks S) (n : Nat) (c : Char) (hn : 1 ≤ n) :
    (l.callsFor marks n c).length ≤ n + 3 := by
  cases l with
  | mark => exact Nat.zero_le _
  | jump linewise =>
    unfold Leader.callsFor
    cases marks.get? c with
    | some x =>
      cases linewise with
      | false => exact Nat.le_add_left 1 (n + 2)
      | true => exact Nat.le_add_left 2 (n + 1)
    | none => exact Nat.zero_le _
  | go =>
    show (if c = 'g' then typed (Gesture.toLine n) else [] : List (Call S)).length ≤ n + 3
    by_cases hg : c = 'g'
    · rw [if_pos hg, length_typed, length_toLine n hn]
      omega
    · rw [if_neg hg]
      exact Nat.zero_le _
  | operator op => exact length_callsFor_operator op n c hn

theorem Counted.nil (n : Nat) : Counted n ([] : List (Call S)) := .few (Nat.zero_le 4)

theorem Counted.length_le {n : Nat} {cs : List (Call S)} (h : Counted n cs) (hn : 1 ≤ n) :
    cs.length ≤ max (3 * n) (n + 3) := by
  cases h with
  | command c counted =>
    have := length_command (S := S) c n counted hn
    omega
  | leader l marks c =>
    have := length_callsFor_leader l marks n c hn
    omega
  | few h => omega

/-! ## What a press asks for -/

namespace Edit

variable (cx : Context S) (s : State S)

/-- In Normal mode the count is the one that is pending, whichever leader it came before. -/
theorem counted_normalChar (c : Char) (hm : s.mode = .normal) :
    Counted (s.pending.count cx.config.keys.countLimit) ((normalChar c).calls cx s) := by
  cases ha : s.pending.accepts c with
  | true =>
    rw [calls_normalChar_digit cx s c ha]
    exact Counted.nil _
  | false =>
    cases hl : s.pending.leader with
    | some l =>
      rw [calls_normalChar_sequence cx s c l ha hl (by rw [hm]; decide)]
      exact .leader l s.marks c
    | none =>
      cases he : NormalEntry.ofChar? c with
      | none =>
        rw [calls_normalChar_other cx s c ha hl he]
        exact Counted.nil _
      | some e =>
        cases e with
        | command cmd =>
          rw [calls_normalChar_command cx s c cmd ha hl he]
          exact .command cmd s.pending.hasCount
        | leader l =>
          rw [calls_normalChar_leader cx s c l ha hl he]
          exact Counted.nil _

theorem calls_motionKey_idle (k : Key) (h : s.operator = none) :
    (motionKey k).calls cx s = s.mode.stepBack := by
  unfold motionKey
  rw [calls_look, h]
  exact calls_toNormal cx s

theorem calls_motionKey_noChar (k : Key) (op : Operator) (h : s.operator = some op)
    (hk : k.char? = none) : (motionKey k).calls cx s = s.mode.stepBack := by
  unfold motionKey
  rw [calls_look, h, hk]
  show (abandon ++ finish : Edit S).calls cx s = _
  rw [calls_append, calls_abandon, calls_finish, List.append_nil]

/-- A key is either a character that completes an operator, or it makes no call of its own. -/
theorem calls_motionKey_cases (k : Key) (hm : s.mode ≠ .visualLine) :
    (∃ (op : Operator) (c : Char), k = .char c ∧ (motionKey k).calls cx s = op.callsFor 1 c) ∨
      (motionKey k).calls cx s = [] := by
  cases ho : s.operator with
  | none => exact Or.inr (by rw [calls_motionKey_idle cx s k ho, s.mode.stepBack_eq_nil hm])
  | some op =>
    cases hk : k.char? with
    | none =>
      exact Or.inr (by rw [calls_motionKey_noChar cx s k op ho hk, s.mode.stepBack_eq_nil hm])
    | some c =>
      have hc : k = .char c := by
        cases k with
        | char d => exact congrArg Key.char (Option.some.inj hk)
        | _ => cases hk
      rw [hc]
      exact Or.inl ⟨op, c, rfl, calls_motionKey cx s op c ho hm⟩

theorem length_calls_motionKey (k : Key) (hm : s.mode ≠ .visualLine) :
    ((motionKey k).calls cx s).length ≤ 4 := by
  rcases calls_motionKey_cases cx s k hm with ⟨op, c, -, h⟩ | h
  · rw [h]
    exact length_callsFor_operator op 1 c (Nat.le_refl 1)
  · rw [h]
    exact Nat.zero_le 4

theorem length_calls_objectKey (k : Key) (hm : s.mode ≠ .visualLine) :
    ((objectKey k).calls cx s).length ≤ 4 := by
  rcases Key.textObject_cases k with ⟨c, o, rfl, ho⟩ | hk
  · have hmotion : ((motionKey (.char c)).calls cx s).length ≤ 3 := by
      rcases calls_motionKey_cases cx s (.char c) hm with ⟨op, d, hd, h⟩ | h
      · cases hd
        rw [h]
        exact length_callsFor_object op c o ho
      · rw [h]
        exact Nat.zero_le 3
    rw [calls_congr cx s (objectKey_apply_object cx s c o ho), calls_append, calls_request,
      state_request, List.length_append, length_typed, length_toStart]
    omega
  · rw [calls_objectKey_other cx s k hk hm]
    exact Nat.zero_le 4

theorem length_calls_visualKey (k : Key) : ((visualKey k).calls cx s).length ≤ 4 := by
  rw [calls_visualKey]
  cases k.char?.bind VisualEntry.ofChar? with
  | none => exact Nat.zero_le 4
  | some e =>
    cases e with
    | extend m =>
      show (typed m.extending : List (Call S)).length ≤ 4
      rw [length_typed]
      exact Nat.le_trans (length_extending m) (by omega)
    | operate op => exact Nat.le_trans (length_operator op s.mode) (by omega)
    | object => exact Nat.zero_le 4

theorem length_calls_visualObjectKey (k : Key) :
    ((visualObjectKey k).calls cx s).length ≤ 4 := by
  rw [calls_visualObjectKey]
  cases k.char?.bind TextObject.ofChar? with
  | none => exact Nat.zero_le 4
  | some o =>
    show (typed o.selectAll : List (Call S)).length ≤ 4
    rw [length_typed, length_selectAll]
    omega

theorem length_calls_escape : (escape.calls cx s).length ≤ 4 := by
  have hback : (s.mode.stepBack : List (Call S)).length ≤ 1 := length_stepBack s.mode
  rw [calls_escape, List.length_append]
  split
  · show 1 + (s.mode.stepBack : List (Call S)).length ≤ 4
    omega
  · show 0 + (s.mode.stepBack : List (Call S)).length ≤ 4
    omega

/-- Outside Normal mode no count is looked at. -/
theorem counted_modeKey (k : Key) :
    Counted (s.pending.count cx.config.keys.countLimit) ((modeKey s.mode k).calls cx s) := by
  cases hm : s.mode with
  | normal =>
    show Counted _ ((normalKey k).calls cx s)
    unfold normalKey
    cases k.char? with
    | some c => exact counted_normalChar cx s c hm
    | none => exact Counted.nil _
  | insert | search => exact Counted.nil _
  | visual | visualLine => exact .few (length_calls_visualKey cx s k)
  | operatorMotion => exact .few (length_calls_motionKey cx s k (by rw [hm]; decide))
  | operatorObject => exact .few (length_calls_objectKey cx s k (by rw [hm]; decide))
  | visualObject => exact .few (length_calls_visualObjectKey cx s k)

/-- In every state, one that presses cannot lead to included. -/
theorem counted_press (p : Press) :
    Counted (s.pending.count cx.config.keys.countLimit) ((Edit.press p).calls cx s) := by
  have hback : (s.mode.stepBack : List (Call S)).length ≤ 4 :=
    Nat.le_trans (length_stepBack s.mode) (by omega)
  show Counted _ ((ofIntake s.mode (intake cx.config.keys s.mode p)).calls cx s)
  cases intake cx.config.keys s.mode p with
  | pass => exact Counted.nil _
  | oneShot => exact .few (by rw [ofIntake, calls_openOneShot]; exact hback)
  | closeFind => exact .few (by rw [ofIntake, calls_toNormal]; exact hback)
  | escape => exact .few (length_calls_escape cx s)
  | key k => exact counted_modeKey cx s k

theorem length_calls_press (p : Press) :
    ((Edit.press p).calls cx s).length ≤ callBound cx.config.keys.countLimit := by
  have hone := s.pending.one_le_count cx.config.keys.countLimit
  have hle := s.pending.count_le cx.config.keys.countLimit
  have hlen := (counted_press cx s p).length_le hone
  unfold callBound
  omega

end Edit

/-! ## What reaches a surface -/

namespace Session

theorem length_calls_step (s : Session) (p : Press) :
    (s.step (.press p)).surface.calls.length ≤
      s.surface.calls.length + callBound s.config.keys.countLimit := by
  rw [calls_step, List.length_append]
  exact Nat.add_le_add_left
    (Nat.le_trans (List.length_filter_le _ _) (Edit.length_calls_press s.context s.state p)) _

theorem length_calls_pressAll (s : Session) (ps : List Press) :
    (s.pressAll ps).surface.calls.length ≤
      s.surface.calls.length + ps.length * callBound s.config.keys.countLimit := by
  induction ps generalizing s with
  | nil =>
    rw [List.length_nil, Nat.zero_mul]
    exact Nat.le_refl _
  | cons p ps ih =>
    have hstep := length_calls_step s p
    have hrest := ih (s.step (.press p))
    show ((s.step (.press p)).pressAll ps).surface.calls.length ≤ _
    rw [List.length_cons, Nat.succ_mul]
    have hlimit : (s.step (.press p)).config = s.config := rfl
    rw [hlimit] at hrest
    omega

end Session

/-! ## The bound -/

/-- A count in words keeps to the limit, whether or not its digits stand for a number at all. -/
theorem Pending.wordCount_bounds (q : Pending) (limit : UInt64) :
    1 ≤ (q.wordCount limit).toNat ∧ (q.wordCount limit).toNat ≤ max 1 limit.toNat := by
  have hone : (1 : UInt64).toNat = 1 := rfl
  unfold wordCount
  by_cases h : q.hasCount = true
  · rw [if_pos h, Word.toNat_max, Word.toNat_min, hone]
    omega
  · rw [if_neg h, hone]
    omega

/-- No press floods a surface.  Whatever the settings, the state and the selection that the surface
reports, the calls are those of one command or leader under the pending count, or four at most, and
that count lies between one and the limit.  A surface that turns actions down receives no more, and
a run receives no more than this for each press.  The count keeps to the limit in words too. -/
theorem press_bounded (p : Press) :
    (∀ {S : Type} (cx : Context S) (s : State S),
      let limit := cx.config.keys.countLimit
      let cs := (Edit.press p).calls cx s
      Counted (s.pending.count limit) cs ∧ 1 ≤ s.pending.count limit ∧
        s.pending.count limit ≤ max 1 limit ∧
        cs.length ≤ max (3 * max 1 limit) (max 1 limit + 3)) ∧
    (∀ s : Session,
      let limit := s.config.keys.countLimit
      let cs := (Edit.press p).calls s.context s.state
      (s.step (.press p)).surface.calls =
          s.surface.calls ++ cs.filter (fun c => !c.performs s.surface.unavailable) ∧
        (s.step (.press p)).surface.calls.length ≤
          s.surface.calls.length + max (3 * max 1 limit) (max 1 limit + 3) ∧
        ∀ ps, (s.pressAll (p :: ps)).surface.calls.length ≤
          s.surface.calls.length + (ps.length + 1) * max (3 * max 1 limit) (max 1 limit + 3)) ∧
    ∀ (q : Pending) (limit : UInt64),
      1 ≤ (q.wordCount limit).toNat ∧ (q.wordCount limit).toNat ≤ max 1 limit.toNat := by
  refine ⟨fun cx s => ⟨Edit.counted_press cx s p, s.pending.one_le_count _, s.pending.count_le _,
    Edit.length_calls_press cx s p⟩, ?_, ?_⟩
  · intro s
    exact ⟨s.calls_step p, s.length_calls_step p, fun ps => s.length_calls_pressAll (p :: ps)⟩
  · intro q limit
    exact q.wordCount_bounds limit

end ModalInput
