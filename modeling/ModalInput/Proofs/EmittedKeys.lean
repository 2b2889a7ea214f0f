import ModalInput.Proofs.Indicator

/-!
# The keys that are typed

Whatever the interpreter is given, in whatever state, it types keys that exist: those that have a
name, and those that a character names.  A letter or a digit out of any other character stands in
no recording that was made by inputs.

    e.Asks P → f.Asks P → (e ++ f).Asks P                                        (Asks.append)
    AllGenuine s.surface.calls → AllGenuine (s.stepAll is).surface.calls     (genuine_stepAll)
-/

namespace ModalInput

/-! ## Definitions -/

def KeyCap.isNamed : KeyCap → Bool
  | .letter _ | .digit _ => false
  | _ => true

/-- The key has a name, or there is a character that it types. -/
def KeyCap.Genuine (k : KeyCap) : Prop := k.isNamed = true ∨ ∃ c, KeyCap.ofChar? c = some k

/-- What is typed is a key that exists. -/
def Call.Genuine {S : Type} : Call S → Prop
  | .type c => c.key.Genuine
  | .perform _ | .restore _ => True

def AllGenuine {S : Type} (cs : List (Call S)) : Prop := ∀ c ∈ cs, c.Genuine

/-- Whatever the edit starts from, it makes calls of this kind alone. -/
def Edit.Asks {S : Type} (e : Edit S) (P : Call S → Prop) : Prop :=
  ∀ cx s, ∀ c ∈ e.calls cx s, P c

variable {S : Type}

/-! ## Rules -/

namespace Edit

section
variable {P : Call S → Prop}

theorem Asks.append {e f : Edit S} (h : e.Asks P) (k : f.Asks P) : (e ++ f).Asks P := by
  intro cx s c hc
  rw [calls_append] at hc
  rcases List.mem_append.1 hc with hc | hc
  · exact h cx s c hc
  · exact k cx _ c hc

theorem asks_look {f : Context S → State S → Edit S} (h : ∀ cx s, (f cx s).Asks P) :
    (look f).Asks P :=
  fun cx s => h cx s cx s

/-- An edit that makes no calls makes none of another kind. -/
theorem asks_of_calls_eq_nil {e : Edit S} (h : ∀ cx s, e.calls cx s = []) : e.Asks P := by
  intro cx s c hc
  rw [h] at hc
  cases hc

theorem asks_skip : (skip : Edit S).Asks P := asks_of_calls_eq_nil fun _ _ => rfl

theorem asks_update (f : State S → State S) : (update f).Asks P :=
  asks_of_calls_eq_nil fun _ _ => rfl

theorem asks_announce : (announce : Edit S).Asks P := asks_of_calls_eq_nil fun _ _ => rfl

theorem asks_enter (m : Mode) : (enter m : Edit S).Asks P := asks_of_calls_eq_nil fun _ _ => rfl

theorem asks_clearPending : (clearPending : Edit S).Asks P := asks_of_calls_eq_nil fun _ _ => rfl

theorem asks_finish : (finish : Edit S).Asks P := asks_of_calls_eq_nil calls_finish

theorem asks_request {cs : List (Call S)} (h : ∀ c ∈ cs, P c) : (request cs).Asks P := by
  intro cx s c hc
  rw [calls_request] at hc
  exact h c hc

end

end Edit

/-! ## Gestures -/

section
variable {cs ds : List (Call S)}

theorem allGenuine_nil : AllGenuine ([] : List (Call S)) := fun _ hc => by cases hc

theorem AllGenuine.append (h : AllGenuine cs) (k : AllGenuine ds) : AllGenuine (cs ++ ds) :=
  List.forall_mem_append.2 ⟨h, k⟩

theorem AllGenuine.times (h : AllGenuine cs) (n : Nat) : AllGenuine (times n cs) := by
  intro c hc
  obtain ⟨block, hblock, hc⟩ := List.mem_flatten.1 hc
  rw [List.eq_of_mem_replicate hblock] at hc
  exact h c hc

theorem allGenuine_perform (a : Action) : AllGenuine ([.perform a] : List (Call S)) := by
  intro c hc
  rw [List.mem_singleton.1 hc]
  trivial

theorem allGenuine_typed {chords : List Chord} (h : ∀ c ∈ chords, c.key.isNamed = true) :
    AllGenuine (typed chords : List (Call S)) := by
  intro c hc
  obtain ⟨chord, hchord, rfl⟩ := List.mem_map.1 hc
  exact Or.inl (h chord hchord)

/-! The keys of the gestures have names. -/

theorem isNamed_chords (m : Motion) : ∀ c ∈ m.chords, c.key.isNamed = true := by
  cases m with
  | step d => cases d <;> decide
  | word w | paragraph w | document w => cases w <;> decide

theorem isNamed_extending (m : Motion) : ∀ c ∈ m.extending, c.key.isNamed = true := by
  intro c hc
  rw [m.extending_eq] at hc
  obtain ⟨chord, hchord, rfl⟩ := List.mem_map.1 hc
  exact isNamed_chords m chord hchord

theorem isNamed_toLine (line : Nat) : ∀ c ∈ Gesture.toLine line, c.key.isNamed = true := by
  intro c hc
  rcases List.mem_append.1 hc with hc | hc
  · exact isNamed_chords _ c hc
  · rw [List.eq_of_mem_replicate hc]
    rfl

theorem isNamed_wholeLines (lines : Nat) :
    ∀ c ∈ Gesture.wholeLines lines, c.key.isNamed = true := by
  intro c hc
  rcases List.mem_append.1 hc with hc | hc
  · rcases List.mem_cons.1 hc with rfl | hc
    · rfl
    · rw [List.eq_of_mem_replicate hc]
      rfl
  · rw [List.mem_singleton.1 hc]
    rfl

theorem isNamed_textObject (o : TextObject) :
    ∀ c ∈ o.toStart ++ o.extendToEnd ++ o.selectAll, c.key.isNamed = true := by
  cases o <;> decide

/-- The find box alone is opened with the key of a letter. -/
theorem allGenuine_block (cmd : Command) : AllGenuine (cmd.block : List (Call S)) := by
  cases cmd with
  | motion m => exact allGenuine_typed (isNamed_chords m)
  | toLine => exact allGenuine_typed (isNamed_chords _)
  | action a => exact allGenuine_perform a
  | cutLineEnd => exact (allGenuine_typed (by decide)).append (allGenuine_perform .cut)
  | select => exact allGenuine_nil
  | joinLines => exact allGenuine_typed (by decide)
  | insert p => cases p <;> exact allGenuine_typed (by decide)
  | lineEdge w | openLine w | deleteChar w | findAgain w =>
    cases w <;> exact allGenuine_typed (by decide)
  | find =>
    intro c hc
    rw [List.mem_singleton.1 hc]
    exact Or.inr ⟨'f', by decide⟩

theorem allGenuine_command (cmd : Command) (count : Nat) (counted : Bool) :
    AllGenuine (cmd.calls count counted ++ cmd.opening : List (Call S)) := by
  refine AllGenuine.append ?_ ?_
  · unfold Command.calls
    split
    · exact allGenuine_typed (isNamed_toLine count)
    · exact (allGenuine_block cmd).times _
  · unfold Command.opening
    split
    · exact allGenuine_typed (by decide)
    · exact allGenuine_typed (by decide)
    · exact allGenuine_nil

theorem allGenuine_stepBack (m : Mode) : AllGenuine (m.stepBack : List (Call S)) := by
  unfold Mode.stepBack
  split
  · exact allGenuine_typed (by decide)
  · exact allGenuine_nil

theorem allGenuine_operator (op : Operator) (m : Mode) :
    AllGenuine (op.calls ++ op.leaving m : List (Call S)) := by
  cases op with
  | delete =>
    have htyped : AllGenuine (typed [.plain .backspace] : List (Call S)) :=
      allGenuine_typed (by decide)
    exact ((allGenuine_perform .cut).append htyped).append allGenuine_nil
  | change => exact (allGenuine_perform .cut).append allGenuine_nil
  | yank => exact (allGenuine_perform .copy).append (allGenuine_stepBack m)
  | put => exact (allGenuine_perform .paste).append (allGenuine_stepBack m)

end

/-! ## Edits -/

namespace Edit

theorem asks_toNormal : (toNormal : Edit S).Asks Call.Genuine := by
  intro cx s
  rw [calls_toNormal]
  exact allGenuine_stepBack s.mode

theorem asks_operate (op : Operator) : (operate op : Edit S).Asks Call.Genuine := by
  intro cx s
  rw [calls_operate]
  exact allGenuine_operator op s.mode

theorem asks_abandon : (abandon : Edit S).Asks Call.Genuine := (asks_update _).append asks_toNormal

theorem asks_command (cmd : Command) (count : Nat) (counted : Bool) :
    (command cmd count counted : Edit S).Asks Call.Genuine := by
  intro cx s
  rw [calls_command]
  exact allGenuine_command cmd count counted

theorem asks_motionKey (k : Key) : (motionKey k : Edit S).Asks Call.Genuine := by
  refine asks_look fun _ s => ?_
  split
  · exact asks_toNormal
  · exact asks_abandon.append asks_finish
  · split
    · exact asks_enter .operatorObject
    · split
      · exact ((asks_request (allGenuine_typed (isNamed_wholeLines 1))).append
          (asks_operate _)).append asks_finish
      · split
        · next o _ =>
          have hobject : AllGenuine (typed o.extendToEnd : List (Call S)) :=
            allGenuine_typed fun c hc => isNamed_textObject o c (by simp [hc])
          exact ((asks_request hobject).append (asks_operate _)).append asks_finish
        · exact asks_abandon.append asks_finish

theorem asks_objectKey (k : Key) : (objectKey k : Edit S).Asks Call.Genuine := by
  unfold objectKey
  split
  · next o _ =>
    have hobject : AllGenuine (typed o.toStart : List (Call S)) :=
      allGenuine_typed fun c hc => isNamed_textObject o c (by simp [hc])
    exact (asks_request hobject).append (asks_motionKey k)
  · exact asks_abandon.append asks_finish

/-- A jump restores a selection and goes to the start of the line at most. -/
theorem asks_jump (label : Char) (linewise : Bool) :
    (jump label linewise : Edit S).Asks Call.Genuine := by
  refine asks_look fun _ s => ?_
  split
  · refine asks_request (List.forall_mem_cons.2 ⟨trivial, ?_⟩)
    cases linewise with
    | false => exact allGenuine_nil
    | true => exact allGenuine_typed (by decide)
  · exact asks_skip

theorem asks_setMark (label : Char) : (setMark label : Edit S).Asks Call.Genuine := by
  refine asks_look fun cx _ => ?_
  split
  · exact asks_update _
  · exact asks_skip

theorem asks_sequence (l : Leader) (c : Char) (count : Nat) :
    (sequence l c count : Edit S).Asks Call.Genuine := by
  cases l with
  | mark => exact asks_setMark c
  | jump linewise => exact asks_jump c linewise
  | go =>
    unfold sequence
    dsimp only
    split
    · exact asks_request (allGenuine_typed (isNamed_toLine count))
    · exact asks_skip
  | operator op =>
    unfold sequence
    dsimp only
    split
    · exact (asks_request (allGenuine_typed (isNamed_wholeLines count))).append (asks_operate op)
    · exact ((asks_update _).append (asks_enter _)).append (asks_motionKey _)

theorem asks_normalKey (k : Key) : (normalKey k : Edit S).Asks Call.Genuine := by
  unfold normalKey
  split
  · refine asks_look fun cx s => ?_
    show Asks (ite _ _ _) _
    split
    · exact (asks_update _).append asks_announce
    · split
      · exact (((asks_update _).append (asks_sequence _ _ _)).append asks_clearPending).append
          asks_finish
      · exact ((asks_command _ _ _).append asks_clearPending).append asks_finish
      · exact (asks_update _).append asks_announce
      · exact asks_clearPending
  · exact asks_clearPending

theorem asks_visualKey (k : Key) : (visualKey k : Edit S).Asks Call.Genuine := by
  unfold visualKey
  split
  · exact asks_request (allGenuine_typed (isNamed_extending _))
  · exact asks_operate _
  · exact asks_enter .visualObject
  · exact asks_skip

theorem asks_visualObjectKey (k : Key) : (visualObjectKey k : Edit S).Asks Call.Genuine := by
  unfold visualObjectKey
  split
  · next o _ =>
    have hobject : AllGenuine (typed o.selectAll : List (Call S)) :=
      allGenuine_typed fun c hc => isNamed_textObject o c (by simp [hc])
    exact (asks_request hobject).append (asks_enter _)
  · exact asks_skip.append (asks_enter _)

theorem asks_escape : (escape : Edit S).Asks Call.Genuine := by
  refine asks_look fun _ s => ?_
  refine Asks.append (Asks.append (Asks.append ?_ (asks_update _)) asks_toNormal) asks_clearPending
  split
  · exact asks_request (allGenuine_typed (by decide))
  · exact asks_skip

theorem asks_press (p : Press) : (Edit.press p : Edit S).Asks Call.Genuine := by
  refine asks_look fun cx s => ?_
  unfold ofIntake
  split
  · exact asks_skip
  · exact asks_toNormal.append (asks_update _)
  · exact asks_toNormal
  · exact asks_escape
  · unfold modeKey
    split
    · exact asks_normalKey _
    · exact asks_visualKey _
    · exact asks_visualKey _
    · exact asks_motionKey _
    · exact asks_objectKey _
    · exact asks_visualObjectKey _
    · exact asks_skip
    · exact asks_skip

end Edit

/-! ## Inputs -/

theorem Transition.asks_edit (t : Transition) : (t.edit : Edit S).Asks Call.Genuine := by
  cases t with
  | normal => exact Edit.asks_toNormal
  | visual | visualLine =>
    exact (Edit.asks_enter _).append (Edit.asks_request (allGenuine_typed (by decide)))
  | _ => exact Edit.asks_enter _

theorem Handler.asks_edit (h : Handler) (k : Key) : (h.edit k : Edit S).Asks Call.Genuine := by
  cases h with
  | normal => exact Edit.asks_normalKey k
  | visual => exact Edit.asks_visualKey k
  | operatorMotion => exact Edit.asks_motionKey k
  | operatorObject => exact Edit.asks_objectKey k
  | visualObject => exact Edit.asks_visualObjectKey k

theorem Input.asks_edit (i : Input) : i.edit.Asks Call.Genuine := by
  cases i with
  | press p => exact Edit.asks_press p
  | start => exact Edit.asks_announce
  | transition t => exact t.asks_edit
  | handle h k => exact h.asks_edit k
  | select | withdraw => exact Edit.asks_skip

/-! ## Sessions -/

namespace Session

/-- What an input adds to the recording, a change from outside nothing. -/
theorem calls_input (s : Session) (i : Input) :
    (s.step i).surface.calls =
      s.surface.calls ++ (i.edit.calls s.context s.state).filter
        fun c => !c.performs s.surface.unavailable := by
  cases i with
  | select | withdraw => exact (List.append_nil _).symm
  | _ => exact congrArg (s.surface.calls ++ ·) (Recording.filterMap_accepted? _ _)

theorem genuine_step {s : Session} (h : AllGenuine s.surface.calls) (i : Input) :
    AllGenuine (s.step i).surface.calls := by
  rw [calls_input]
  refine h.append fun c hc => ?_
  exact i.asks_edit s.context s.state c (List.mem_of_mem_filter hc)

theorem genuine_stepAll {s : Session} (h : AllGenuine s.surface.calls) (is : List Input) :
    AllGenuine (s.stepAll is).surface.calls := by
  induction is generalizing s with
  | nil => exact h
  | cons i is ih => exact ih (genuine_step h i)

end Session

end ModalInput
