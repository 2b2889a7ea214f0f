import ModalInput.Proofs.Indicator
import ModalInput.Proofs.OneShot

/-!
# The text and the mode of an announcement

What is announced reads as Normal mode, with a count or without, only in Normal mode, with one
exception.  A command that leaves Normal mode changes the mode while its count is still pending, so
that under a count the first of its two announcements has the text of Normal mode and the style and
the caret of the mode that comes next.  The second follows at once and is right.

    s.LeavesCounted p m →
      (press p).statuses cx s = [.of theme m s.pending, .of theme m .empty]
                                                                  (statuses_press_of_leavesCounted)
    a ∈ start.announced ps ∧ a.Contradicts ↔ a is the first of these in some step of the run
                                                                  (announced_contradicts_iff)
-/

namespace ModalInput

variable {S : Type}

/-! ## Definitions -/

/-- The text of Normal mode, alone or with a count behind it. -/
def Status.ReadsNormal (a : Status) : Prop :=
  a.text = "NORMAL" ∨
    ∃ w : List Char, w ≠ [] ∧ (∀ c ∈ w, c.isDigit = true) ∧ a.text = "NORMAL " ++ String.ofList w

/-- The text is of Normal mode and the rest of another. -/
def Status.Contradicts (a : Status) : Prop := a.ReadsNormal ∧ a.mode ≠ .normal

/-- A count is pending, and no leader that would be shown with it. -/
def Pending.Bare (p : Pending) : Prop := p.leader = none ∧ p.digits ≠ []

/-- The mode that a key of Normal mode leaves it for. -/
def exitMode? (c : Char) : Option Mode :=
  match c with
  | 'i' | 'a' | 'I' | 'A' | 'o' | 'O' | 'C' => some .insert
  | 'v' => some .visual
  | 'V' => some .visualLine
  | '/' => some .search
  | _ => none

/-- The press leaves Normal mode for the mode `m` under a count. -/
structure State.LeavesCounted (s : State S) (p : Press) (m : Mode) : Prop where
  mode_eq : s.mode = .normal
  bare : s.pending.Bare
  types : ∃ c, p.Types c ∧ exitMode? c = some m

/-! ## Texts -/

namespace Status

theorem ReadsNormal.head?_eq {a : Status} (h : a.ReadsNormal) :
    a.text.toList.head? = some 'N' := by
  rcases h with h | ⟨w, -, -, h⟩
  · rw [h]
    rfl
  · rw [h, String.toList_append]
    rfl

/-- It ends with the last letter of the label or with a digit. -/
theorem ReadsNormal.getLast?_eq {a : Status} (h : a.ReadsNormal) :
    ∃ c, a.text.toList.getLast? = some c ∧ (c = 'L' ∨ c.isDigit = true) := by
  rcases h with h | ⟨w, hw, hd, h⟩
  · rw [h]
    exact ⟨'L', rfl, Or.inl rfl⟩
  · obtain ⟨u, c, rfl⟩ := List.eq_nil_or_concat' w |>.resolve_left hw
    refine ⟨c, ?_, Or.inr (hd c (by simp))⟩
    have htext : a.text.toList = ("NORMAL ".toList ++ u) ++ [c] := by
      rw [h, String.toList_append, List.append_assoc]
      exact congrArg _ String.toList_ofList
    rw [htext]
    exact List.getLast?_concat

theorem letter_not_normal (l : Leader) : ¬ (l.letter = 'L' ∨ l.letter.isDigit = true) := by
  cases l with
  | jump linewise => cases linewise <;> decide
  | operator op => cases op <;> decide
  | _ => decide

theorem head?_label {m : Mode} (h : m ≠ .normal) : m.label.toList.head? ≠ some 'N' := by
  cases m with
  | normal => exact absurd rfl h
  | _ => decide

/-- Away from Normal mode only a bare count reads as Normal mode. -/
theorem bare_of_contradicts {t : Theme} {m : Mode} {p : Pending}
    (h : (Status.of t m p).Contradicts) : p.Bare := by
  obtain ⟨hreads, hm⟩ := h
  cases hl : p.leader with
  | some l =>
    -- The text ends with the letter of the leader.
    obtain ⟨c, hc, hlast⟩ := hreads.getLast?_eq
    have htext : (Status.of t m p).text = String.ofList (p.digits ++ [l.letter]) := by
      unfold Status.of Pending.text?
      rw [hl]
      rfl
    rw [htext, String.toList_ofList, List.getLast?_concat] at hc
    cases hc
    exact absurd hlast (letter_not_normal l)
  | none =>
    -- Without digits the text is the label of the mode, and no other label starts like that one.
    refine ⟨hl, fun hd => ?_⟩
    have htext : (Status.of t m p).text = m.label := by
      unfold Status.of Pending.text? Pending.hasCount
      rw [hl, hd]
      rfl
    have hhead := hreads.head?_eq
    rw [htext] at hhead
    exact head?_label hm hhead

theorem text_of_bare {t : Theme} {m : Mode} {p : Pending} (h : p.Bare) :
    (Status.of t m p).text = "NORMAL " ++ String.ofList p.digits := by
  have hcount : p.hasCount = true := by simpa [Pending.hasCount] using h.2
  unfold Status.of Pending.text?
  rw [h.1, hcount]
  rfl

theorem text_ne_of_bare {t : Theme} {m : Mode} {p : Pending} (h : p.Bare) :
    (Status.of t m p).text ≠ "NORMAL" := by
  intro he
  rw [text_of_bare h] at he
  have hlist := congrArg String.toList he
  rw [String.toList_append] at hlist
  have hlength := congrArg List.length hlist
  rw [List.length_append] at hlength
  change 7 + _ = 6 at hlength
  omega

theorem contradicts_of_bare (t : Theme) {m : Mode} {p : Pending} (h : p.Bare)
    (hd : ∀ c ∈ p.digits, c.isDigit = true) (hm : m ≠ .normal) :
    (Status.of t m p).Contradicts :=
  ⟨Or.inr ⟨p.digits, h.2, hd, text_of_bare h⟩, hm⟩

theorem not_contradicts_of_mode {t : Theme} {p : Pending} : ¬ (Status.of t .normal p).Contradicts :=
  fun h => h.2 rfl

theorem not_contradicts_empty {t : Theme} {m : Mode} : ¬ (Status.of t m .empty).Contradicts :=
  fun h => (bare_of_contradicts h).2 rfl

end Status

/-! ## Commands that leave Normal mode -/

theorem exitMode?_eq (c : Char) (cmd : Command) (h : Command.ofChar? c = some cmd) :
    exitMode? c = if cmd.target .normal = .normal then none else some (cmd.target .normal) := by
  unfold Command.ofChar? at h
  split at h
  case h_25 =>
    obtain ⟨m, hm, rfl⟩ := Option.map_eq_some_iff.1 h
    unfold Motion.ofChar? at hm
    split at hm
    case h_5 =>
      obtain ⟨d, hd, -⟩ := Option.map_eq_some_iff.1 hm
      unfold Direction.ofChar? at hd
      split at hd
      case h_5 => cases hd
      all_goals rfl
    all_goals rfl
  all_goals
    cases h
    rfl

theorem exists_command_of_exitMode? {c : Char} {m : Mode} (h : exitMode? c = some m) :
    ∃ cmd, NormalEntry.ofChar? c = some (.command cmd) ∧ cmd.target .normal = m ∧ m ≠ .normal ∧
      c.isDigit = false := by
  unfold exitMode? at h
  split at h
  case h_11 => cases h
  all_goals
    cases h
    exact ⟨_, rfl, rfl, by decide, rfl⟩

namespace Edit

/-! ## Edits that leave the pending command alone -/

/-- The edit keeps the pending command and announces it, in whatever mode. -/
def KeepsPending (e : Edit S) : Prop :=
  ∀ cx s, (e.state cx s).pending = s.pending ∧
    ∀ a ∈ e.statuses cx s, ∃ m, a = .of cx.config.theme m s.pending

theorem KeepsPending.append {e f : Edit S} (h : e.KeepsPending) (k : f.KeepsPending) :
    (e ++ f).KeepsPending := by
  intro cx s
  obtain ⟨he, hes⟩ := h cx s
  obtain ⟨hf, hfs⟩ := k cx (e.state cx s)
  refine ⟨hf.trans he, fun a ha => ?_⟩
  rw [statuses_append] at ha
  rcases List.mem_append.1 ha with ha | ha
  · exact hes a ha
  · rw [← he]
    exact hfs a ha

theorem keepsPending_look {f : Context S → State S → Edit S} (h : ∀ cx s, (f cx s).KeepsPending) :
    (look f).KeepsPending :=
  fun cx s => h cx s cx s

theorem keepsPending_skip : (skip : Edit S).KeepsPending := fun _ _ => ⟨rfl, nofun⟩

theorem keepsPending_request (cs : List (Call S)) : (request cs).KeepsPending := by
  intro cx s
  rw [state_request, statuses_request]
  exact ⟨rfl, nofun⟩

theorem keepsPending_update {f : State S → State S} (h : ∀ s, (f s).pending = s.pending) :
    (update f).KeepsPending :=
  fun _ s => ⟨h s, nofun⟩

theorem keepsPending_enter (m : Mode) : (enter m : Edit S).KeepsPending :=
  fun _ _ => ⟨rfl, fun _ ha => ⟨m, List.mem_singleton.1 ha⟩⟩

theorem keepsPending_toNormal : (toNormal : Edit S).KeepsPending := by
  refine keepsPending_look fun _ s => ?_
  split
  · exact (keepsPending_request _).append (keepsPending_enter _)
  · exact keepsPending_skip.append (keepsPending_enter _)

theorem keepsPending_operate (op : Operator) : (operate op : Edit S).KeepsPending := by
  refine ((keepsPending_update ?_).append (keepsPending_request _)).append ?_
  · exact fun _ => rfl
  · cases op with
    | change => exact keepsPending_enter _
    | delete => exact keepsPending_enter _
    | yank => exact keepsPending_toNormal
    | put => exact keepsPending_toNormal

theorem keepsPending_abandon : (abandon : Edit S).KeepsPending := by
  refine (keepsPending_update ?_).append keepsPending_toNormal
  exact fun _ => rfl

theorem keepsPending_finish : (finish : Edit S).KeepsPending := by
  refine keepsPending_look fun _ s => ?_
  split
  · exact keepsPending_skip
  · refine (keepsPending_update ?_).append ?_
    · exact fun _ => rfl
    · split
      · exact keepsPending_enter _
      · exact keepsPending_skip

theorem keepsPending_motionKey (k : Key) : (motionKey k : Edit S).KeepsPending := by
  refine keepsPending_look fun _ s => ?_
  split
  · exact keepsPending_toNormal
  · exact keepsPending_abandon.append keepsPending_finish
  · split
    · exact keepsPending_enter .operatorObject
    · split
      · exact ((keepsPending_request _).append (keepsPending_operate _)).append keepsPending_finish
      · split
        · exact ((keepsPending_request _).append (keepsPending_operate _)).append
            keepsPending_finish
        · exact keepsPending_abandon.append keepsPending_finish

theorem keepsPending_objectKey (k : Key) : (objectKey k : Edit S).KeepsPending := by
  unfold objectKey
  split
  · exact (keepsPending_request _).append (keepsPending_motionKey k)
  · exact keepsPending_abandon.append keepsPending_finish

theorem keepsPending_setMark (label : Char) : (setMark label : Edit S).KeepsPending := by
  refine keepsPending_look fun cx _ => ?_
  split
  · exact keepsPending_update fun _ => rfl
  · exact keepsPending_skip

theorem keepsPending_jump (label : Char) (linewise : Bool) :
    (jump label linewise : Edit S).KeepsPending := by
  refine keepsPending_look fun _ s => ?_
  split
  · exact keepsPending_request _
  · exact keepsPending_skip

theorem keepsPending_sequence (l : Leader) (c : Char) (n : Nat) :
    (sequence l c n : Edit S).KeepsPending := by
  cases l with
  | mark => exact keepsPending_setMark c
  | jump linewise => exact keepsPending_jump c linewise
  | go =>
    unfold sequence
    dsimp only
    split
    · exact keepsPending_request _
    · exact keepsPending_skip
  | operator op =>
    unfold sequence
    dsimp only
    split
    · exact (keepsPending_request _).append (keepsPending_operate op)
    · refine ((keepsPending_update ?_).append (keepsPending_enter _)).append
        (keepsPending_motionKey _)
      exact fun _ => rfl

theorem keepsPending_visualKey (k : Key) : (visualKey k : Edit S).KeepsPending := by
  unfold visualKey
  split
  · exact keepsPending_request _
  · exact keepsPending_operate _
  · exact keepsPending_enter .visualObject
  · exact keepsPending_skip

theorem keepsPending_visualObjectKey (k : Key) : (visualObjectKey k : Edit S).KeepsPending := by
  refine KeepsPending.append ?_ (keepsPending_enter _)
  split
  · exact keepsPending_request _
  · exact keepsPending_skip

theorem keepsPending_command (cmd : Command) (n : Nat) (counted : Bool) :
    (command cmd n counted : Edit S).KeepsPending := by
  refine (keepsPending_request _).append ?_
  unfold afterCommand
  split
  · exact keepsPending_enter _
  · exact keepsPending_enter _
  · exact keepsPending_enter _
  · exact (keepsPending_enter _).append (keepsPending_request _)
  · exact (keepsPending_enter _).append (keepsPending_request _)
  · exact keepsPending_enter _
  · exact keepsPending_skip

/-! ## Edits that do not contradict themselves -/

/-- Nothing that the edit announces contradicts itself. -/
def Honest (e : Edit S) (cx : Context S) (s : State S) : Prop :=
  ∀ a ∈ e.statuses cx s, ¬ a.Contradicts

section
variable {cx : Context S} {s : State S}

theorem Honest.append {e f : Edit S} (h : e.Honest cx s) (k : f.Honest cx (e.state cx s)) :
    (e ++ f).Honest cx s := by
  intro a ha
  rw [statuses_append] at ha
  rcases List.mem_append.1 ha with ha | ha
  · exact h a ha
  · exact k a ha

theorem Honest.of_eq {e f : Edit S} (h : f.Honest cx s) (he : e cx s = f cx s) :
    e.Honest cx s := by
  intro a ha
  rw [statuses_congr cx s he] at ha
  exact h a ha

theorem honest_of_statuses {e : Edit S} (h : e.statuses cx s = []) : e.Honest cx s := by
  intro a ha
  rw [h] at ha
  cases ha

/-- Without a bare count there is nothing to contradict. -/
theorem KeepsPending.honest {e : Edit S} (h : e.KeepsPending) (hs : ¬ s.pending.Bare) :
    e.Honest cx s := by
  intro a ha hc
  obtain ⟨m, rfl⟩ := (h cx s).2 a ha
  exact hs (Status.bare_of_contradicts hc)

theorem honest_announce (hm : s.mode = .normal) : (announce : Edit S).Honest cx s := by
  intro a ha hc
  cases List.mem_singleton.1 ha
  exact hc.2 hm

theorem honest_clearPending : (clearPending : Edit S).Honest cx s := by
  intro a ha
  cases List.mem_singleton.1 ha
  exact Status.not_contradicts_empty

theorem statuses_toNormal :
    toNormal.statuses cx s = [.of cx.config.theme .normal s.pending] := by
  unfold toNormal
  rw [statuses_look, statuses_append]
  split <;> rfl

theorem honest_toNormal : (toNormal : Edit S).Honest cx s := by
  intro a ha
  rw [statuses_toNormal, List.mem_singleton] at ha
  rw [ha]
  exact Status.not_contradicts_of_mode

theorem honest_openOneShot : (openOneShot : Edit S).Honest cx s :=
  honest_toNormal.append (honest_of_statuses rfl)

theorem honest_escape : (escape : Edit S).Honest cx s := by
  show (_ ++ _ ++ toNormal ++ clearPending : Edit S).Honest cx s
  refine (Honest.append ?_ honest_toNormal).append honest_clearPending
  refine Honest.append ?_ (honest_of_statuses rfl)
  split
  · exact honest_of_statuses (statuses_request _ _ _)
  · exact honest_of_statuses rfl

/-- Once the pending command is cleared, the way back is announced without it. -/
theorem honest_clearPending_finish : (clearPending ++ finish : Edit S).Honest cx s :=
  honest_clearPending.append (keepsPending_finish.honest fun h => h.2 rfl)

/-! ## Commands under a count -/

theorem statuses_command (cmd : Command) (n : Nat) (counted : Bool) :
    (command cmd n counted).statuses cx s =
      if cmd.target .normal = .normal then []
      else [.of cx.config.theme (cmd.target .normal) s.pending] := by
  unfold command
  rw [statuses_append, statuses_request, state_request, List.nil_append]
  cases cmd with
  | cutLineEnd insert => cases insert <;> rfl
  | select linewise => cases linewise <;> rfl
  | _ => rfl

theorem statuses_finish_of_ne (h : s.mode ≠ .normal) : finish.statuses cx s = [] := by
  unfold finish
  rw [statuses_look, if_neg h]
  split <;> rfl

theorem honest_command (cmd : Command) (n : Nat) (counted : Bool)
    (h : s.pending.Bare → cmd.target .normal = .normal) :
    (command cmd n counted : Edit S).Honest cx s := by
  by_cases hb : s.pending.Bare
  · -- Where it stays in Normal mode, it announces nothing of its own.
    refine honest_of_statuses ?_
    rw [statuses_command, if_pos (h hb)]
  · exact (keepsPending_command cmd n counted).honest hb

/-! ## One press -/

theorem honest_normalChar (hm : s.mode = .normal) (c : Char)
    (h : s.pending.Bare → exitMode? c = none) : (normalChar c : Edit S).Honest cx s := by
  cases ha : s.pending.accepts c with
  | true =>
    refine Honest.of_eq ?_ (normalChar_apply_digit cx s c ha)
    exact Honest.append (honest_of_statuses rfl) (honest_announce hm)
  | false =>
    cases hl : s.pending.leader with
    | some l =>
      refine Honest.of_eq ?_ (normalChar_apply_sequence cx s c l ha hl)
      rw [append_assoc, append_assoc]
      refine Honest.append (honest_of_statuses rfl) (Honest.append ?_ honest_clearPending_finish)
      refine (keepsPending_sequence l c _).honest fun hb => ?_
      cases hl.symm.trans hb.1
    | none =>
      cases hc : NormalEntry.ofChar? c with
      | none => exact honest_clearPending.of_eq (normalChar_apply_other cx s c ha hl hc)
      | some e =>
        cases e with
        | leader l =>
          refine Honest.of_eq ?_ (normalChar_apply_leader cx s c l ha hl hc)
          exact Honest.append (honest_of_statuses rfl) (honest_announce hm)
        | command cmd =>
          refine Honest.of_eq ?_ (normalChar_apply_command cx s c cmd ha hl hc)
          rw [append_assoc]
          refine Honest.append (honest_command cmd _ _ fun hb => ?_) honest_clearPending_finish
          have hexit := exitMode?_eq c cmd (NormalEntry.command_ofChar? c cmd hc)
          rw [h hb] at hexit
          by_contra hne
          rw [if_neg hne] at hexit
          cases hexit

theorem honest_modeKey (hs : s.Sound cx.config.keys) {p : Press} (hp : p.Plain)
    (h : ∀ m, ¬ s.LeavesCounted p m) : (modeKey s.mode p.key : Edit S).Honest cx s := by
  -- Away from Normal mode nothing is pending.
  have hother {e : Edit S} (he : e.KeepsPending) (hm : s.mode ≠ .normal) : e.Honest cx s := by
    refine he.honest fun hb => hb.2 ?_
    rw [hs.pending_eq hm]
    rfl
  cases hm : s.mode with
  | normal =>
    cases hk : p.key with
    | char c =>
      refine honest_normalChar hm c fun hb => ?_
      by_contra hc
      obtain ⟨m, hc⟩ := Option.ne_none_iff_exists'.1 hc
      exact h m ⟨hm, hb, c, ⟨hk, hp.1⟩, hc⟩
    | _ => exact honest_clearPending
  | insert | search => exact hother keepsPending_skip (by rw [hm]; decide)
  | visual | visualLine => exact hother (keepsPending_visualKey _) (by rw [hm]; decide)
  | operatorMotion => exact hother (keepsPending_motionKey _) (by rw [hm]; decide)
  | operatorObject => exact hother (keepsPending_objectKey _) (by rw [hm]; decide)
  | visualObject => exact hother (keepsPending_visualObjectKey _) (by rw [hm]; decide)

theorem honest_press (hs : s.Sound cx.config.keys) (p : Press) (h : ∀ m, ¬ s.LeavesCounted p m) :
    (Edit.press p).Honest cx s := by
  have ht := taken_intake cx.config.keys s.mode p
  generalize hi : intake cx.config.keys s.mode p = i at ht
  refine Honest.of_eq ?_ (press_apply cx s p hi)
  cases ht with
  | closeFind => exact honest_toNormal
  | oneShot => exact honest_openOneShot
  | escape => exact honest_escape
  | find | host | insert => exact honest_of_statuses rfl
  | key _ _ hp => exact honest_modeKey hs hp h

/-- The mode is left first and the count cleared second, and each of the two is announced. -/
theorem statuses_press_of_leavesCounted {p : Press} {m : Mode} (h : s.LeavesCounted p m) :
    (Edit.press p).statuses cx s =
      [.of cx.config.theme m s.pending, .of cx.config.theme m .empty] := by
  obtain ⟨hm, hb, c, hp, hc⟩ := h
  obtain ⟨cmd, hcmd, rfl, hne, hd⟩ := exists_command_of_exitMode? hc
  have ha := s.pending.accepts_eq_false_of_not_isDigit c hd
  have happly := (press_apply_char cx s p c hm hp).trans
    (normalChar_apply_command cx s c cmd ha hb.1 hcmd)
  rw [statuses_congr cx s happly, statuses_append, statuses_append, statuses_command, if_neg hne,
    state_append, state_command, hm, statuses_finish_of_ne hne]
  rfl

/-- The announcements of a press that contradict themselves. -/
theorem contradicting_statuses_iff (hs : s.Sound cx.config.keys) (p : Press) (a : Status) :
    a ∈ (Edit.press p).statuses cx s ∧ a.Contradicts ↔
      ∃ m, s.LeavesCounted p m ∧ a = .of cx.config.theme m s.pending := by
  constructor
  · rintro ⟨ha, hc⟩
    by_cases h : ∃ m, s.LeavesCounted p m
    · obtain ⟨m, hm⟩ := h
      rw [statuses_press_of_leavesCounted hm] at ha
      rcases List.mem_cons.1 ha with rfl | ha
      · exact ⟨m, hm, rfl⟩
      · rw [List.mem_singleton.1 ha] at hc
        exact absurd hc Status.not_contradicts_empty
    · exact absurd hc (honest_press hs p (fun m hm => h ⟨m, hm⟩) a ha)
  · rintro ⟨m, hm, rfl⟩
    obtain ⟨c, -, hc⟩ := hm.types
    obtain ⟨-, -, -, hne, -⟩ := exists_command_of_exitMode? hc
    have hmem : Status.of cx.config.theme m s.pending ∈ (Edit.press p).statuses cx s := by
      rw [statuses_press_of_leavesCounted hm]
      exact List.mem_cons_self
    exact ⟨hmem, Status.contradicts_of_bare _ hm.bare hs.isCount.1 hne⟩

end

end Edit

/-! ## Runs -/

namespace Session

/-- What the presses announce, in their order. -/
def announced (s : Session) : List Press → List Status
  | [] => []
  | p :: ps => (Edit.press p).statuses s.context s.state ++ (s.step (.press p)).announced ps

theorem statuses_pressAll (s : Session) (ps : List Press) :
    (s.pressAll ps).surface.statuses = s.surface.statuses ++ s.announced ps := by
  induction ps generalizing s with
  | nil => exact (List.append_nil _).symm
  | cons p ps ih =>
    show ((s.step (.press p)).pressAll ps).surface.statuses = _
    rw [ih, statuses_step, List.append_assoc]
    rfl

theorem announced_append (s : Session) (ps qs : List Press) :
    s.announced (ps ++ qs) = s.announced ps ++ (s.pressAll ps).announced qs := by
  induction ps generalizing s with
  | nil => rfl
  | cons p ps ih =>
    show _ ++ (s.step (.press p)).announced (ps ++ qs) = _ ++ _ ++ _
    rw [ih, List.append_assoc]
    rfl

/-- What is announced is announced by one of the presses. -/
theorem mem_announced_iff (s : Session) (ps : List Press) (a : Status) :
    a ∈ s.announced ps ↔
      ∃ us p vs, ps = us ++ p :: vs ∧
        a ∈ (Edit.press p).statuses (s.pressAll us).context (s.pressAll us).state := by
  constructor
  · intro ha
    induction ps generalizing s with
    | nil => cases ha
    | cons p ps ih =>
      rcases List.mem_append.1 ha with ha | ha
      · exact ⟨[], p, ps, rfl, ha⟩
      · obtain ⟨us, q, vs, rfl, hq⟩ := ih (s.step (.press p)) ha
        exact ⟨p :: us, q, vs, rfl, hq⟩
  · rintro ⟨us, p, vs, rfl, ha⟩
    rw [announced_append]
    exact List.mem_append_right _ (List.mem_append_left _ ha)

theorem theme_pressAll (s : Session) (ps : List Press) :
    (s.pressAll ps).context.config.theme = s.config.theme :=
  congrArg Config.theme (config_pressAll s ps)

theorem sound_context {s : Session} (h : Reachable s.config s.state) (ps : List Press) :
    (s.pressAll ps).state.Sound (s.pressAll ps).context.config.keys := by
  show State.Sound (s.pressAll ps).config.keys _
  rw [config_pressAll]
  exact sound_of_reachable (s.reachable_pressAll ps h)

theorem contradicting_announced_iff {s : Session} (h : Reachable s.config s.state)
    (ps : List Press) (a : Status) :
    a ∈ s.announced ps ∧ a.Contradicts ↔
      ∃ us p vs m, ps = us ++ p :: vs ∧ (s.pressAll us).state.LeavesCounted p m ∧
        a = .of s.config.theme m (s.pressAll us).state.pending := by
  constructor
  · rintro ⟨ha, hc⟩
    obtain ⟨us, p, vs, rfl, hp⟩ := (mem_announced_iff s ps a).1 ha
    obtain ⟨m, hm, rfl⟩ := (Edit.contradicting_statuses_iff (sound_context h us) p a).1 ⟨hp, hc⟩
    refine ⟨us, p, vs, m, rfl, hm, ?_⟩
    rw [theme_pressAll]
  · rintro ⟨us, p, vs, m, rfl, hm, rfl⟩
    rw [← s.theme_pressAll us]
    obtain ⟨hp, hc⟩ := (Edit.contradicting_statuses_iff (sound_context h us) p _).2 ⟨m, hm, rfl⟩
    exact ⟨(mem_announced_iff s _ _).2 ⟨us, p, vs, rfl, hp⟩, hc⟩

theorem announced_of_leavesCounted (s : Session) {us vs : List Press} {p : Press} {m : Mode}
    (h : (s.pressAll us).state.LeavesCounted p m) :
    s.announced (us ++ p :: vs) =
      s.announced us ++
        [.of s.config.theme m (s.pressAll us).state.pending, .of s.config.theme m .empty] ++
        (s.pressAll (us ++ [p])).announced vs := by
  have hp : (Edit.press p).statuses (s.pressAll us).context (s.pressAll us).state =
      [.of s.config.theme m (s.pressAll us).state.pending, .of s.config.theme m .empty] := by
    rw [← s.theme_pressAll us]
    exact Edit.statuses_press_of_leavesCounted h
  rw [announced_append, List.append_assoc, ← hp, pressAll_append]
  rfl

/-- **Texts of Normal mode.**  An announcement with the label of Normal mode is of Normal mode.
One with a count behind the label is of another mode exactly where a command leaves Normal mode
under that count: it comes first, with the style and the caret of the mode ahead, and the
announcement that is right comes next. -/
theorem announced_contradicts_iff (config : Config) (surface : Recording) (ps : List Press) :
    let start := new config surface
    (start.pressAll ps).surface.statuses = surface.statuses ++ start.announced ps ∧
    (∀ a ∈ start.announced ps, a.text = "NORMAL" → a.mode = .normal) ∧
    (∀ a, a ∈ start.announced ps ∧ a.Contradicts ↔
      ∃ us p vs m, ps = us ++ p :: vs ∧ (start.pressAll us).state.LeavesCounted p m ∧
        a = .of config.theme m (start.pressAll us).state.pending) ∧
    ∀ us p vs m, ps = us ++ p :: vs → (start.pressAll us).state.LeavesCounted p m →
      start.announced ps =
        start.announced us ++
          [.of config.theme m (start.pressAll us).state.pending, .of config.theme m .empty] ++
          (start.pressAll (us ++ [p])).announced vs := by
  intro start
  have hiff := contradicting_announced_iff (s := start) .initial ps
  refine ⟨start.statuses_pressAll ps, fun a ha htext => ?_, hiff, ?_⟩
  · by_contra hm
    obtain ⟨us, p, vs, m, -, hleaves, rfl⟩ := (hiff a).1 ⟨ha, Or.inl htext, hm⟩
    exact Status.text_ne_of_bare hleaves.bare htext
  · rintro us p vs m rfl h
    exact start.announced_of_leavesCounted h

/-- A count and a key for Insert mode: three announcements, of which the second is wrong. -/
theorem announced_contradicts_iff_insert :
    let start := new .default .new
    let typed := start.pressAll [.ofChar '3']
    typed.state.LeavesCounted (.ofChar 'i') .insert ∧
      start.announced [.ofChar '3', .ofChar 'i'] =
        [.of Theme.default .normal ⟨['3'], none, none⟩,
          .of Theme.default .insert ⟨['3'], none, none⟩, .of Theme.default .insert .empty] := by
  intro start typed
  have hstate : typed.state = ⟨.normal, ⟨['3'], none, none⟩, .empty, none, false⟩ := by
    decide +kernel
  have hleaves : typed.state.LeavesCounted (.ofChar 'i') .insert := by
    rw [hstate]
    exact ⟨rfl, ⟨rfl, by decide⟩, 'i', types_ofChar 'i', rfl⟩
  have hdigit : start.announced [.ofChar '3'] = [.of Theme.default .normal ⟨['3'], none, none⟩] := by
    decide +kernel
  have hrun : start.announced [.ofChar '3', .ofChar 'i'] =
      start.announced [.ofChar '3'] ++
        [.of Theme.default .insert typed.state.pending, .of Theme.default .insert .empty] ++ [] :=
    (announced_contradicts_iff .default .new [.ofChar '3', .ofChar 'i']).2.2.2
      [.ofChar '3'] (.ofChar 'i') [] .insert rfl hleaves
  rw [hdigit, hstate] at hrun
  exact ⟨hleaves, hrun⟩

/-- `3i`: the text is of Normal mode, the style and the caret of Insert mode. -/
theorem insert_reads_normal :
    ∃ a ∈ ((new .default .new).pressAll [.ofChar '3', .ofChar 'i']).surface.statuses,
      a = ⟨.insert, "NORMAL 3", false, Theme.default.insert⟩ ∧ a.ReadsNormal ∧
        a.mode ≠ .normal := by
  have hdigits : ∀ c ∈ ['3'], c.isDigit = true := List.all_eq_true.1 rfl
  refine ⟨_, ?_, rfl, Or.inr ⟨['3'], by decide, hdigits, rfl⟩, by decide⟩
  decide +kernel

end Session

end ModalInput
