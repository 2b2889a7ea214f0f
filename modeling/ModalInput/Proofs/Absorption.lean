import ModalInput.Proofs.Events

/-!
# Keys that mean nothing

A press is stray if it is kept from the host and is no entry of the table in force, which is the
table of the mode or of the leader that is pending.  It drops what was under way: nothing is called,
the marks stay, and a sequence of keys that it breaks off counts as a command for the way back.

    s.Stray cx p →
      (press p).state cx s = s.absorbed p ∧ (press p).calls cx s = []      (Outcome.absorbed)
-/

namespace ModalInput

variable {S : Type}

/-! ## The tables in force -/

/-- The characters that an operator may be followed by. -/
def Operator.Takes (op : Operator) (c : Char) : Prop :=
  c = op.letter ∨ c = 'i' ∨ c = 'a' ∨ c = 'w' ∨ c = 'p'

/-- The characters that mean something behind a leader. -/
def Leader.Takes (l : Leader) (marks : Marks S) (selection : Option S) (c : Char) : Prop :=
  match l with
  | .mark => c.isAlpha = true ∧ selection ≠ none
  | .jump _ => marks.get? c ≠ none
  | .go => c = 'g'
  | .operator op => op.Takes c

/-- The characters that mean something in Normal mode: a digit of the count, and then an entry of
the table, or the argument of the leader that is pending. -/
def Pending.Takes (p : Pending) (marks : Marks S) (selection : Option S) (c : Char) : Prop :=
  p.accepts c = true ∨
    match p.leader with
    | none => NormalEntry.ofChar? c ≠ none
    | some l => l.Takes marks selection c

def State.Takes (s : State S) (selection : Option S) (c : Char) : Prop :=
  match s.mode with
  | .normal => s.pending.Takes s.marks selection c
  | .visual | .visualLine => VisualEntry.ofChar? c ≠ none
  | .operatorMotion => ∃ op, s.operator = some op ∧ op.Takes c
  | .operatorObject | .visualObject => c = 'w' ∨ c = 'p'
  | .insert | .search => False

/-! ## Stray presses -/

/-- The press is kept from the host, in a mode that has a table, and means nothing there. -/
structure State.Stray (cx : Context S) (s : State S) (p : Press) : Prop where
  suppressed : disposition cx.config.keys s.mode p = .suppress
  ne_escape : p.key ≠ .escape
  ne_insert : s.mode ≠ .insert
  ne_search : s.mode ≠ .search
  not_takes : ∀ c, p.key = .char c → ¬ s.Takes cx.host.selection c

/-- The press ends a sequence of keys with nothing done.  A key that is no character only clears a
leader, and does not end its sequence. -/
def State.BreaksOff (s : State S) (p : Press) : Prop :=
  s.mode = .operatorObject ∨ s.mode = .normal ∧ s.pending.leader ≠ none ∧ p.key.char? ≠ none

instance (s : State S) (p : Press) : Decidable (s.BreaksOff p) :=
  inferInstanceAs (Decidable (_ ∨ _))

/-- A selection stays, by lines behind `i` or `a`; anything else is left for Normal mode. -/
def Mode.afterStray : Mode → Mode
  | .visual => .visual
  | .visualLine | .visualObject => .visualLine
  | _ => .normal

/-- The state after a stray press. -/
def State.absorbed (s : State S) (p : Press) : State S :=
  if s.BreaksOff p then s.ended .normal
  else { s with mode := s.mode.afterStray, pending := .empty, operator := none }

/-! ## One press -/

theorem Leader.callsFor_of_not_takes {l : Leader} {marks : Marks S} {selection : Option S}
    {c : Char} (h : ¬ l.Takes marks selection c) (hop : ∀ op, l ≠ .operator op) (n : Nat) :
    l.callsFor marks n c = [] := by
  cases l with
  | mark => rfl
  | jump linewise =>
    have hget : marks.get? c = none := Decidable.not_not.1 h
    unfold callsFor
    rw [hget]
  | go => exact if_neg h
  | operator op => exact absurd rfl (hop op)

/-- A mark is noted under a letter only, and only if there is a selection. -/
theorem Marks.note_of_not_takes {marks : Marks S} {selection : Option S} {c : Char}
    (h : ¬ Leader.mark.Takes marks selection c) : marks.note c selection = marks := by
  cases selection with
  | none => rfl
  | some x =>
    have hc : c.isAlpha = false := Bool.eq_false_iff.2 fun hc => h ⟨hc, nofun⟩
    exact marks.set_of_not_isAlpha hc x

section
variable {cx : Context S} {s t : State S} {p : Press} {cs : List (Call S)}

namespace State

theorem absorbed_of_breaksOff (h : s.BreaksOff p) : s.absorbed p = s.ended .normal :=
  if_pos h

@[simp] theorem marks_absorbed (s : State S) (p : Press) : (s.absorbed p).marks = s.marks := by
  unfold absorbed
  split
  · exact s.marks_ended .normal
  · rfl

@[simp] theorem pending_absorbed (s : State S) (p : Press) : (s.absorbed p).pending = .empty := by
  unfold absorbed
  split
  · exact s.pending_ended .normal
  · rfl

@[simp] theorem operator_absorbed (s : State S) (p : Press) : (s.absorbed p).operator = none := by
  unfold absorbed
  split
  · exact s.operator_ended .normal
  · rfl

/-- The way back is taken where a sequence is broken off. -/
theorem absorbed_of_return (ho : s.oneShot = true) (h : s.BreaksOff p) :
    (s.absorbed p).mode = .insert ∧ (s.absorbed p).oneShot = false := by
  rw [absorbed_of_breaksOff h]
  unfold ended resume
  rw [if_pos ⟨ho, Bool.false_ne_true, by simp⟩]
  exact ⟨rfl, rfl⟩

theorem absorbed_of_no_return (h : ¬ (s.oneShot = true ∧ s.BreaksOff p)) :
    (s.absorbed p).mode = s.mode.afterStray ∧ (s.absorbed p).oneShot = s.oneShot := by
  by_cases hb : s.BreaksOff p
  · have ho : s.oneShot = false := Bool.eq_false_iff.2 fun ho => h ⟨ho, hb⟩
    have hmode : s.mode.afterStray = .normal := by
      rcases hb with hm | ⟨hm, -⟩ <;> rw [hm] <;> rfl
    have hended : s.ended .normal =
        { s with mode := .normal, pending := .empty, operator := none } :=
      resume_of_not_oneShot _ ho
    rw [absorbed_of_breaksOff hb, hended, hmode]
    exact ⟨rfl, rfl⟩
  · unfold absorbed
    rw [if_neg hb]
    exact ⟨rfl, rfl⟩

/-- In Normal mode and over a selection, a stray press that breaks nothing off leaves the mode. -/
theorem Sound.absorbed_of_stay (hs : s.Sound cx.config.keys)
    (hm : s.mode = .normal ∨ s.mode.isSelecting = true) (h : ¬ s.BreaksOff p) :
    s.absorbed p = { s with pending := .empty } := by
  have hmode : s.mode.afterStray = s.mode ∧ s.mode ≠ .operatorObject := by
    cases hmode : s.mode with
    | normal | visual | visualLine => decide
    | _ =>
      rw [hmode] at hm
      rcases hm with hm | hm <;> cases hm
  unfold absorbed
  rw [if_neg h, hmode.1, ← hs.operator_eq hmode.2]

/-- Behind a leader, a character that means nothing breaks a sequence off. -/
theorem breaksOff_iff_of_char {c : Char} (hm : s.mode = .normal) (hk : p.key = .char c) :
    s.BreaksOff p ↔ s.pending.leader ≠ none := by
  unfold BreaksOff
  rw [hm, hk]
  simp [Key.char?]

theorem not_breaksOff_of_isSelecting (hm : s.mode.isSelecting = true) : ¬ s.BreaksOff p := by
  rintro (h | ⟨h, -⟩) <;> exact Mode.ne_of_isSelecting hm rfl h

namespace Stray

variable (hp : s.Stray cx p) {c : Char}
include hp

theorem not_textObject (hm : s.mode = .operatorObject ∨ s.mode = .visualObject) (hc : p.Types c) :
    TextObject.ofChar? c = none := by
  have hn := hp.not_takes c hc.1
  rw [TextObject.ofChar?_eq_none_iff]
  unfold Takes at hn
  rcases hm with hm | hm <;> rw [hm] at hn <;> exact hn

theorem not_visualEntry (hm : s.mode.isSelecting = true) (hc : p.Types c) :
    VisualEntry.ofChar? c = none := by
  have hn := hp.not_takes c hc.1
  unfold Takes at hn
  cases hmode : s.mode with
  | visual | visualLine =>
    rw [hmode] at hn
    exact Decidable.not_not.1 hn
  | _ =>
    rw [hmode] at hm
    cases hm

theorem not_pending (hm : s.mode = .normal) (hc : p.Types c) :
    ¬ s.pending.Takes s.marks cx.host.selection c := by
  have hn := hp.not_takes c hc.1
  unfold Takes at hn
  rw [hm] at hn
  exact hn

end Stray

end State

theorem NormalOutcome.absorbed {c : Char} (h : NormalOutcome cx s c t cs)
    (hs : s.Sound cx.config.keys) (hm : s.mode = .normal) (hk : p.key = .char c)
    (hn : ¬ s.pending.Takes s.marks cx.host.selection c) : t = s.absorbed p ∧ cs = [] := by
  have hbreak := State.breaksOff_iff_of_char hm hk
  obtain ⟨hdigit, htable⟩ := not_or.1 hn
  cases h with
  | digit ha => exact absurd ha hdigit
  | unknown ha hl hc =>
    rw [hs.absorbed_of_stay (Or.inl hm) fun h => hbreak.1 h hl]
    exact ⟨rfl, rfl⟩
  | leader l ha hl hc | command cmd ha hl hc =>
    rw [hl] at htable
    exact absurd hc (by rw [Decidable.not_not.1 htable]; simp)
  | argument l ha hl hne =>
    rw [hl] at htable
    have hmarks : (if l = .mark then s.marks.note c cx.host.selection else s.marks) = s.marks := by
      split
      · next he =>
        rw [he] at htable
        exact Marks.note_of_not_takes htable
      · rfl
    rw [State.absorbed_of_breaksOff (hbreak.2 (by rw [hl]; nofun)), hmarks,
      Leader.callsFor_of_not_takes htable hne, State.ended,
      ← hs.operator_eq (by rw [hm]; decide), ← hm]
    exact ⟨rfl, rfl⟩
  | await op ha hl hc =>
    rw [hl] at htable
    exact absurd (Or.inr (hc.imp_right Or.inl)) htable
  | operate op ha hl hi hc =>
    rw [hl] at htable
    refine absurd ?_ htable
    rcases hc with hc | hc
    · exact Or.inl hc
    · rw [ne_eq, TextObject.ofChar?_eq_none_iff, not_not] at hc
      exact Or.inr (Or.inr (Or.inr hc))
  | abandon op ha hl =>
    rw [State.absorbed_of_breaksOff (hbreak.2 (by rw [hl]; nofun))]
    exact ⟨rfl, rfl⟩

theorem Outcome.absorbed (h : Outcome cx s p t cs) (hs : s.Sound cx.config.keys)
    (hp : s.Stray cx p) : t = s.absorbed p ∧ cs = [] := by
  cases h with
  | pass hd => exact absurd (hd.symm.trans hp.suppressed) (by decide)
  | oneShot hm => exact absurd hm hp.ne_insert
  | closeFind hm => exact absurd hm hp.ne_search
  | escape hm hh hk => exact absurd hk hp.ne_escape
  | clear hm hpl hk =>
    have hkeep : ¬ s.BreaksOff p := by
      rintro (h | ⟨-, -, h⟩)
      · rw [hm] at h
        cases h
      · exact h hk
    rw [hs.absorbed_of_stay (Or.inl hm) hkeep]
    exact ⟨rfl, rfl⟩
  | normal c hm hc hn => exact hn.absorbed hs hm hc.1 (hp.not_pending hm hc)
  | object op c o hm hop hc ho => cases ho.symm.trans (hp.not_textObject (Or.inl hm) hc)
  | noObject hm =>
    rw [State.absorbed_of_breaksOff (Or.inl hm)]
    exact ⟨rfl, rfl⟩
  | extend m c hm hc he => cases he.symm.trans (hp.not_visualEntry hm hc)
  | operate op c hm hc he => cases he.symm.trans (hp.not_visualEntry hm hc)
  | await c hm hc he => cases he.symm.trans (hp.not_visualEntry hm hc)
  | ignore hm =>
    have hpending := hs.pending_eq (Mode.ne_of_isSelecting hm rfl)
    rw [hs.absorbed_of_stay (Or.inr hm) (State.not_breaksOff_of_isSelecting hm), ← hpending]
    exact ⟨rfl, rfl⟩
  | select c o hm hc ho => cases ho.symm.trans (hp.not_textObject (Or.inr hm) hc)
  | noSelect hm =>
    have hkeep : ¬ s.BreaksOff p := by
      rintro (h | ⟨h, -⟩) <;> rw [hm] at h <;> cases h
    unfold State.absorbed
    rw [if_neg hkeep, hm, ← hs.pending_eq (by rw [hm]; decide),
      ← hs.operator_eq (by rw [hm]; decide)]
    exact ⟨rfl, rfl⟩

end

/-! ## Runs -/

namespace Session

/-- The event asks nothing of the interpreter: a change from outside, a press that passes, or a
stray press. -/
def Idle (s : Session) : Input → Prop
  | .press p => s.disposition p = .pass ∨ s.state.Stray s.context p
  | .select _ => True
  | _ => False

/-- Each event is idle when its turn comes. -/
def Idles (s : Session) : List Input → Prop
  | [] => True
  | i :: is => s.Idle i ∧ (s.step i).Idles is

variable {s : Session}

theorem Idle.isEvent {i : Input} (h : s.Idle i) : i.IsEvent := by
  cases i with
  | press | select => trivial
  | _ => exact h

theorem step_idle (hs : s.state.Sound s.config.keys) {i : Input} (h : s.Idle i) :
    (s.step i).surface.calls = s.surface.calls ∧ (s.step i).state.marks = s.state.marks := by
  cases i with
  | select => exact ⟨rfl, rfl⟩
  | press p =>
    rcases h with hd | hp
    · rw [s.step_of_pass p hd]
      exact ⟨rfl, rfl⟩
    · obtain ⟨hstate, hcalls⟩ := (hs.outcome s.context p).absorbed hs hp
      refine ⟨?_, (congrArg State.marks hstate).trans (s.state.marks_absorbed p)⟩
      rw [calls_step, hcalls, List.filter_nil, List.append_nil]
  | _ => exact h.elim

theorem stepAll_idles (hs : s.state.Sound s.config.keys) {is : List Input} (h : s.Idles is) :
    (s.stepAll is).surface.calls = s.surface.calls ∧
      (s.stepAll is).state.marks = s.state.marks := by
  induction is generalizing s with
  | nil => exact ⟨rfl, rfl⟩
  | cons i is ih =>
    obtain ⟨hi, hrest⟩ := h
    have hsound := sound_step hs hi.isEvent
    rw [← s.config_step i] at hsound
    obtain ⟨hcalls, hmarks⟩ := step_idle hs hi
    obtain ⟨hcalls', hmarks'⟩ := ih hsound hrest
    exact ⟨hcalls'.trans hcalls, hmarks'.trans hmarks⟩

end Session

/-- **Stray presses.**  In every state that presses lead to, a stray press calls nothing, drops the
pending command and the operator and leaves the marks.  It takes the way back to Insert mode if it
breaks off a sequence of the command that was opened from there; otherwise the flag stays, a
selection goes on, and anything else goes on in Normal mode.  A run of such presses, of presses that
pass and of changes from outside calls nothing and leaves the marks. -/
theorem stray_absorbed :
    (∀ {S : Type} {config : Config} {s : State S}, Reachable config s →
      ∀ (host : Host S) (p : Press), s.Stray ⟨config, host⟩ p →
        let t := (Edit.press p).state ⟨config, host⟩ s
        (Edit.press p).calls ⟨config, host⟩ s = [] ∧
          t.pending = .empty ∧ t.operator = none ∧ t.marks = s.marks ∧
          (s.oneShot = true ∧ s.BreaksOff p → t.mode = .insert ∧ t.oneShot = false) ∧
          (¬ (s.oneShot = true ∧ s.BreaksOff p) →
            t.mode = s.mode.afterStray ∧ t.oneShot = s.oneShot)) ∧
    ∀ (s : Session) (is : List Input), Reachable s.config s.state → s.Idles is →
      (s.stepAll is).surface.calls = s.surface.calls ∧
        (s.stepAll is).state.marks = s.state.marks := by
  constructor
  · intro S config s h host p hp
    dsimp only
    have hs := sound_of_reachable h
    obtain ⟨hstate, hcalls⟩ := (hs.outcome ⟨config, host⟩ p).absorbed hs hp
    rw [hstate]
    exact ⟨hcalls, s.pending_absorbed p, s.operator_absorbed p, s.marks_absorbed p,
      fun h => State.absorbed_of_return h.1 h.2, State.absorbed_of_no_return⟩
  · intro s is h
    exact Session.stepAll_idles (sound_of_reachable h)

/-- From the start, `i`, the one-shot press and `d` leave an operator that has no use for `z`; the
way back is taken.  An Enter in its place would clear the operator and leave the way back open. -/
theorem stray_absorbed_operator :
    let cx : Context Span := ⟨.default, Recording.new.host⟩
    let s : State Span :=
      { State.initial with
        pending := ⟨[], some (.operator .delete), none⟩
        oneShot := true }
    let t := (Edit.press (.ofChar 'z')).state cx s
    let u := (Edit.press (.ofName "Enter")).state cx s
    s.Stray cx (.ofChar 'z') ∧ s.Stray cx (.ofName "Enter") ∧
      (Edit.press (.ofChar 'z')).calls cx s = [] ∧ t.pending = .empty ∧
      t.mode = .insert ∧ t.oneShot = false ∧ u.pending = .empty ∧ u.mode = .normal ∧
      u.oneShot = true ∧
      ((⟨.default, s, .new⟩ : Session).step (.press (.ofChar 'z'))).surface.calls = [] := by
  intro cx s t u
  have hs : Reachable .default s :=
    .press cx.host (.ofChar 'd') (.press cx.host ((Press.ofChar 'o').hold .control)
      (.press cx.host (.ofChar 'i') .initial))
  have hz : s.Stray cx (.ofChar 'z') := by
    refine ⟨by decide, by decide, by decide, by decide, fun c hc => ?_⟩
    cases (types_ofChar 'z').unique ⟨hc, rfl⟩
    rintro (h | h | h | h | h | h) <;> exact absurd h (by decide)
  have hent : s.Stray cx (.ofName "Enter") :=
    ⟨by decide, by decide, by decide, by decide, fun c hc => by cases hc⟩
  have hlaw := stray_absorbed.1 hs cx.host (.ofChar 'z') hz
  have hkeep := stray_absorbed.1 hs cx.host (.ofName "Enter") hent
  have hrun := stray_absorbed.2 ⟨.default, s, .new⟩ [.press (.ofChar 'z')] hs
    ⟨Or.inr hz, trivial⟩
  have hbreak := hlaw.2.2.2.2.1 ⟨rfl, by decide⟩
  have hstay := hkeep.2.2.2.2.2 (by decide)
  exact ⟨hz, hent, hlaw.1, hlaw.2.1, hbreak.1, hbreak.2, hkeep.2.1, hstay.1, hstay.2, hrun.1⟩

end ModalInput
