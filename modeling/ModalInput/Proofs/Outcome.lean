import ModalInput.Proofs.Intake
import ModalInput.Proofs.Sound

/-!
# Outcomes of a press

Everything that one press can come to in a sound state: the conditions on the press, the state that
it leads to, and the calls.  What holds after every press is proved over these cases, and not over
the code.

    s.Sound keys → Outcome cx s p ((Edit.press p).state cx s) ((Edit.press p).calls cx s)
                                                                        (Sound.outcome)
-/

namespace ModalInput

variable {S : Type}

/-! ## The cases -/

/-- What a character comes to in Normal mode. -/
inductive NormalOutcome (cx : Context S) (s : State S) (c : Char) : State S → List (Call S) → Prop
  | digit (ha : s.pending.accepts c = true) :
      NormalOutcome cx s c { s with pending := s.pending.push cx.config.keys.countLimit c } []
  | unknown (ha : s.pending.accepts c = false) (hl : s.pending.leader = none)
      (hc : NormalEntry.ofChar? c = none) :
      NormalOutcome cx s c { s with pending := .empty } []
  | leader (l : Leader) (ha : s.pending.accepts c = false) (hl : s.pending.leader = none)
      (hc : NormalEntry.ofChar? c = some (.leader l)) :
      NormalOutcome cx s c { s with pending := { s.pending with leader := some l } } []
  | command (cmd : Command) (ha : s.pending.accepts c = false) (hl : s.pending.leader = none)
      (hc : NormalEntry.ofChar? c = some (.command cmd)) :
      NormalOutcome cx s c
        ({ s with mode := cmd.target s.mode, pending := .empty } : State S).resume
        (cmd.calls (s.pending.count cx.config.keys.countLimit) s.pending.hasCount ++ cmd.opening)
  /-- The argument of a leader that only marks or moves. -/
  | argument (l : Leader) (ha : s.pending.accepts c = false) (hl : s.pending.leader = some l)
      (hop : ∀ op, l ≠ .operator op) :
      NormalOutcome cx s c
        ({ s with
            pending := .empty
            marks := if l = .mark then s.marks.note c cx.host.selection else s.marks } : State S).resume
        (l.callsFor s.marks (s.pending.count cx.config.keys.countLimit) c)
  /-- The operator goes on to wait for a text object. -/
  | await (op : Operator) (ha : s.pending.accepts c = false)
      (hl : s.pending.leader = some (.operator op)) (hc : c = 'i' ∨ c = 'a') :
      NormalOutcome cx s c
        { s with mode := .operatorObject, pending := .empty, operator := some op } []
  | operate (op : Operator) (ha : s.pending.accepts c = false)
      (hl : s.pending.leader = some (.operator op)) (hi : ¬ (c = 'i' ∨ c = 'a'))
      (hc : c = op.letter ∨ TextObject.ofChar? c ≠ none) :
      NormalOutcome cx s c (s.ended op.target)
        (op.callsFor (s.pending.count cx.config.keys.countLimit) c)
  | abandon (op : Operator) (ha : s.pending.accepts c = false)
      (hl : s.pending.leader = some (.operator op)) (hi : ¬ (c = 'i' ∨ c = 'a'))
      (hc : ¬ (c = op.letter ∨ TextObject.ofChar? c ≠ none)) :
      NormalOutcome cx s c (s.ended .normal) []

/-- What a press comes to. -/
inductive Outcome (cx : Context S) (s : State S) (p : Press) : State S → List (Call S) → Prop
  | pass (hp : disposition cx.config.keys s.mode p = .pass) : Outcome cx s p s []
  | oneShot (hm : s.mode = .insert) (ho : cx.config.keys.isOneShot p = true) :
      Outcome cx s p { s with mode := .normal, oneShot := true } []
  | closeFind (hm : s.mode = .search) (hk : p.key = .escape ∨ p.key = .enter) :
      Outcome cx s p { s with mode := .normal } []
  | escape (hm : s.mode ≠ .search) (hp : p.hasHostModifier = false) (hk : p.key = .escape) :
      Outcome cx s p
        { s with mode := .normal, pending := .empty, operator := none, oneShot := false }
        ((if s.mode.isSelecting then typed [.plain .right] else []) ++ s.mode.stepBack)
  /-- A key of Normal mode that is no character. -/
  | clear (hm : s.mode = .normal) (hp : p.Plain) (hk : p.key.char? = none) :
      Outcome cx s p { s with pending := .empty } []
  | normal (c : Char) (hm : s.mode = .normal) (hp : p.Types c) {t : State S} {cs : List (Call S)}
      (h : NormalOutcome cx s c t cs) : Outcome cx s p t cs
  /-- The text object of an operator. -/
  | object (op : Operator) (c : Char) (o : TextObject) (hm : s.mode = .operatorObject)
      (hop : s.operator = some op) (hp : p.Types c) (hc : TextObject.ofChar? c = some o) :
      Outcome cx s p (s.ended op.target) (typed o.toStart ++ typed o.extendToEnd ++ op.calls)
  | noObject (hm : s.mode = .operatorObject) (hp : p.Plain)
      (hk : p.key.char?.bind TextObject.ofChar? = none) :
      Outcome cx s p (s.ended .normal) []
  | extend (m : Motion) (c : Char) (hm : s.mode.isSelecting = true) (hp : p.Types c)
      (hc : VisualEntry.ofChar? c = some (.extend m)) : Outcome cx s p s (typed m.extending)
  | operate (op : Operator) (c : Char) (hm : s.mode.isSelecting = true) (hp : p.Types c)
      (hc : VisualEntry.ofChar? c = some (.operate op)) :
      Outcome cx s p { s with operator := none, mode := op.target }
        (op.calls ++ op.leaving s.mode)
  /-- A visual selection goes on to wait for a text object. -/
  | await (c : Char) (hm : s.mode.isSelecting = true) (hp : p.Types c)
      (hc : VisualEntry.ofChar? c = some .object) :
      Outcome cx s p { s with mode := .visualObject } []
  | ignore (hm : s.mode.isSelecting = true) (hp : p.Plain)
      (hk : p.key.char?.bind VisualEntry.ofChar? = none) :
      Outcome cx s p s []
  /-- The selection becomes the text object. -/
  | select (c : Char) (o : TextObject) (hm : s.mode = .visualObject) (hp : p.Types c)
      (hc : TextObject.ofChar? c = some o) :
      Outcome cx s p { s with mode := .visualLine } (typed o.selectAll)
  | noSelect (hm : s.mode = .visualObject) (hp : p.Plain)
      (hk : p.key.char?.bind TextObject.ofChar? = none) :
      Outcome cx s p { s with mode := .visualLine } []

/-! ## There are no others -/

variable (cx : Context S) {s : State S}

theorem normalOutcome_normalChar (hm : s.mode = .normal) (c : Char) :
    NormalOutcome cx s c ((Edit.normalChar c).state cx s) ((Edit.normalChar c).calls cx s) := by
  have hv : s.mode ≠ .visualLine := by rw [hm]; decide
  cases ha : s.pending.accepts c with
  | true =>
    rw [Edit.state_normalChar_digit cx s c ha, Edit.calls_normalChar_digit cx s c ha]
    exact .digit ha
  | false =>
    cases hl : s.pending.leader with
    | none =>
      cases hc : NormalEntry.ofChar? c with
      | none =>
        rw [Edit.state_normalChar_other cx s c ha hl hc,
          Edit.calls_normalChar_other cx s c ha hl hc]
        exact .unknown ha hl hc
      | some e =>
        cases e with
        | leader l =>
          rw [Edit.state_normalChar_leader cx s c l ha hl hc,
            Edit.calls_normalChar_leader cx s c l ha hl hc]
          exact .leader l ha hl hc
        | command cmd =>
          rw [Edit.state_normalChar_command cx s c cmd ha hl hc,
            Edit.calls_normalChar_command cx s c cmd ha hl hc]
          exact .command cmd ha hl hc
    | some l =>
      rw [Edit.calls_normalChar_sequence cx s c l ha hl hv]
      by_cases hop : ∃ op, l = .operator op
      · obtain ⟨op, rfl⟩ := hop
        rw [Edit.state_normalChar_operator cx s c op ha hl, Leader.callsFor]
        by_cases hi : c = 'i' ∨ c = 'a'
        · rw [if_pos hi, Operator.callsFor, if_pos hi]
          exact .await op ha hl hi
        · rw [if_neg hi]
          by_cases hc : c = op.letter ∨ TextObject.ofChar? c ≠ none
          · rw [if_pos hc]
            exact .operate op ha hl hi hc
          · rw [if_neg hc, Operator.callsFor_eq_nil op _ c hc]
            exact .abandon op ha hl hi hc
      · have hne : ∀ op, l ≠ .operator op := fun op e => hop ⟨op, e⟩
        rw [Edit.state_normalChar_sequence cx s c l ha hl,
          Edit.state_sequence_of_not_operator _ _ l c _ hne]
        exact .argument l ha hl hne

theorem outcome_visualKey (hv : s.mode.isSelecting = true) {p : Press} (hp : p.Plain) :
    Outcome cx s p ((Edit.visualKey p.key).state cx s) ((Edit.visualKey p.key).calls cx s) := by
  rw [Edit.state_visualKey, Edit.calls_visualKey]
  cases hc : p.key.char?.bind VisualEntry.ofChar? with
  | none => exact .ignore hv hp hc
  | some e =>
    obtain ⟨c, hk, hc⟩ := Key.exists_char_of_bind hc
    cases e with
    | extend m => exact .extend m c hv ⟨hk, hp.1⟩ hc
    | operate op => exact .operate op c hv ⟨hk, hp.1⟩ hc
    | object => exact .await c hv ⟨hk, hp.1⟩ hc

theorem outcome_visualObjectKey (hm : s.mode = .visualObject) {p : Press} (hp : p.Plain) :
    Outcome cx s p ((Edit.visualObjectKey p.key).state cx s)
      ((Edit.visualObjectKey p.key).calls cx s) := by
  rw [Edit.state_visualObjectKey, Edit.calls_visualObjectKey]
  cases hc : p.key.char?.bind TextObject.ofChar? with
  | none => exact .noSelect hm hp hc
  | some o =>
    obtain ⟨c, hk, hc⟩ := Key.exists_char_of_bind hc
    exact .select c o hm ⟨hk, hp.1⟩ hc

/-- Only the keys for the tables of the mode depend on more of the state than the mode. -/
theorem outcome_of_modeKey (p : Press)
    (h : s.mode ≠ .search → s.mode ≠ .insert → p.Plain →
      Outcome cx s p ((Edit.modeKey s.mode p.key).state cx s)
        ((Edit.modeKey s.mode p.key).calls cx s)) :
    Outcome cx s p ((Edit.press p).state cx s) ((Edit.press p).calls cx s) := by
  show Outcome cx s p ((Edit.ofIntake s.mode (intake cx.config.keys s.mode p)).state cx s)
    ((Edit.ofIntake s.mode (intake cx.config.keys s.mode p)).calls cx s)
  have ht := taken_intake cx.config.keys s.mode p
  generalize hin : intake cx.config.keys s.mode p = i at ht ⊢
  cases ht with
  | find hm hk => exact .pass ((disposition_eq_pass_iff _ _ p).2 hin)
  | host hm ho hp => exact .pass ((disposition_eq_pass_iff _ _ p).2 hin)
  | insert hm ho hp he => exact .pass ((disposition_eq_pass_iff _ _ p).2 hin)
  | closeFind hm hk =>
    show Outcome cx s p (Edit.toNormal.state cx s) (Edit.toNormal.calls cx s)
    rw [Edit.state_toNormal, Edit.calls_toNormal, s.mode.stepBack_eq_nil (by rw [hm]; decide)]
    exact .closeFind hm hk
  | oneShot hm ho =>
    show Outcome cx s p (Edit.openOneShot.state cx s) (Edit.openOneShot.calls cx s)
    rw [Edit.state_openOneShot, Edit.calls_openOneShot,
      s.mode.stepBack_eq_nil (by rw [hm]; decide)]
    exact .oneShot hm ho
  | escape hm hp hk =>
    show Outcome cx s p (Edit.escape.state cx s) (Edit.escape.calls cx s)
    rw [Edit.state_escape, Edit.calls_escape]
    exact .escape hm hp hk
  | key hm hi hp => exact h hm hi hp

/-- Over a selection every press comes to one of the cases, whether or not the state is sound. -/
theorem outcome_of_selecting (hv : s.mode.isSelecting = true) (p : Press) :
    Outcome cx s p ((Edit.press p).state cx s) ((Edit.press p).calls cx s) := by
  refine outcome_of_modeKey cx p fun _ _ hp => ?_
  rw [Edit.modeKey_of_isSelecting hv]
  exact outcome_visualKey cx hv hp

theorem outcome_of_visualObject (hm : s.mode = .visualObject) (p : Press) :
    Outcome cx s p ((Edit.press p).state cx s) ((Edit.press p).calls cx s) := by
  refine outcome_of_modeKey cx p fun _ _ hp => ?_
  rw [hm]
  exact outcome_visualObjectKey cx hm hp

namespace State

theorem Sound.outcome_modeKey (h : s.Sound cx.config.keys) (p : Press) (hs : s.mode ≠ .search)
    (hi : s.mode ≠ .insert) (hp : p.Plain) :
    Outcome cx s p ((Edit.modeKey s.mode p.key).state cx s)
      ((Edit.modeKey s.mode p.key).calls cx s) := by
  cases hm : s.mode with
  | normal =>
    cases hk : p.key with
    | char c => exact .normal c hm ⟨hk, hp.1⟩ (normalOutcome_normalChar cx hm c)
    | escape => exact absurd hk hp.2.1
    | _ => exact .clear hm hp (by rw [hk]; rfl)
  | insert => exact absurd hm hi
  | search => exact absurd hm hs
  | operatorMotion => exact absurd hm h.mode_ne
  | visual | visualLine => exact outcome_visualKey cx (by rw [hm]; rfl) hp
  | operatorObject =>
    obtain ⟨op, hop, hput⟩ := h.exists_operator hm
    have hv : s.mode ≠ .visualLine := by rw [hm]; decide
    have hpending := h.pending_eq (by rw [hm]; decide)
    show Outcome cx s p ((Edit.objectKey p.key).state cx s) ((Edit.objectKey p.key).calls cx s)
    rcases p.key.textObject_cases with ⟨c, o, hk, hc⟩ | hk
    · rw [hk, Edit.state_objectKey_object cx s op c o hop hc,
        Edit.calls_objectKey_object cx s op c o hop hput hc hv]
      have hout : Outcome cx s p _ _ := .object op c o hm hop ⟨hk, hp.1⟩ hc
      unfold ended at hout
      rw [← hpending] at hout
      exact hout
    · rw [Edit.state_objectKey_other cx s p.key hk, Edit.calls_objectKey_other cx s p.key hk hv]
      have hout : Outcome cx s p _ _ := .noObject hm hp hk
      unfold ended at hout
      rw [← hpending] at hout
      exact hout
  | visualObject => exact outcome_visualObjectKey cx hm hp

/-- In a sound state every press comes to one of the cases. -/
theorem Sound.outcome (h : s.Sound cx.config.keys) (p : Press) :
    Outcome cx s p ((Edit.press p).state cx s) ((Edit.press p).calls cx s) :=
  outcome_of_modeKey cx p (h.outcome_modeKey cx p)

end State

end ModalInput
