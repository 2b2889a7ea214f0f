import ModalInput.Proofs.Events

/-!
# Counts around a leader

The leaders of the marks take no count.  Digits that are typed in front of such a leader, or between
it and its argument, are kept until the argument comes and are dropped with it, so that the run
comes to the same without them.

    a.SameButCount b → l.IsMarking → c.isDigit = false → a.state.Supplies l r c →
      (a.step (.press r)).state = (b.step (.press r)).state                  (SameButCount.argument)
-/

namespace ModalInput

/-! ## Definitions -/

/-- Events that type a text, with changes from outside between the presses. -/
inductive Typing : List Input → List Char → Prop
  | nil : Typing [] []
  | press {p : Press} {c : Char} {is : List Input} {w : List Char} (hp : p.Types c)
      (h : Typing is w) : Typing (.press p :: is) (c :: w)
  | select {selection : Option Span} {is : List Input} {w : List Char} (h : Typing is w) :
      Typing (.select selection :: is) w

/-- The changes from outside alone. -/
def withoutPresses (is : List Input) : List Input := is.filter fun i => i.press?.isNone

/-- The leaders of the marks. -/
def Leader.IsMarking (l : Leader) : Prop := l = .mark ∨ ∃ linewise, l = .jump linewise

def State.uncounted {S : Type} (s : State S) : State S :=
  { s with pending := { s.pending with digits := [] } }

/-- The two sessions differ at most in a count and in what was announced. -/
structure Session.SameButCount (a b : Session) : Prop where
  config_eq : a.config = b.config
  state_eq : a.state.uncounted = b.state.uncounted
  calls_eq : a.surface.calls = b.surface.calls
  selection_eq : a.surface.selection = b.surface.selection
  unavailable_eq : a.surface.unavailable = b.surface.unavailable

/-! ## Leaders of the marks -/

namespace Leader.IsMarking

variable {l : Leader}

theorem ne_operator (h : l.IsMarking) (op : Operator) : l ≠ .operator op := by
  rcases h with rfl | ⟨linewise, rfl⟩ <;> exact nofun

theorem not_isDigit (h : l.IsMarking) : l.letter.isDigit = false := by
  rcases h with rfl | ⟨_ | _, rfl⟩ <;> decide

theorem ofChar?_letter (h : l.IsMarking) : NormalEntry.ofChar? l.letter = some (.leader l) := by
  rcases h with rfl | ⟨_ | _, rfl⟩ <;> rfl

theorem callsFor_eq {S : Type} (h : l.IsMarking) (marks : Marks S) (m n : Nat) (c : Char) :
    l.callsFor marks m c = l.callsFor marks n c := by
  rcases h with rfl | ⟨linewise, rfl⟩ <;> rfl

end Leader.IsMarking

/-! ## Presses without calls -/

section
variable {S : Type} (cx : Context S) {s : State S} {p : Press}

theorem press_digit (hm : s.mode = .normal) {c : Char} (hp : p.Types c)
    (ha : s.pending.accepts c = true) :
    (Edit.press p).calls cx s = [] ∧
      (Edit.press p).state cx s =
        { s with pending := s.pending.push cx.config.keys.countLimit c } := by
  have happly := Edit.press_apply_char cx s p c hm hp
  rw [Edit.calls_congr _ _ happly, Edit.state_congr _ _ happly]
  exact ⟨Edit.calls_normalChar_digit cx s c ha, Edit.state_normalChar_digit cx s c ha⟩

theorem press_leader (hm : s.mode = .normal) (hn : s.pending.leader = none) {l : Leader}
    (hl : l.IsMarking) (hp : p.Types l.letter) :
    (Edit.press p).calls cx s = [] ∧
      (Edit.press p).state cx s = { s with pending := { s.pending with leader := some l } } := by
  have happly := Edit.press_apply_char cx s p l.letter hm hp
  have ha := Pending.accepts_eq_false_of_not_isDigit s.pending l.letter hl.not_isDigit
  rw [Edit.calls_congr _ _ happly, Edit.state_congr _ _ happly]
  exact ⟨Edit.calls_normalChar_leader cx s _ l ha hn hl.ofChar?_letter,
    Edit.state_normalChar_leader cx s _ l ha hn hl.ofChar?_letter⟩

end

namespace Session

theorem calls_step_of_nil {s : Session} {p : Press}
    (h : (Edit.press p).calls s.context s.state = []) :
    (s.step (.press p)).surface.calls = s.surface.calls := by
  rw [calls_step, h]
  exact List.append_nil _

theorem selection_step_of_nil {s : Session} {p : Press}
    (h : (Edit.press p).calls s.context s.state = []) :
    (s.step (.press p)).surface.selection = s.surface.selection := by
  rw [selection_step, h]
  rfl

end Session

/-! ## One event -/

namespace Session.SameButCount

variable {a b : Session}

theorem refl (s : Session) : s.SameButCount s := ⟨rfl, rfl, rfl, rfl, rfl⟩

theorem mode_eq (h : a.SameButCount b) : a.state.mode = b.state.mode := by
  have hmode := congrArg State.mode h.state_eq
  exact hmode

theorem leader_eq (h : a.SameButCount b) : a.state.pending.leader = b.state.pending.leader := by
  have hleader := congrArg (fun s => s.pending.leader) h.state_eq
  exact hleader

theorem marks_eq (h : a.SameButCount b) : a.state.marks = b.state.marks := by
  have hmarks := congrArg State.marks h.state_eq
  exact hmarks

theorem context_eq (h : a.SameButCount b) : a.context = b.context := by
  unfold context
  rw [h.config_eq, Recording.host_eq h.selection_eq h.unavailable_eq]

theorem select (h : a.SameButCount b) (x : Option Span) :
    (a.step (.select x)).SameButCount (b.step (.select x)) :=
  ⟨h.config_eq, h.state_eq, h.calls_eq, rfl, h.unavailable_eq⟩

/-- A digit on one side alone. -/
theorem digit (h : a.SameButCount b) (hm : a.state.mode = .normal) {p : Press} {c : Char}
    (hp : p.Types c) (ha : a.state.pending.accepts c = true) :
    (a.step (.press p)).SameButCount b := by
  obtain ⟨hcalls, hstate⟩ := press_digit a.context hm hp ha
  refine ⟨h.config_eq, ?_, (calls_step_of_nil hcalls).trans h.calls_eq,
    (selection_step_of_nil hcalls).trans h.selection_eq, h.unavailable_eq⟩
  show ((Edit.press p).state a.context a.state).uncounted = _
  rw [hstate, ← h.state_eq]
  unfold State.uncounted Pending.push
  split <;> rfl

/-- The leader comes on both sides. -/
theorem leader (h : a.SameButCount b) (hm : a.state.mode = .normal)
    (hn : a.state.pending.leader = none) {q : Press} {l : Leader} (hl : l.IsMarking)
    (hq : q.Types l.letter) : (a.step (.press q)).SameButCount (b.step (.press q)) := by
  obtain ⟨hca, hsa⟩ := press_leader a.context hm hn hl hq
  obtain ⟨hcb, hsb⟩ := press_leader b.context (h.mode_eq.symm.trans hm)
    (h.leader_eq.symm.trans hn) hl hq
  refine ⟨h.config_eq, ?_, ?_, ?_, h.unavailable_eq⟩
  · show ((Edit.press q).state a.context a.state).uncounted =
      ((Edit.press q).state b.context b.state).uncounted
    rw [hsa, hsb]
    exact congrArg (fun s : State Span =>
      { s with pending := { s.pending with leader := some l } }) h.state_eq
  · rw [calls_step_of_nil hca, calls_step_of_nil hcb, h.calls_eq]
  · rw [selection_step_of_nil hca, selection_step_of_nil hcb, h.selection_eq]

/-- The argument drops the count. -/
theorem argument (h : a.SameButCount b) {r : Press} {l : Leader} {c : Char} (hl : l.IsMarking)
    (hc : c.isDigit = false) (ha : a.state.Supplies l r c) :
    (a.step (.press r)).state = (b.step (.press r)).state ∧
      (a.step (.press r)).surface.calls = (b.step (.press r)).surface.calls ∧
      (a.step (.press r)).surface.selection = (b.step (.press r)).surface.selection := by
  have hb : b.state.Supplies l r c :=
    ⟨h.mode_eq.symm.trans ha.mode_eq, h.leader_eq.symm.trans ha.leader_eq, ha.types,
      Pending.accepts_eq_false_of_not_isDigit _ c hc⟩
  have hcalls : (Edit.press r).calls a.context a.state =
      (Edit.press r).calls b.context b.state := by
    rw [ha.calls_press, hb.calls_press, h.marks_eq]
    exact hl.callsFor_eq _ _ _ c
  refine ⟨?_, ?_, ?_⟩
  · show (Edit.press r).state a.context a.state = (Edit.press r).state b.context b.state
    rw [ha.state_press hl.ne_operator, hb.state_press hl.ne_operator, h.context_eq, h.marks_eq]
    have hdropped := congrArg (fun s : State Span => ({ s with pending := .empty } : State Span))
      h.state_eq
    generalize (if l = .mark then _ else _ : Marks Span) = marks
    have hmarked := congrArg (fun s : State Span => ({ s with marks := marks } : State Span).resume)
      hdropped
    exact hmarked
  · rw [calls_step, calls_step, hcalls, h.calls_eq, h.unavailable_eq]
  · rw [selection_step, selection_step, hcalls, h.selection_eq]

end Session.SameButCount

/-! ## Runs -/

namespace Session

/-- Changes from outside do not reach the state. -/
theorem state_withoutPresses (s : Session) {is : List Input} {w : List Char} (h : Typing is w) :
    (s.stepAll (withoutPresses is)).state = s.state := by
  induction h generalizing s with
  | nil => rfl
  | press _ _ ih => exact ih s
  | select _ ih => exact ih (s.step (.select _))

/-- A count on one side alone. -/
theorem SameButCount.count {a b : Session} {is : List Input} {v w : List Char}
    (h : a.SameButCount b) (ht : Typing is w) (hm : a.state.mode = .normal)
    (hc : IsCount (v ++ w)) (hd : a.state.pending.digits = kept a.config.keys.countLimit v) :
    (a.stepAll is).SameButCount (b.stepAll (withoutPresses is)) ∧
      (a.stepAll is).state.pending.digits = kept a.config.keys.countLimit (v ++ w) := by
  -- The digits typed so far are `v`; what is kept of them decides whether the next is accepted.
  induction ht generalizing a b v with
  | nil =>
    rw [List.append_nil]
    exact ⟨h, hd⟩
  | @press p c is w hp _ ih =>
    have ha := Pending.accepts_of_isCount _ _ v w c hd hc
    obtain ⟨-, hstate⟩ := press_digit a.context hm hp ha
    have hdigits : (a.step (.press p)).state.pending.digits =
        kept a.config.keys.countLimit (v ++ [c]) := by
      rw [state_step]
      show ((Edit.press p).state a.context a.state).pending.digits = _
      rw [hstate]
      exact congrArg Pending.digits (Pending.push_eq a.state.pending _ v c hd)
    have hmode : (a.step (.press p)).state.mode = .normal := by
      show ((Edit.press p).state a.context a.state).mode = _
      rw [hstate]
      exact hm
    rw [List.append_cons] at hc ⊢
    exact ih (h.digit hm hp ha) hmode hc hdigits
  | select _ ih => exact ih (h.select _) hm hc hd

theorem SameButCount.mode_leader {a b : Session} {is : List Input} {w : List Char}
    (h : (a.stepAll is).SameButCount (b.stepAll (withoutPresses is))) (ht : Typing is w) :
    (a.stepAll is).state.mode = b.state.mode ∧
      (a.stepAll is).state.pending.leader = b.state.pending.leader := by
  rw [h.mode_eq, h.leader_eq, b.state_withoutPresses ht]
  exact ⟨rfl, rfl⟩

/-- A count in front of a leader of the marks, and between the leader and its argument, makes no
difference. -/
theorem count_around_leader (s : Session) (hm : s.state.mode = .normal)
    (he : s.state.pending.isEmpty = true) {l : Leader} (hl : l.IsMarking) {q r : Press} {c : Char}
    (hq : q.Types l.letter) (hr : r.Types c) (hc : c.isDigit = false) {is js : List Input}
    {v w : List Char} (hv : Typing is v) (hw : Typing js w) (hvw : IsCount (v ++ w)) :
    let a := s.stepAll (is ++ .press q :: js ++ [.press r])
    let b := s.stepAll (withoutPresses is ++ .press q :: withoutPresses js ++ [.press r])
    a.state = b.state ∧ a.surface.calls = b.surface.calls ∧
      a.surface.selection = b.surface.selection := by
  intro a b
  have hempty := Pending.eq_empty_of_isEmpty _ he
  -- The count in front.
  obtain ⟨hfront, hdigits⟩ := SameButCount.count (SameButCount.refl s) hv hm hvw.left (v := [])
    (by rw [hempty]; exact List.take_nil.symm)
  obtain ⟨hmode, hnone⟩ := hfront.mode_leader hv
  rw [hm] at hmode
  rw [hempty] at hnone
  have hleader := hfront.leader hmode hnone hl hq
  have hstate : ((s.stepAll is).step (.press q)).state =
      { (s.stepAll is).state with
        pending := { (s.stepAll is).state.pending with leader := some l } } :=
    (press_leader (s.stepAll is).context hmode hnone hl hq).2
  have hmode' : ((s.stepAll is).step (.press q)).state.mode = .normal := by
    rw [hstate]
    exact hmode
  have hpending : ((s.stepAll is).step (.press q)).state.pending.leader = some l := by rw [hstate]
  have hdigits' : ((s.stepAll is).step (.press q)).state.pending.digits =
      kept ((s.stepAll is).step (.press q)).config.keys.countLimit v := by
    rw [hstate, config_step, config_stepAll]
    exact hdigits
  -- The count behind.
  obtain ⟨hback, -⟩ := hleader.count hw hmode' hvw hdigits'
  obtain ⟨hm₂, hl₂⟩ := hback.mode_leader hw
  rw [← hleader.mode_eq, hmode'] at hm₂
  rw [← hleader.leader_eq, hpending] at hl₂
  have hlast := hback.argument hl hc
    ⟨hm₂, hl₂, hr, Pending.accepts_eq_false_of_not_isDigit _ c hc⟩
  simp only [a, b, stepAll_append]
  exact hlast

end Session

end ModalInput
