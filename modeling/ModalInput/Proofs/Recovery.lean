import ModalInput.Proofs.Disposition
import ModalInput.Proofs.Indicator
import ModalInput.Proofs.OneShot

/-!
# Escape

Escape leads out of every state there is, one that presses cannot lead to included.  Outside the
find box a single one leaves nothing but the marks; an open find box takes the first for itself.
Behind two of them a session is a new one that holds the same marks.

    s.mode ≠ .search → (press p).state cx s = s.fresh                      (state_press_escape)
    t.stepAll is = (n.stepAll is).behind t.surface                           (escape_recovers)
-/

namespace ModalInput

variable {S : Type}

/-! ## Definitions -/

/-- Escape, with no modifier but shift. -/
def Press.Escapes (p : Press) : Prop := p.IsEscape ∧ p.Free

/-- Nothing under way, and the marks as they are. -/
def State.fresh (s : State S) : State S := { (.initial : State S) with marks := s.marks }

/-- The calls with which Escape leaves a mode: a selection is dropped to its end, and one by lines
reaches a line too far. -/
def Mode.escaping : Mode → List (Call S)
  | .visual => typed [.plain .right]
  | .visualLine => typed [.plain .right, .plain .left]
  | _ => []

/-- The recording with what another one holds put in front. -/
def Recording.behind (r q : Recording) : Recording :=
  { r with calls := q.calls ++ r.calls, statuses := q.statuses ++ r.statuses }

def Session.behind (s : Session) (q : Recording) : Session :=
  { s with surface := s.surface.behind q }

/-- A new session that holds marks, on a surface with nothing recorded. -/
def Session.newMarked (config : Config) (marks : Marks Span) (r : Recording) : Session :=
  { new config r.drain with state := { (.initial : State Span) with marks } }

/-! ## One Escape -/

theorem Mode.escaping_eq (m : Mode) :
    (m.escaping : List (Call S)) =
      (if m.isSelecting then typed [.plain .right] else []) ++ m.stepBack := by
  cases m <;> rfl

theorem Press.Escapes.key_eq {p : Press} (hp : p.Escapes) : p.key = .escape :=
  (Key.ofName_eq_escape_iff p.name).2 hp.1

theorem Press.Escapes.cancels {p : Press} (hp : p.Escapes) {s : State S} (hm : s.mode ≠ .search) :
    s.Cancels p :=
  ⟨hp.key_eq, (hasHostModifier_eq_false_iff p).2 hp.2, hm⟩

theorem Press.Escapes.suppressed {p : Press} (hp : p.Escapes) (keys : KeySettings) (m : Mode) :
    disposition keys m p = .suppress := by
  rw [disposition_eq_suppress_iff]
  cases m with
  | insert => exact Or.inr hp
  | search => exact Or.inl hp.1
  | _ =>
    refine ⟨hp.2, ?_⟩
    rcases hp.1 with h | h <;> rw [h] <;> decide

namespace Edit

variable (cx : Context S) {s : State S} {p : Press} (hp : p.Escapes)
include hp

theorem state_press_escape (hm : s.mode ≠ .search) : (press p).state cx s = s.fresh := by
  rw [state_congr cx s (press_apply_escape cx (hp.cancels hm)), state_escape]
  rfl

theorem calls_press_escape (hm : s.mode ≠ .search) : (press p).calls cx s = s.mode.escaping := by
  rw [calls_congr cx s (press_apply_escape cx (hp.cancels hm)), calls_escape, Mode.escaping_eq]

/-- The find box closes, and what was under way stays. -/
theorem press_apply_closeFind (hm : s.mode = .search) : press p cx s = toNormal cx s :=
  press_apply cx s p ((intake_eq_closeFind_iff _ _ p).2 ⟨hm, Or.inl hp.key_eq⟩)

theorem state_press_closeFind (hm : s.mode = .search) :
    (press p).state cx s = { s with mode := .normal } := by
  rw [state_congr cx s (press_apply_closeFind cx hp hm), state_toNormal]

theorem calls_press_closeFind (hm : s.mode = .search) : (press p).calls cx s = [] := by
  rw [calls_congr cx s (press_apply_closeFind cx hp hm), calls_toNormal, hm]
  rfl

/-- Behind one Escape the find box is closed. -/
theorem mode_press_escape : ((press p).state cx s).mode = .normal := by
  by_cases hm : s.mode = .search
  · rw [state_press_closeFind cx hp hm]
  · rw [state_press_escape cx hp hm]
    rfl

theorem fresh_press_escape : ((press p).state cx s).fresh = s.fresh := by
  by_cases hm : s.mode = .search
  · rw [state_press_closeFind cx hp hm]
    rfl
  · rw [state_press_escape cx hp hm]
    rfl

end Edit

/-! ## Sessions with something recorded -/

theorem Recording.absorb_behind (r q : Recording) (es : List (Effect Span)) :
    (r.behind q).absorb es = (r.absorb es).behind q := by
  simp only [absorb, behind, List.append_assoc]

theorem Recording.drain_behind (r : Recording) : r.drain.behind r = r := by
  simp only [drain, behind, List.append_nil]

namespace Session

/-- What is recorded already makes no difference to an input. -/
theorem step_behind (s : Session) (q : Recording) (i : Input) :
    (s.behind q).step i = (s.step i).behind q := by
  have happly (e : Edit Span) : (s.behind q).apply e = (s.apply e).behind q :=
    congrArg (Session.mk s.config (e.state s.context s.state)) (s.surface.absorb_behind q _)
  cases i with
  | select | withdraw => rfl
  | _ => exact happly _

theorem stepAll_behind (s : Session) (q : Recording) (is : List Input) :
    (s.behind q).stepAll is = (s.stepAll is).behind q := by
  induction is generalizing s with
  | nil => rfl
  | cons i is ih =>
    show ((s.behind q).step i).stepAll is = _
    rw [step_behind]
    exact ih (s.step i)

/-- With nothing under way, a session is a new one but for its marks and what it has recorded. -/
theorem newMarked_behind (s : Session) (marks : Marks Span)
    (h : s.state = { (.initial : State Span) with marks }) :
    (newMarked s.config marks s.surface).behind s.surface = s := by
  show Session.mk s.config { (.initial : State Span) with marks }
    (s.surface.drain.behind s.surface) = s
  rw [Recording.drain_behind, ← h]

/-! ## Any state -/

theorem calls_step_escape (s : Session) {p : Press} (hp : p.Escapes) (hm : s.state.mode ≠ .search) :
    (s.step (.press p)).surface.calls = s.surface.calls ++ s.state.mode.escaping := by
  have hkept : (s.state.mode.escaping.filter fun c : Call Span =>
      !c.performs s.surface.unavailable) = s.state.mode.escaping := by
    cases s.state.mode <;> rfl
  rw [calls_step, Edit.calls_press_escape s.context hp hm, hkept]

theorem calls_step_closeFind (s : Session) {p : Press} (hp : p.Escapes)
    (hm : s.state.mode = .search) : (s.step (.press p)).surface.calls = s.surface.calls := by
  rw [calls_step, Edit.calls_press_closeFind s.context hp hm]
  exact List.append_nil _

theorem state_escape_twice (s : Session) {p q : Press} (hp : p.Escapes) (hq : q.Escapes) :
    ((s.step (.press p)).step (.press q)).state = s.state.fresh := by
  have hmode : (s.step (.press p)).state.mode = .normal := Edit.mode_press_escape s.context hp
  have hsecond : ((s.step (.press p)).step (.press q)).state = (s.step (.press p)).state.fresh :=
    Edit.state_press_escape _ hq (by rw [hmode]; decide)
  rw [hsecond]
  exact Edit.fresh_press_escape s.context hp

/-- **Escape.**  From every state and on every surface it is kept from the host.  It leaves nothing
but the marks and makes the calls of the mode; from the find box it goes back to Normal mode, no
more.  Two of them leave nothing but the marks from anywhere, a third does nothing, and all that
comes later is what comes of a new session with the same marks on the same surface. -/
theorem escape_recovers (s : Session) {p q r : Press} (hp : p.Escapes) (hq : q.Escapes)
    (hr : r.Escapes) :
    let once := s.step (.press p)
    let t := once.step (.press q)
    let n := newMarked s.config s.state.marks t.surface
    (s.answer (.press p)).disposition = some .suppress ∧
      (s.state.mode ≠ .search →
        once.state = s.state.fresh ∧
          once.surface.calls = s.surface.calls ++ s.state.mode.escaping) ∧
      (s.state.mode = .search →
        once.state = { s.state with mode := .normal } ∧ once.surface.calls = s.surface.calls) ∧
      t.state = s.state.fresh ∧
      (t.step (.press r)).state = t.state ∧
      (t.step (.press r)).surface.calls = t.surface.calls ∧
      ∀ is, t.stepAll is = (n.stepAll is).behind t.surface ∧
        ∀ i, (t.stepAll is).answer i = (n.stepAll is).answer i := by
  intro once t n
  have ht : t.state = s.state.fresh := s.state_escape_twice hp hq
  have hmode : t.state.mode = .normal := by rw [ht]; rfl
  have hns : t.state.mode ≠ .search := by rw [hmode]; decide
  have hnew : n.behind t.surface = t := t.newMarked_behind s.state.marks ht
  refine ⟨congrArg some (hp.suppressed s.config.keys s.state.mode), fun hm => ?_, fun hm => ?_, ht,
    ?_, ?_, fun is => ?_⟩
  · exact ⟨Edit.state_press_escape s.context hp hm, s.calls_step_escape hp hm⟩
  · exact ⟨Edit.state_press_closeFind s.context hp hm, s.calls_step_closeFind hp hm⟩
  · have hthird : (t.step (.press r)).state = t.state.fresh :=
      Edit.state_press_escape t.context hr hns
    rw [hthird, ht]
    rfl
  · rw [t.calls_step_escape hr hns, hmode]
    exact List.append_nil _
  · have hrun : t.stepAll is = (n.stepAll is).behind t.surface := by
      have hstep := n.stepAll_behind t.surface is
      rw [hnew] at hstep
      exact hstep
    refine ⟨hrun, fun i => ?_⟩
    rw [hrun]
    rfl

/-- The find box is open, and a state is kept behind it that no presses lead to: an operator is
remembered next to a leader that is pending. -/
theorem escape_recovers_find :
    let marks := (Marks.empty : Marks Span).set 'q' ⟨3, 8⟩
    let s : Session :=
      ⟨.default, ⟨.search, ⟨['4'], some .go, some 'x'⟩, marks, some .yank, true⟩,
        { Recording.new with unavailable := [.cut] }⟩
    let esc := Press.ofName "Esc"
    let once := s.step (.press ((Press.ofName "Escape").hold .shift))
    let t := once.step (.press esc)
    esc.Escapes ∧ once.state = ⟨.normal, ⟨['4'], some .go, some 'x'⟩, marks, some .yank, true⟩ ∧
      t.state = ⟨.normal, .empty, marks, none, false⟩ ∧
      (t.step (.press esc)).state = t.state ∧ t.surface.calls = [] ∧
      (t.stepAll [.press (.ofChar '\''), .press (.ofChar 'q')]).surface.calls =
        [.restore ⟨3, 8⟩, .type (.plain .home)] := by
  intro marks s esc once t
  have hesc : esc.Escapes := ⟨Or.inr rfl, rfl, rfl, rfl⟩
  have hshift : ((Press.ofName "Escape").hold .shift).Escapes := ⟨Or.inl rfl, rfl, rfl, rfl⟩
  obtain ⟨-, -, hfind, htwice, hthird, -, hrun⟩ := escape_recovers s hshift hesc hesc
  refine ⟨hesc, (hfind rfl).1, htwice, hthird, by decide, ?_⟩
  rw [(hrun _).1]
  decide

end Session

end ModalInput
