import Mathlib.Data.List.Forall2
import ModalInput.Proofs.Count
import ModalInput.Proofs.Intake
import ModalInput.Proofs.Keys
import ModalInput.Proofs.Recorded
import ModalInput.Session

/-!
# Runs

The states that presses lead to, and what a session does with a list of presses: with every action
at hand, a press adds its calls to the recording and nothing else to it.

    Gives s ps cs t → Gives (s.pressAll ps) qs ds u →
      Gives s (ps ++ qs) (cs ++ ds) u                                      (Gives.append)
-/

namespace ModalInput

/-! ## One press -/

namespace Edit

section
variable {S : Type} (cx : Context S) (s : State S) (p : Press)

theorem press_apply {i : Intake} (h : intake cx.config.keys s.mode p = i) :
    press p cx s = ofIntake s.mode i cx s := by
  subst h
  rfl

theorem press_apply_of_pass (h : disposition cx.config.keys s.mode p = .pass) :
    press p cx s = skip cx s :=
  press_apply cx s p ((disposition_eq_pass_iff _ _ p).1 h)

theorem press_apply_oneShot (hm : s.mode = .insert) (ho : cx.config.keys.isOneShot p = true) :
    press p cx s = openOneShot cx s :=
  press_apply cx s p ((intake_eq_oneShot_iff _ _ p).2 ⟨hm, ho⟩)

theorem press_apply_types (c : Char) (hs : s.mode ≠ .search) (hi : s.mode ≠ .insert)
    (hp : p.Types c) : press p cx s = modeKey s.mode (.char c) cx s :=
  press_apply cx s p (intake_of_types _ _ p c hs hi hp)

theorem press_apply_char (c : Char) (hm : s.mode = .normal) (hp : p.Types c) :
    press p cx s = normalChar c cx s := by
  rw [press_apply_types cx s p c (by rw [hm]; decide) (by rw [hm]; decide) hp, hm]
  rfl

end

end Edit

/-! ## Reachable states -/

/-- The states that presses lead to from the start, whatever the host reports. -/
inductive Reachable {S : Type} (config : Config) : State S → Prop
  | initial : Reachable config .initial
  | press (host : Host S) (p : Press) {s : State S} (h : Reachable config s) :
      Reachable config ((Edit.press p).state ⟨config, host⟩ s)

/-- The state after presses, each with what the host reports then. -/
def State.run {S : Type} (config : Config) (s : State S) (xs : List (Host S × Press)) : State S :=
  xs.foldl (fun s x => (Edit.press x.2).state ⟨config, x.1⟩ s) s

theorem State.run_append {S : Type} (config : Config) (s : State S)
    (xs ys : List (Host S × Press)) : s.run config (xs ++ ys) = (s.run config xs).run config ys :=
  List.foldl_append

theorem Reachable.run {S : Type} {config : Config} {s : State S} (h : Reachable config s)
    (xs : List (Host S × Press)) : Reachable config (s.run config xs) := by
  induction xs generalizing s with
  | nil => exact h
  | cons x xs ih => exact ih (.press x.1 x.2 h)

/-! ## Sessions -/

namespace Session

def pressAll (s : Session) (ps : List Press) : Session :=
  ps.foldl (fun s p => s.step (.press p)) s

def stepAll (s : Session) (is : List Input) : Session := is.foldl step s

theorem config_pressAll (s : Session) (ps : List Press) : (s.pressAll ps).config = s.config := by
  induction ps generalizing s with
  | nil => rfl
  | cons p ps ih => exact ih _

theorem unavailable_pressAll (s : Session) (ps : List Press) :
    (s.pressAll ps).surface.unavailable = s.surface.unavailable := by
  induction ps generalizing s with
  | nil => rfl
  | cons p ps ih => exact ih _

theorem pressAll_append (s : Session) (ps qs : List Press) :
    s.pressAll (ps ++ qs) = (s.pressAll ps).pressAll qs :=
  List.foldl_append

/-- A state in a session on any surface is reached by the presses alone. -/
theorem reachable_pressAll (s : Session) (ps : List Press) (h : Reachable s.config s.state) :
    Reachable s.config (s.pressAll ps).state := by
  induction ps generalizing s with
  | nil => exact h
  | cons p ps ih => exact ih (s.step (.press p)) (.press s.surface.host p h)

/-- A press that passes leaves the whole session as it is. -/
theorem step_of_pass (s : Session) (p : Press) (h : s.disposition p = .pass) :
    s.step (.press p) = s := by
  show s.apply (.press p) = s
  unfold apply
  rw [Edit.press_apply_of_pass s.context s.state p h]
  show ({ s with surface := s.surface.absorb [] } : Session) = s
  rw [Recording.absorb_nil]

theorem pressAll_of_pass (s : Session) (ps : List Press)
    (h : ∀ p ∈ ps, s.disposition p = .pass) : s.pressAll ps = s := by
  induction ps with
  | nil => rfl
  | cons p ps ih =>
    show (s.step (.press p)).pressAll ps = s
    rw [s.step_of_pass p (h p List.mem_cons_self)]
    exact ih (fun q hq => h q (List.mem_cons_of_mem p hq))

/-! ## What a run gives -/

/-- A press adds its calls, other than those of the actions that the surface does not have. -/
theorem calls_step (s : Session) (p : Press) :
    (s.step (.press p)).surface.calls =
      s.surface.calls ++ ((Edit.press p).calls s.context s.state).filter
        fun c => !c.performs s.surface.unavailable :=
  congrArg (s.surface.calls ++ ·) (Recording.filterMap_accepted? _ _)

theorem selection_step (s : Session) (p : Press) :
    (s.step (.press p)).surface.selection =
      ((Edit.press p).calls s.context s.state).foldl
        (fun x c => Recording.selectionAfter x (.call c)) s.surface.selection :=
  Recording.foldl_selectionAfter _ _

theorem calls_press (s : Session) (p : Press) (h : s.surface.unavailable = []) :
    (s.step (.press p)).surface.calls =
      s.surface.calls ++ (Edit.press p).calls s.context s.state := by
  rw [calls_step, h, Call.filter_performs_nil]

/-- The presses add exactly the calls `cs` to the recording and lead to the state `t`. -/
def Gives (s : Session) (ps : List Press) (cs : List (Call Span)) (t : State Span) : Prop :=
  (s.pressAll ps).surface.calls = s.surface.calls ++ cs ∧ (s.pressAll ps).state = t

theorem Gives.nil (s : Session) : s.Gives [] [] s.state :=
  ⟨(List.append_nil _).symm, rfl⟩

theorem Gives.append {s : Session} {ps qs : List Press} {cs ds : List (Call Span)}
    {t u : State Span} (h : s.Gives ps cs t) (k : (s.pressAll ps).Gives qs ds u) :
    s.Gives (ps ++ qs) (cs ++ ds) u := by
  unfold Gives
  rw [pressAll_append]
  refine ⟨?_, k.2⟩
  rw [k.1, h.1, List.append_assoc]

theorem Gives.pass {s : Session} {ps qs : List Press} {cs : List (Call Span)} {t : State Span}
    (h : s.Gives ps cs t) (hq : ∀ q ∈ qs, ModalInput.disposition s.config.keys t.mode q = .pass) :
    s.Gives (ps ++ qs) cs t := by
  have hall : ∀ q ∈ qs, (s.pressAll ps).disposition q = .pass := by
    intro q hmem
    unfold Session.disposition
    rw [h.2, config_pressAll]
    exact hq q hmem
  unfold Gives
  rw [pressAll_append, pressAll_of_pass _ qs hall]
  exact h

theorem Gives.single (s : Session) (p : Press) (h : s.surface.unavailable = []) :
    s.Gives [p] ((Edit.press p).calls s.context s.state)
      ((Edit.press p).state s.context s.state) :=
  ⟨calls_press s p h, rfl⟩

/-- One more press, under the settings of the session and what some host reports. -/
theorem Gives.press {s : Session} {ps : List Press} {cs : List (Call Span)} {t : State Span}
    (h : s.Gives ps cs t) (hu : s.surface.unavailable = []) (p : Press) :
    ∃ host, s.Gives (ps ++ [p]) (cs ++ (Edit.press p).calls ⟨s.config, host⟩ t)
      ((Edit.press p).state ⟨s.config, host⟩ t) := by
  have hone := Gives.single (s.pressAll ps) p (by rw [unavailable_pressAll, hu])
  rw [h.2] at hone
  refine ⟨(s.pressAll ps).surface.host, ?_⟩
  rw [← config_pressAll s ps]
  exact h.append hone

/-! ## Characters typed in Normal mode -/

theorem Gives.char {s : Session} {ps : List Press} {cs : List (Call Span)} {t : State Span}
    (h : s.Gives ps cs t) (hu : s.surface.unavailable = []) (hm : t.mode = .normal) (p : Press)
    (c : Char) (hp : p.Types c) :
    ∃ host, s.Gives (ps ++ [p])
      (cs ++ (Edit.normalChar c).calls ⟨s.config, host⟩ t)
      ((Edit.normalChar c).state ⟨s.config, host⟩ t) := by
  obtain ⟨host, hg⟩ := h.press hu p
  have happly := Edit.press_apply_char ⟨s.config, host⟩ t p c hm hp
  rw [Edit.calls_congr _ _ happly, Edit.state_congr _ _ happly] at hg
  exact ⟨host, hg⟩

/-- The digits of a count are kept, and nothing is called. -/
theorem Gives.count {s : Session} {ps qs : List Press} {cs : List (Call Span)} {t : State Span}
    {v w : List Char} (h : s.Gives ps cs t) (hu : s.surface.unavailable = [])
    (hm : t.mode = .normal) (ht : List.Forall₂ Press.Types qs w) (hc : IsCount (v ++ w))
    (hd : t.pending.digits = kept s.config.keys.countLimit v) :
    s.Gives (ps ++ qs) cs
      { t with
        pending := { t.pending with digits := kept s.config.keys.countLimit (v ++ w) } } := by
  induction ht generalizing ps v t with
  | nil =>
    rw [List.append_nil, List.append_nil, ← hd]
    exact h
  | @cons p c qs w hp _ ih =>
    have ha := Pending.accepts_of_isCount t.pending _ v w c hd hc
    obtain ⟨host, hg⟩ := h.char hu hm p c hp
    rw [Edit.calls_normalChar_digit _ t c ha, Edit.state_normalChar_digit _ t c ha,
      Pending.push_eq t.pending _ v c hd, List.append_nil] at hg
    rw [List.append_cons v c w] at hc ⊢
    rw [List.append_cons ps p qs]
    have hrest := ih hg hm hc rfl
    exact hrest

/-! ## Counts and leaders typed at rest -/

end Session

/-- Normal mode with nothing under way. -/
def State.AtRest {S : Type} (s : State S) : Prop :=
  s.mode = .normal ∧ s.pending.isEmpty = true ∧ s.operator = none

theorem State.AtRest.mode_ne_visualLine {S : Type} {s : State S} (h : s.AtRest) :
    s.mode ≠ .visualLine := by
  rw [h.1]
  decide

namespace Session

variable {s : Session}

/-- A count leaves its digits pending and calls nothing. -/
theorem gives_digits {ps : List Press} {w : List Char} (hs : s.state.AtRest)
    (hu : s.surface.unavailable = []) (ht : List.Forall₂ Press.Types ps w) (hw : IsCount w) :
    s.Gives ps []
      { s.state with pending := ⟨kept s.config.keys.countLimit w, none, none⟩ } := by
  have hp := Pending.eq_empty_of_isEmpty _ hs.2.1
  have hg := (Gives.nil s).count hu hs.1 ht (v := []) (w := w) hw
    (by rw [hp]; exact List.take_nil.symm)
  rw [hp] at hg
  exact hg

/-- A leader is pending with the digits typed on both its sides. -/
theorem gives_leader {ps₁ ps₂ : List Press} {w₁ w₂ : List Char} (hs : s.state.AtRest)
    (hu : s.surface.unavailable = []) (ht₁ : List.Forall₂ Press.Types ps₁ w₁)
    (ht₂ : List.Forall₂ Press.Types ps₂ w₂) (hw : IsCount (w₁ ++ w₂)) (q : Press) (c : Char)
    (l : Leader) (hq : q.Types c) (hc : NormalEntry.ofChar? c = some (.leader l))
    (hd : c.isDigit = false) :
    s.Gives (ps₁ ++ [q] ++ ps₂) []
      { s.state with
        pending := ⟨kept s.config.keys.countLimit (w₁ ++ w₂), some l, none⟩ } := by
  obtain ⟨host, hg⟩ := (gives_digits hs hu ht₁ hw.left).char hu hs.1 q c hq
  have ha := Pending.accepts_eq_false_of_not_isDigit
    ⟨kept s.config.keys.countLimit w₁, none, none⟩ c hd
  rw [Edit.calls_normalChar_leader _ _ c l ha rfl hc,
    Edit.state_normalChar_leader _ _ c l ha rfl hc] at hg
  exact hg.count hu hs.1 ht₂ hw rfl

end Session

end ModalInput
