import ModalInput.Proofs.Events
import ModalInput.Proofs.OneShot

/-!
# Visual modes

Over a selection a press extends it, waits for a text object, or leaves.  What extends is typed with
shift; what leaves makes the calls of its operator, or steps off the selection, and only Visual Line
mode steps back, and not where the selection was cut.  None of this depends on the rest of the
state.

    s.mode.isSelecting → s.Over p t cs, for what the press p comes to    (Outcome.over)
-/

namespace ModalInput

variable {S : Type}

/-! ## Definitions -/

/-- A chord that is typed with shift held. -/
def Call.Shifted : Call S → Prop
  | .type c => c.held.shift = true
  | .perform _ | .restore _ => False

/-- The ways in which a press over a selection leaves for Normal or Insert mode, each with its
calls.  Only a selection by lines is stepped back from. -/
inductive State.Leaves (s : State S) (p : Press) : Mode → List (Call S) → Prop
  | delete (hp : p.Types 'd') : Leaves s p .normal [.perform .cut, .type (.plain .backspace)]
  | change (hp : p.Types 'c') : Leaves s p .insert [.perform .cut]
  | yank (hp : p.Types 'y') :
      Leaves s p .normal
        (.perform .copy :: if s.mode = .visualLine then [.type (.plain .left)] else [])
  | put (hp : p.Types 'p') :
      Leaves s p .normal
        (.perform .paste :: if s.mode = .visualLine then [.type (.plain .left)] else [])
  | escape (hp : s.Cancels p) :
      Leaves s p .normal
        (.type (.plain .right) :: if s.mode = .visualLine then [.type (.plain .left)] else [])

/-- What a press over a selection comes to. -/
inductive State.Over (s : State S) (p : Press) : State S → List (Call S) → Prop
  | stay {cs : List (Call S)} (h : ∀ c ∈ cs, c.Shifted) : Over s p s cs
  | await (hp : p.Types 'i' ∨ p.Types 'a') : Over s p { s with mode := .visualObject } []
  | leave {t : State S} {cs : List (Call S)} (h : s.Leaves p t.mode cs) : Over s p t cs

/-! ## Tables -/

theorem VisualEntry.ofChar?_eq_operate_iff (c : Char) (op : Operator) :
    VisualEntry.ofChar? c = some (.operate op) ↔ c = op.letter := by
  constructor
  · intro h
    unfold VisualEntry.ofChar? at h
    split at h
    case h_11 =>
      cases h
      rfl
    case h_14 =>
      obtain ⟨a, ha, hop⟩ := Option.map_eq_some_iff.1 h
      cases hop
      exact Operator.eq_letter ha
    all_goals cases h
  · rintro rfl
    cases op <;> rfl

theorem VisualEntry.ofChar?_eq_object_iff (c : Char) :
    VisualEntry.ofChar? c = some .object ↔ c = 'i' ∨ c = 'a' := by
  constructor
  · intro h
    unfold VisualEntry.ofChar? at h
    split at h
    case h_12 => exact Or.inl rfl
    case h_13 => exact Or.inr rfl
    case h_14 =>
      obtain ⟨a, -, hop⟩ := Option.map_eq_some_iff.1 h
      cases hop
    all_goals cases h
  · rintro (rfl | rfl) <;> rfl

theorem shifted_extending (m : Motion) : ∀ c ∈ (typed m.extending : List (Call S)), c.Shifted := by
  intro c hc
  obtain ⟨chord, hchord, rfl⟩ := List.mem_map.1 hc
  rw [m.extending_eq] at hchord
  obtain ⟨plain, -, rfl⟩ := List.mem_map.1 hchord
  exact Bool.or_true _

/-! ## One press -/

section
variable {cx : Context S} {s t : State S} {p : Press} {m : Mode} {cs : List (Call S)}

namespace State

theorem leaves_operate (s : State S) (op : Operator) (hp : p.Types op.letter) :
    s.Leaves p op.target (op.calls ++ op.leaving s.mode) := by
  cases op with
  | delete => exact .delete hp
  | change => exact .change hp
  | yank => exact .yank hp
  | put => exact .put hp

/-- A press leaves by an operator or by Escape. -/
theorem Leaves.cases (h : s.Leaves p m cs) :
    (∃ op : Operator, p.Types op.letter ∧ m = op.target ∧ cs = op.calls ++ op.leaving s.mode) ∨
      s.Cancels p ∧ m = .normal ∧ cs = typed [.plain .right] ++ s.mode.stepBack := by
  cases h with
  | delete hp => exact Or.inl ⟨.delete, hp, rfl, rfl⟩
  | change hp => exact Or.inl ⟨.change, hp, rfl, rfl⟩
  | yank hp => exact Or.inl ⟨.yank, hp, rfl, rfl⟩
  | put hp => exact Or.inl ⟨.put, hp, rfl, rfl⟩
  | escape hp => exact Or.inr ⟨hp, rfl, rfl⟩

theorem Leaves.mode_eq (h : s.Leaves p m cs) : m = .normal ∨ m = .insert := by
  cases h with
  | change => exact Or.inr rfl
  | _ => exact Or.inl rfl

end State

theorem Outcome.over (h : Outcome cx s p t cs) (hv : s.mode.isSelecting = true) :
    s.Over p t cs := by
  cases h with
  | pass => exact .stay nofun
  | escape hm hp hk =>
    rw [if_pos hv]
    exact .leave (.escape ⟨hk, hp, hm⟩)
  | extend m => exact .stay (shifted_extending m)
  | operate op c hm hp hc =>
    rw [VisualEntry.ofChar?_eq_operate_iff] at hc
    rw [hc] at hp
    exact .leave (s.leaves_operate op hp)
  | await c hm hp hc =>
    rw [VisualEntry.ofChar?_eq_object_iff] at hc
    rcases hc with rfl | rfl
    · exact .await (Or.inl hp)
    · exact .await (Or.inr hp)
  | ignore => exact .stay nofun
  | oneShot hm | closeFind hm | clear hm | normal _ hm | object _ _ _ hm | noObject hm
  | select _ _ hm | noSelect hm =>
    rw [hm] at hv
    cases hv

/-- Each of the presses that leave does so, whatever else the state holds. -/
theorem State.Leaves.press (h : s.Leaves p m cs) (cx : Context S)
    (hv : s.mode.isSelecting = true) :
    ((Edit.press p).state cx s).mode = m ∧ (Edit.press p).calls cx s = cs := by
  rcases h.cases with ⟨op, hp, rfl, rfl⟩ | ⟨hp, rfl, rfl⟩
  · have hsearch : s.mode ≠ .search := Mode.ne_of_isSelecting hv rfl
    have hinsert : s.mode ≠ .insert := Mode.ne_of_isSelecting hv rfl
    have hpress : Edit.press p cx s = Edit.visualKey (.char op.letter) cx s := by
      rw [Edit.press_apply_types cx s p _ hsearch hinsert hp, Edit.modeKey_of_isSelecting hv]
    have hentry : VisualEntry.ofChar? op.letter = some (.operate op) :=
      (VisualEntry.ofChar?_eq_operate_iff _ op).2 rfl
    rw [Edit.state_congr cx s hpress, Edit.calls_congr cx s hpress, Edit.state_visualKey,
      Edit.calls_visualKey]
    simp only [Key.char?, Option.bind_some, hentry, and_self]
  · have hpress := Edit.press_apply_escape cx hp
    rw [Edit.state_congr cx s hpress, Edit.calls_congr cx s hpress, Edit.state_escape,
      Edit.calls_escape, if_pos hv]
    exact ⟨rfl, rfl⟩

end

/-! ## What reaches a surface -/

/-- Keystrokes are never turned down. -/
theorem filter_performs_of_shifted {cs : List (Call S)} (h : ∀ c ∈ cs, c.Shifted)
    (u : List Action) : (cs.filter fun c => !c.performs u) = cs := by
  refine List.filter_eq_self.2 fun c hc => ?_
  cases c with
  | type | restore => rfl
  | perform a => exact (h _ hc).elim

theorem filter_performs_typed (chords : List Chord) (u : List Action) :
    ((typed chords : List (Call S)).filter fun c => !c.performs u) = typed chords := by
  refine List.filter_eq_self.2 fun c hc => ?_
  obtain ⟨chord, -, rfl⟩ := List.mem_map.1 hc
  rfl

namespace Session

variable {s : Session}

theorem over_step (hv : s.state.mode.isSelecting = true) (p : Press) :
    s.state.Over p (s.step (.press p)).state ((Edit.press p).calls s.context s.state) :=
  (outcome_of_selecting s.context hv p).over hv

theorem stay_step (hv : s.state.mode.isSelecting = true) {p : Press}
    (ht : (s.step (.press p)).state.mode.isSelecting = true) :
    (s.step (.press p)).state = s.state ∧
      ∃ cs, (s.step (.press p)).surface.calls = s.surface.calls ++ cs ∧ ∀ c ∈ cs, c.Shifted := by
  have hover := over_step hv p
  have hcalls := s.calls_step p
  generalize (s.step (.press p)).state = t at hover ht ⊢
  generalize (Edit.press p).calls s.context s.state = cs at hover hcalls
  cases hover with
  | stay h =>
    rw [filter_performs_of_shifted h] at hcalls
    exact ⟨rfl, cs, hcalls, h⟩
  | await => cases ht
  | leave h => rcases h.mode_eq with hm | hm <;> rw [hm] at ht <;> cases ht

/-- Over a selection, the events leave the state as it is and type with shift, as long as the mode
stays. -/
theorem stay_stepAll {is : List Input} (hi : ∀ i ∈ is, i.IsEvent)
    (hv : ∀ js, js <+: is → (s.stepAll js).state.mode.isSelecting = true) :
    (s.stepAll is).state = s.state ∧
      ∃ cs, (s.stepAll is).surface.calls = s.surface.calls ++ cs ∧ ∀ c ∈ cs, c.Shifted := by
  induction is generalizing s with
  | nil => exact ⟨rfl, [], (List.append_nil _).symm, nofun⟩
  | cons i is ih =>
    have hstep : (s.step i).state = s.state ∧
        ∃ cs, (s.step i).surface.calls = s.surface.calls ++ cs ∧ ∀ c ∈ cs, c.Shifted := by
      cases i with
      | press p => exact stay_step (hv [] List.nil_prefix) (hv [.press p] (List.prefix_append _ is))
      | select => exact ⟨rfl, [], (List.append_nil _).symm, nofun⟩
      | _ => exact (hi _ List.mem_cons_self).elim
    obtain ⟨hstate, cs, hcalls, hcs⟩ := hstep
    obtain ⟨hstate', ds, hcalls', hds⟩ := ih (s := s.step i)
      (fun j hj => hi j (List.mem_cons_of_mem i hj))
      (fun js hj => hv (i :: js) (List.cons_prefix_cons.2 ⟨rfl, hj⟩))
    refine ⟨hstate'.trans hstate, cs ++ ds, ?_, fun c hc => ?_⟩
    · show ((s.step i).stepAll is).surface.calls = _
      rw [hcalls', hcalls, List.append_assoc]
    · exact (List.mem_append.1 hc).elim (hcs c) (hds c)

/-! ## The text object of a selection -/

/-- Whatever the key, the selection goes on by lines; a text object is selected first. -/
theorem object_step (hm : s.state.mode = .visualObject) {p : Press}
    (hd : s.disposition p = .suppress) (he : p.key ≠ .escape) :
    (s.step (.press p)).state = { s.state with mode := .visualLine } ∧
      ∃ chords, (s.step (.press p)).surface.calls = s.surface.calls ++ typed chords ∧
        (p.Types 'w' ∧ chords = [.control .left, .control .left, .controlShift .right] ∨
          p.Types 'p' ∧ chords = [.control .up, .controlShift .down, .shift .right] ∨
          ¬ p.Types 'w' ∧ ¬ p.Types 'p' ∧ chords = []) := by
  have hout := outcome_of_visualObject s.context hm p
  have hcalls := s.calls_step p
  have hstate : (s.step (.press p)).state = (Edit.press p).state s.context s.state := rfl
  rw [hstate]
  generalize (Edit.press p).state s.context s.state = t at hout ⊢
  generalize (Edit.press p).calls s.context s.state = cs at hout hcalls
  cases hout with
  | pass hp => cases hp.symm.trans hd
  | escape _ _ hk => exact absurd hk he
  | select c o _ hp hc =>
    rw [filter_performs_typed] at hcalls
    refine ⟨rfl, o.selectAll, hcalls, ?_⟩
    unfold TextObject.ofChar? at hc
    split at hc <;> cases hc
    · exact Or.inl ⟨hp, rfl⟩
    · exact Or.inr (Or.inl ⟨hp, rfl⟩)
  | noSelect _ hp hk =>
    have hnot : ∀ c, p.Types c → TextObject.ofChar? c = none := by
      intro c hc
      rw [hc.1] at hk
      exact hk
    have hw : ¬ p.Types 'w' := fun h => by cases hnot 'w' h
    have hp : ¬ p.Types 'p' := fun h => by cases hnot 'p' h
    exact ⟨rfl, [], hcalls, Or.inr (Or.inr ⟨hw, hp, rfl⟩)⟩
  | oneShot hn | closeFind hn | clear hn | normal _ hn | object _ _ _ hn | noObject hn =>
    cases hm.symm.trans hn
  | extend _ _ hn | operate _ _ hn | await _ hn | ignore hn =>
    rw [hm] at hn
    cases hn

/-- **Visual modes.**  In every state over a selection, a press that stays changes nothing and types
with shift, and so does a run of events that stays; a press that waits for a text object calls
nothing; one that leaves makes the calls of its table, as far as the surface has the actions.
Behind `i` or `a` every key leads to a selection by lines, without the calls that open one. -/
theorem visual_calls (s : Session) :
    (s.state.mode.isSelecting = true → ∀ p,
      let t := s.step (.press p)
      (t.state.mode.isSelecting = true →
        t.state = s.state ∧
          ∃ cs, t.surface.calls = s.surface.calls ++ cs ∧ ∀ c ∈ cs, c.Shifted) ∧
      (t.state.mode = .visualObject → t.surface.calls = s.surface.calls) ∧
      (∀ m cs, s.state.Leaves p m cs → t.state.mode = m ∧
        (s.surface.unavailable = [] → t.surface.calls = s.surface.calls ++ cs)) ∧
      (t.state.mode.isSelecting = true ∨ t.state.mode = .visualObject ∨
        ∃ cs, s.state.Leaves p t.state.mode cs)) ∧
    (∀ is, (∀ i ∈ is, i.IsEvent) →
      (∀ js, js <+: is → (s.stepAll js).state.mode.isSelecting = true) →
      (s.stepAll is).state = s.state ∧
        ∃ cs, (s.stepAll is).surface.calls = s.surface.calls ++ cs ∧ ∀ c ∈ cs, c.Shifted) ∧
    (s.state.mode = .visualObject → ∀ p, s.disposition p = .suppress → p.key ≠ .escape →
      (s.step (.press p)).state = { s.state with mode := .visualLine } ∧
        ∃ chords, (s.step (.press p)).surface.calls = s.surface.calls ++ typed chords ∧
          (p.Types 'w' ∧ chords = [.control .left, .control .left, .controlShift .right] ∨
            p.Types 'p' ∧ chords = [.control .up, .controlShift .down, .shift .right] ∨
            ¬ p.Types 'w' ∧ ¬ p.Types 'p' ∧ chords = []) ∧
          .plain .home ∉ chords ∧ .shift .down ∉ chords) := by
  refine ⟨fun hv p => ?_, fun is => stay_stepAll, fun hm p hd he => ?_⟩
  · have hover := over_step hv p
    refine ⟨stay_step hv, fun ht => ?_, fun m cs hl => ?_, ?_⟩
    · have hcalls := s.calls_step p
      generalize (s.step (.press p)).state = t at hover ht
      generalize (Edit.press p).calls s.context s.state = cs at hover hcalls
      cases hover with
      | stay =>
        rw [ht] at hv
        cases hv
      | await => exact hcalls.trans (List.append_nil _)
      | leave h => rcases h.mode_eq with hm | hm <;> cases hm.symm.trans ht
    · obtain ⟨hmode, hcalls⟩ := hl.press s.context hv
      refine ⟨hmode, fun hu => ?_⟩
      rw [s.calls_press p hu, hcalls]
    · generalize (s.step (.press p)).state = t at hover ⊢
      generalize (Edit.press p).calls s.context s.state = cs at hover
      cases hover with
      | stay => exact Or.inl hv
      | await => exact Or.inr (Or.inl rfl)
      | leave h => exact Or.inr (Or.inr ⟨_, h⟩)
  · obtain ⟨hstate, chords, hcalls, htable⟩ := object_step hm hd he
    refine ⟨hstate, chords, hcalls, htable, ?_⟩
    rcases htable with ⟨-, rfl⟩ | ⟨-, rfl⟩ | ⟨-, -, rfl⟩ <;> decide

/-- By lines, `j` extends the selection and `y` steps back from it; behind `i`, `w` opens none. -/
theorem visual_calls_yank :
    let s : Session := ⟨.default, { State.initial with mode := .visualLine }, .new⟩
    let o : Session := ⟨.default, { State.initial with mode := .visualObject }, .new⟩
    (s.stepAll [.press (.ofChar 'j'), .select none]).state = s.state ∧
      (s.step (.press (.ofChar 'y'))).state.mode = .normal ∧
      (s.step (.press (.ofChar 'y'))).surface.calls = [.perform .copy, .type (.plain .left)] ∧
      (o.step (.press (.ofChar 'w'))).state.mode = .visualLine ∧
      ∃ chords, (o.step (.press (.ofChar 'w'))).surface.calls = typed chords ∧
        .plain .home ∉ chords := by
  intro s o
  have hlaw := visual_calls s
  have hstays : ∀ js, js <+: [.press (.ofChar 'j'), .select none] →
      (s.stepAll js).state.mode.isSelecting = true := by
    intro js hj
    rcases List.prefix_cons_iff.1 hj with rfl | ⟨ks, rfl, hk⟩
    · rfl
    rcases List.prefix_cons_iff.1 hk with rfl | ⟨ls, rfl, hl⟩
    · decide
    · rw [List.prefix_nil.1 hl]
      decide
  have hrun := hlaw.2.1 [.press (.ofChar 'j'), .select none] (by simp [Input.IsEvent]) hstays
  have hyank := ((hlaw.1 rfl (.ofChar 'y')).2.2.1 .normal _ (.yank (types_ofChar 'y')))
  have hobject := (visual_calls o).2.2 rfl (.ofChar 'w') (by decide) (by decide)
  obtain ⟨hstate, chords, hcalls, -, hhome, -⟩ := hobject
  exact ⟨hrun.1, hyank.1, hyank.2 rfl, congrArg State.mode hstate, chords, hcalls, hhome⟩

end Session

end ModalInput
