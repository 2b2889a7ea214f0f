import ModalInput.Proofs.CountedLeader

/-!
# The history of marks

A mark holds the selection of the last event that set it: of the presses that complete the leader
of a mark with a letter, while the surface has a selection.  Only the leaders that jump restore a
selection, and they restore a mark.

    (s.stepAll is).state.marks.get? label = some x ↔ s.LastSet is label x           (marks_history)
-/

namespace ModalInput

/-! ## Calls that leave the selection -/

section
variable {S : Type}

/-- The calls put back no selection. -/
def RestoresNone (cs : List (Call S)) : Prop := ∀ x, .restore x ∉ cs

theorem restoresNone_nil : RestoresNone ([] : List (Call S)) := fun _ => List.not_mem_nil

theorem restoresNone_typed (chords : List Chord) : RestoresNone (typed chords : List (Call S)) := by
  intro x h
  obtain ⟨c, -, hc⟩ := List.mem_map.1 h
  cases hc

theorem RestoresNone.append {cs ds : List (Call S)} (h : RestoresNone cs) (k : RestoresNone ds) :
    RestoresNone (cs ++ ds) := by
  intro x hx
  rcases List.mem_append.1 hx with hx | hx
  · exact h x hx
  · exact k x hx

theorem RestoresNone.times {cs : List (Call S)} (h : RestoresNone cs) (n : Nat) :
    RestoresNone (times n cs) := by
  intro x hx
  obtain ⟨block, hblock, hx⟩ := List.mem_flatten.1 hx
  rw [List.eq_of_mem_replicate hblock] at hx
  exact h x hx

theorem restoresNone_block (cmd : Command) : RestoresNone (cmd.block : List (Call S)) := by
  cases cmd with
  | action a => exact fun x h => by cases List.mem_singleton.1 h
  | cutLineEnd => exact (restoresNone_typed _).append fun x h => by cases List.mem_singleton.1 h
  | select => exact restoresNone_nil
  | lineEdge w | openLine w | deleteChar w | findAgain w => cases w <;> exact restoresNone_typed _
  | _ => exact restoresNone_typed _

theorem restoresNone_command (cmd : Command) (count : Nat) (counted : Bool) :
    RestoresNone (cmd.calls count counted ++ cmd.opening : List (Call S)) := by
  refine RestoresNone.append ?_ ?_
  · unfold Command.calls
    split
    · exact restoresNone_typed _
    · exact (restoresNone_block cmd).times _
  · unfold Command.opening
    split
    · exact restoresNone_typed _
    · exact restoresNone_typed _
    · exact restoresNone_nil

theorem restoresNone_operator (op : Operator) : RestoresNone (op.calls : List (Call S)) := by
  have hperform : ∀ a, RestoresNone ([.perform a] : List (Call S)) := by
    intro a x h
    cases List.mem_singleton.1 h
  cases op with
  | delete => exact (hperform .cut).append (restoresNone_typed [.plain .backspace])
  | _ => exact hperform _

theorem restoresNone_stepBack (m : Mode) : RestoresNone (m.stepBack : List (Call S)) := by
  unfold Mode.stepBack
  split
  · exact restoresNone_typed _
  · exact restoresNone_nil

theorem restoresNone_leaving (op : Operator) (m : Mode) :
    RestoresNone (op.leaving m : List (Call S)) := by
  cases op with
  | delete | change => exact restoresNone_nil
  | yank | put => exact restoresNone_stepBack m

theorem restoresNone_operatorFor (op : Operator) (lines : Nat) (c : Char) :
    RestoresNone (op.callsFor lines c : List (Call S)) := by
  unfold Operator.callsFor
  split_ifs
  · exact restoresNone_nil
  · exact (restoresNone_typed _).append (restoresNone_operator op)
  · split
    · exact (restoresNone_typed _).append (restoresNone_operator op)
    · exact restoresNone_nil

theorem restoresNone_leaderFor {l : Leader} (hl : ∀ linewise, l ≠ .jump linewise)
    (marks : Marks S) (count : Nat) (c : Char) : RestoresNone (l.callsFor marks count c) := by
  cases l with
  | mark => exact restoresNone_nil
  | jump linewise => exact absurd rfl (hl linewise)
  | go =>
    unfold Leader.callsFor
    dsimp only
    split
    · exact restoresNone_typed _
    · exact restoresNone_nil
  | operator op => exact restoresNone_operatorFor op count c

end

/-! ## One press -/

section
variable {S : Type} {cx : Context S} {s t : State S} {cs : List (Call S)}

theorem NormalOutcome.marks_eq {c : Char} (h : NormalOutcome cx s c t cs)
    (hm : s.pending.accepts c = false → s.pending.leader ≠ some .mark) : t.marks = s.marks := by
  cases h with
  | digit | unknown | leader | await => rfl
  | command | operate | abandon => exact State.marks_resume _
  | argument l ha hl =>
    have hne : l ≠ .mark := fun e => hm ha (by rw [hl, e])
    rw [State.marks_resume]
    exact if_neg hne

/-- Only the argument of the leader of a mark changes the marks. -/
theorem Outcome.marks_eq {p : Press} (h : Outcome cx s p t cs)
    (hm : ∀ c, ¬ s.Supplies .mark p c) : t.marks = s.marks := by
  cases h with
  | normal c hmode hp hn =>
    exact hn.marks_eq fun ha hl => hm c ⟨hmode, hl, hp, ha⟩
  | object | noObject => exact State.marks_ended _ _
  | _ => rfl

theorem NormalOutcome.restoresNone {c : Char} (h : NormalOutcome cx s c t cs)
    (hj : s.pending.accepts c = false → ∀ linewise, s.pending.leader ≠ some (.jump linewise)) :
    RestoresNone cs := by
  cases h with
  | digit | unknown | leader | await | abandon => exact restoresNone_nil
  | command cmd => exact restoresNone_command cmd _ _
  | operate op => exact restoresNone_operatorFor op _ c
  | argument l ha hl =>
    exact restoresNone_leaderFor (fun linewise e => hj ha linewise (by rw [hl, e])) _ _ c

/-- Only the argument of a leader that jumps puts back a selection. -/
theorem Outcome.restoresNone {p : Press} (h : Outcome cx s p t cs)
    (hj : ∀ linewise c, ¬ s.Supplies (.jump linewise) p c) : RestoresNone cs := by
  cases h with
  | normal c hmode hp hn =>
    exact hn.restoresNone fun ha linewise hl => hj linewise c ⟨hmode, hl, hp, ha⟩
  | escape =>
    refine RestoresNone.append ?_ (restoresNone_stepBack _)
    split
    · exact restoresNone_typed _
    · exact restoresNone_nil
  | object op =>
    exact ((restoresNone_typed _).append (restoresNone_typed _)).append (restoresNone_operator op)
  | operate op => exact (restoresNone_operator op).append (restoresNone_leaving op _)
  | extend | select => exact restoresNone_typed _
  | _ => exact restoresNone_nil

end

/-! ## Events that set a mark -/

namespace Session

/-- The event sets the mark to the selection `x`. -/
def SetsMark (s : Session) (i : Input) (label : Char) (x : Span) : Prop :=
  ∃ p c, i = .press p ∧ s.state.Supplies .mark p c ∧ c.isAlpha = true ∧
    c.toLower = label.toLower ∧ s.surface.selection = some x

/-- Of the events that set the mark, the last set it to the selection `x`. -/
def LastSet (s : Session) (is : List Input) (label : Char) (x : Span) : Prop :=
  ∃ us i vs, is = us ++ i :: vs ∧ (s.stepAll us).SetsMark i label x ∧
    ∀ ws j zs, vs = ws ++ j :: zs → ∀ y, ¬ (s.stepAll (us ++ i :: ws)).SetsMark j label y

section
variable {s : Session} {i : Input}

/-- An event sets no mark and leaves them all, or it sets one label. -/
theorem marks_step (hs : s.state.Sound s.config.keys) (hi : i.IsEvent) :
    ((∀ label x, ¬ s.SetsMark i label x) ∧ (s.step i).state.marks = s.state.marks) ∨
      ∃ c x, c.isAlpha = true ∧ (s.step i).state.marks = s.state.marks.set c x ∧
        ∀ label y, s.SetsMark i label y ↔ c.toLower = label.toLower ∧ y = x := by
  by_cases h : ∃ p c x, i = .press p ∧ s.state.Supplies .mark p c ∧ c.isAlpha = true ∧
      s.surface.selection = some x
  · right
    obtain ⟨p, c, x, rfl, hp, hc, hx⟩ := h
    refine ⟨c, x, hc, ?_, fun label y => ?_⟩
    · show ((Edit.press p).state s.context s.state).marks = _
      rw [hp.state_press nofun, State.marks_resume]
      show s.state.marks.note c s.surface.selection = _
      rw [hx]
      rfl
    · constructor
      · rintro ⟨q, d, hq, hd, -, hlabel, hy⟩
        cases hq
        rw [← hp.char_eq hd]
        exact ⟨hlabel, Option.some.inj (hy.symm.trans hx)⟩
      · rintro ⟨hlabel, rfl⟩
        exact ⟨p, c, rfl, hp, hc, hlabel, hx⟩
  · left
    refine ⟨fun label x => ?_, ?_⟩
    · rintro ⟨p, c, hp, hsup, hc, -, hx⟩
      exact h ⟨p, c, x, hp, hsup, hc, hx⟩
    · cases i with
      | select => rfl
      | press p =>
        show ((Edit.press p).state s.context s.state).marks = _
        -- An argument sets nothing without a selection, and nothing if it is no letter.
        by_cases hsup : ∃ c, s.state.Supplies .mark p c
        · obtain ⟨c, hsup⟩ := hsup
          rw [hsup.state_press nofun, State.marks_resume]
          show s.state.marks.note c s.surface.selection = _
          cases hx : s.surface.selection with
          | none => rfl
          | some x =>
            refine Marks.set_of_not_isAlpha _ (Bool.eq_false_iff.2 fun hc => ?_) x
            exact h ⟨p, c, x, rfl, hsup, hc, hx⟩
        · exact (hs.outcome s.context p).marks_eq fun c hc => hsup ⟨c, hc⟩
      | _ => exact hi.elim

theorem get?_step (hs : s.state.Sound s.config.keys) (hi : i.IsEvent) (label : Char) (x : Span) :
    (s.step i).state.marks.get? label = some x ↔
      s.SetsMark i label x ∨
        (∀ y, ¬ s.SetsMark i label y) ∧ s.state.marks.get? label = some x := by
  rcases marks_step hs hi with ⟨hnone, hmarks⟩ | ⟨c, y, hc, hmarks, hsets⟩
  · rw [hmarks]
    simp only [hnone, not_false_eq_true, implies_true, true_and, false_or]
  · rw [hmarks, Marks.get?_set_of_isAlpha _ hc]
    by_cases he : c.toLower = label.toLower
    · rw [if_pos he, Option.some_inj]
      constructor
      · intro hxy
        exact Or.inl ((hsets label x).2 ⟨he, hxy.symm⟩)
      · rintro (hset | ⟨hnone, -⟩)
        · exact ((hsets label x).1 hset).2.symm
        · exact absurd ((hsets label y).2 ⟨he, rfl⟩) (hnone y)
    · have hnone : ∀ z, ¬ s.SetsMark i label z := fun z hz => he ((hsets label z).1 hz).1
      rw [if_neg he]
      simp only [hnone, not_false_eq_true, implies_true, true_and, false_or]

end

/-! ## Histories -/

/-- In a list with a last element, any element is the last one or stands in front of it. -/
theorem split_concat {α : Type} {is us vs : List α} {i j : α} (h : is ++ [j] = us ++ i :: vs) :
    (is = us ∧ j = i ∧ vs = []) ∨ ∃ ws, is = us ++ i :: ws ∧ vs = ws ++ [j] := by
  rcases List.eq_nil_or_concat' vs with rfl | ⟨ws, k, rfl⟩
  · obtain ⟨his, hj⟩ := List.append_inj' h rfl
    exact Or.inl ⟨his, List.head_eq_of_cons_eq hj, rfl⟩
  · rw [← List.cons_append, ← List.append_assoc] at h
    obtain ⟨his, hj⟩ := List.append_inj' h rfl
    exact Or.inr ⟨ws, his, by rw [hj]⟩

variable (s : Session) (is : List Input)

theorem lastSet_concat (j : Input) (label : Char) (x : Span) :
    s.LastSet (is ++ [j]) label x ↔
      (s.stepAll is).SetsMark j label x ∨
        (∀ y, ¬ (s.stepAll is).SetsMark j label y) ∧ s.LastSet is label x := by
  constructor
  · rintro ⟨us, i, vs, he, hset, hlast⟩
    rcases split_concat he with ⟨rfl, rfl, -⟩ | ⟨ws, rfl, rfl⟩
    · exact Or.inl hset
    · refine Or.inr ⟨hlast ws j [] rfl, us, i, ws, rfl, hset, fun ts k zs hws => ?_⟩
      refine hlast ts k (zs ++ [j]) ?_
      rw [hws, List.append_assoc, List.cons_append]
  · rintro (hset | ⟨hnone, us, i, vs, rfl, hset, hlast⟩)
    · exact ⟨is, j, [], rfl, hset, fun ws k zs h => absurd h (by simp)⟩
    · refine ⟨us, i, vs ++ [j], by simp, hset, fun ws k zs he => ?_⟩
      rcases split_concat he with ⟨rfl, rfl, -⟩ | ⟨ts, rfl, -⟩
      · exact hnone
      · exact hlast ws k ts rfl

theorem not_lastSet_nil (label : Char) (x : Span) : ¬ s.LastSet [] label x := by
  rintro ⟨us, i, vs, h, -⟩
  exact absurd h (by simp)

/-- Where some event set the mark, there is a last one. -/
theorem exists_lastSet_iff (label : Char) :
    (∃ x, s.LastSet is label x) ↔
      ∃ us i vs x, is = us ++ i :: vs ∧ (s.stepAll us).SetsMark i label x := by
  constructor
  · rintro ⟨x, us, i, vs, he, hset, -⟩
    exact ⟨us, i, vs, x, he, hset⟩
  · induction is using List.reverseRecOn with
    | nil =>
      rintro ⟨us, i, vs, x, h, -⟩
      exact absurd h (by simp)
    | append_singleton is j ih =>
      rintro ⟨us, i, vs, x, he, hset⟩
      by_cases hj : ∃ y, (s.stepAll is).SetsMark j label y
      · obtain ⟨y, hj⟩ := hj
        exact ⟨y, (s.lastSet_concat is j label y).2 (Or.inl hj)⟩
      · rcases split_concat he with ⟨rfl, rfl, -⟩ | ⟨ws, rfl, -⟩
        · exact absurd ⟨x, hset⟩ hj
        · obtain ⟨y, hy⟩ := ih ⟨us, i, ws, x, rfl, hset⟩
          exact ⟨y, (s.lastSet_concat _ j label y).2 (Or.inr ⟨not_exists.1 hj, hy⟩)⟩

variable {s is}

theorem get?_stepAll (hs : s.state.Sound s.config.keys) (he : s.state.marks = .empty)
    (hi : ∀ i ∈ is, i.IsEvent) (label : Char) (x : Span) :
    (s.stepAll is).state.marks.get? label = some x ↔ s.LastSet is label x := by
  induction is using List.reverseRecOn generalizing x with
  | nil =>
    show s.state.marks.get? label = some x ↔ _
    rw [he, Marks.get?_empty]
    exact iff_of_false nofun (s.not_lastSet_nil label x)
  | append_singleton is j ih =>
    have his : ∀ i ∈ is, i.IsEvent := fun i h => hi i (List.mem_append_left _ h)
    have hj : j.IsEvent := hi j (List.mem_append_right _ (List.mem_singleton_self j))
    have hsound := sound_stepAll hs his
    rw [← config_stepAll s is] at hsound
    rw [stepAll_append, lastSet_concat, ← ih his]
    exact get?_step hsound hj label x

/-! ## Restored selections -/

section
variable {linewise : Bool} {p : Press} {c : Char}

theorem step_jump_of_some (h : s.state.Supplies (.jump linewise) p c) {x : Span}
    (hx : s.state.marks.get? c = some x) :
    (s.step (.press p)).surface.calls =
        s.surface.calls ++ .restore x :: (if linewise then [.type (.plain .home)] else []) ∧
      (s.step (.press p)).surface.selection = some x := by
  have hcalls : (Edit.press p).calls s.context s.state =
      .restore x :: if linewise then typed [.plain .home] else [] := by
    rw [h.calls_press]
    unfold Leader.callsFor
    simp only [hx]
  rw [calls_step, selection_step, hcalls]
  cases linewise <;> exact ⟨rfl, rfl⟩

theorem step_jump_of_none (h : s.state.Supplies (.jump linewise) p c)
    (hx : s.state.marks.get? c = none) :
    (s.step (.press p)).surface.calls = s.surface.calls ∧
      (s.step (.press p)).surface.selection = s.surface.selection := by
  have hcalls : (Edit.press p).calls s.context s.state = [] := by
    rw [h.calls_press]
    unfold Leader.callsFor
    simp only [hx]
  exact ⟨calls_step_of_nil hcalls, selection_step_of_nil hcalls⟩

end

theorem selectionAfter_of_restoresNone {cs : List (Call Span)} (h : RestoresNone cs)
    (x : Option Span) : cs.foldl (fun x c => Recording.selectionAfter x (.call c)) x = x := by
  induction cs with
  | nil => rfl
  | cons c cs ih =>
    have hone : Recording.selectionAfter x (.call c) = x := by
      cases c with
      | restore y => exact absurd List.mem_cons_self (h y)
      | _ => rfl
    rw [List.foldl_cons, hone]
    exact ih fun y hy => h y (List.mem_cons_of_mem c hy)

/-- Any other press puts back no selection, and leaves the surface with the one that it has. -/
theorem step_restoresNone (hs : s.state.Sound s.config.keys) (p : Press)
    (hj : ∀ linewise c, ¬ s.state.Supplies (.jump linewise) p c) :
    (∃ cs, (s.step (.press p)).surface.calls = s.surface.calls ++ cs ∧ RestoresNone cs) ∧
      (s.step (.press p)).surface.selection = s.surface.selection := by
  have hcalls := (hs.outcome s.context p).restoresNone hj
  refine ⟨⟨_, calls_step s p, fun x hx => hcalls x (List.mem_of_mem_filter hx)⟩, ?_⟩
  rw [selection_step]
  exact selectionAfter_of_restoresNone hcalls _

/-! ## Runs -/

/-- **The history of marks.**  In every run of events from the start, a mark holds the selection of
the last event that set it, and no other event changes a mark.  A leader that jumps restores the
mark that its argument names, and no other press restores a selection.  A count around a leader of
the marks makes no difference. -/
theorem marks_history (config : Config) (surface : Recording) {is : List Input}
    (hi : ∀ i ∈ is, i.IsEvent) :
    let start := new config surface
    let s := start.stepAll is
    (∀ label x, s.state.marks.get? label = some x ↔ start.LastSet is label x) ∧
    (∀ label, s.state.marks.get? label = none ↔
      ∀ us i vs, is = us ++ i :: vs → ∀ x, ¬ (start.stepAll us).SetsMark i label x) ∧
    (∀ label, label.isAlpha = false → s.state.marks.get? label = none) ∧
    (∀ i, i.IsEvent → (∀ label x, ¬ s.SetsMark i label x) →
      (s.step i).state.marks = s.state.marks) ∧
    (∀ linewise p c, s.state.Supplies (.jump linewise) p c →
      (∀ x, s.state.marks.get? c = some x →
        (s.step (.press p)).surface.calls =
            s.surface.calls ++ .restore x :: (if linewise then [.type (.plain .home)] else []) ∧
          (s.step (.press p)).surface.selection = some x) ∧
      (s.state.marks.get? c = none →
        (s.step (.press p)).surface.calls = s.surface.calls ∧
          (s.step (.press p)).surface.selection = s.surface.selection)) ∧
    (∀ p, (∀ linewise c, ¬ s.state.Supplies (.jump linewise) p c) →
      (∃ cs, (s.step (.press p)).surface.calls = s.surface.calls ++ cs ∧ RestoresNone cs) ∧
        (s.step (.press p)).surface.selection = s.surface.selection) ∧
    (∀ x, (s.step (.select x)).surface.calls = s.surface.calls) ∧
    ∀ (l : Leader) q r c us vs v w, s.state.mode = .normal → s.state.pending.isEmpty = true →
      l.IsMarking → q.Types l.letter → r.Types c → c.isDigit = false → Typing us v →
      Typing vs w → IsCount (v ++ w) →
      let a := s.stepAll (us ++ .press q :: vs ++ [.press r])
      let b := s.stepAll (withoutPresses us ++ .press q :: withoutPresses vs ++ [.press r])
      a.state = b.state ∧ a.surface.calls = b.surface.calls ∧
        a.surface.selection = b.surface.selection := by
  intro start s
  have hlast : ∀ label x, s.state.marks.get? label = some x ↔ start.LastSet is label x :=
    get?_stepAll (s := start) State.sound_initial rfl hi
  have hsound : s.state.Sound s.config.keys := by
    have h := sound_stepAll (s := start) State.sound_initial hi
    rw [← config_stepAll start is] at h
    exact h
  refine ⟨hlast, fun label => ?_, fun label h => Marks.get?_of_not_isAlpha _ h,
    fun i hevent h => ?_, fun linewise p c h => ⟨fun x => step_jump_of_some h, step_jump_of_none h⟩,
    fun p => step_restoresNone hsound p, fun x => rfl, ?_⟩
  · rw [Option.eq_none_iff_forall_ne_some]
    have hnever := not_congr (start.exists_lastSet_iff is label)
    simp only [not_exists, not_and] at hnever
    simp only [ne_eq, hlast]
    rw [hnever]
    exact ⟨fun h us i vs he x => h us i vs x he, fun h us i vs x he => h us i vs he x⟩
  · rcases marks_step hsound hevent with ⟨-, hmarks⟩ | ⟨c, x, -, -, hsets⟩
    · exact hmarks
    · exact absurd ((hsets c x).2 ⟨rfl, rfl⟩) (h c x)
  · intro l q r c us vs v w hm he hl hq hr hc hv hw hvw
    exact s.count_around_leader hm he hl hq hr hc hv hw hvw

/-- A mark is set and set again under its capital letter; without a selection it is not set a third
time, and the jump goes to the second. -/
theorem marks_history_overwritten :
    let is : List Input :=
      [.press (.ofChar 'm'), .press (.ofChar 'q'), .select (some ⟨3, 5⟩), .press (.ofChar 'm'),
        .press (.ofChar 'Q'), .select none, .press (.ofChar 'm'), .press (.ofChar 'q'),
        .press (.ofChar '\'')]
    let start := new .default .new
    let s := start.stepAll is
    (∀ i ∈ is, i.IsEvent) ∧ start.LastSet is 'q' ⟨3, 5⟩ ∧
      s.state.Supplies (.jump true) (.ofChar 'q') 'q' ∧
      (s.step (.press (.ofChar 'q'))).surface.calls =
        s.surface.calls ++ [.restore ⟨3, 5⟩, .type (.plain .home)] := by
  intro is
  have hi : ∀ i ∈ is, i.IsEvent := by
    intro i h
    simp only [is, List.mem_cons, List.not_mem_nil, or_false] at h
    rcases h with rfl | rfl | rfl | rfl | rfl | rfl | rfl | rfl | rfl <;> trivial
  dsimp only
  obtain ⟨hlast, -, -, -, hjump, -⟩ := marks_history .default .new hi
  have hsupplies : ((new .default .new).stepAll is).state.Supplies (.jump true) (.ofChar 'q') 'q' :=
    ⟨by decide, by decide, types_ofChar 'q', by decide⟩
  have hmark : ((new .default .new).stepAll is).state.marks.get? 'q' = some ⟨3, 5⟩ := by decide
  obtain ⟨hcalls, -⟩ := (hjump true _ 'q' hsupplies).1 _ hmark
  exact ⟨hi, (hlast 'q' _).1 hmark, hsupplies, hcalls⟩

end Session

end ModalInput
