import ModalInput.Proofs.Invariant

/-!
# Normal mode for one command

The flag that a command was opened from Insert mode: which presses raise it, which keep it and
which drop it, and where the machine is once it is dropped.  It is dropped by the first command
that ends, other than a search, and then the machine is back in Insert mode or in a visual one.

    s.oneShot → (((press p).state cx s).oneShot ↔ s.Awaits keys p)          (oneShot_temporary)
-/

namespace ModalInput

variable {S : Type}

/-- The keys of Normal mode after which a command is still to come. -/
def Pending.KeepsOpen (p : Pending) : Key → Prop
  | .char c =>
    p.accepts c = true ∨
      match p.leader with
      | none => Leader.ofChar? c ≠ none ∨ NormalEntry.ofChar? c = none ∨ c = '/'
      | some (.operator _) => c = 'i' ∨ c = 'a'
      | some _ => False
  | .escape => False
  | _ => True

/-- After the press, the command that Normal mode was opened for is still to come. -/
def State.Awaits (keys : KeySettings) (s : State S) (p : Press) : Prop :=
  disposition keys s.mode p = .pass ∨ s.mode = .search ∨
    s.mode = .normal ∧ s.pending.KeepsOpen p.key

/-- An Escape that is not for the host or the find box. -/
def State.Cancels (s : State S) (p : Press) : Prop :=
  p.key = .escape ∧ p.hasHostModifier = false ∧ s.mode ≠ .search

/-- The characters that end a command other than `/`, done or given up. -/
def Pending.EndsWith (p : Pending) (c : Char) : Prop :=
  p.accepts c = false ∧
    match p.leader with
    | none => Command.ofChar? c ≠ none ∧ c ≠ '/'
    | some (.operator _) => ¬ (c = 'i' ∨ c = 'a')
    | some _ => True

/-- The press ends such a command. -/
def State.Completes (keys : KeySettings) (s : State S) (p : Press) : Prop :=
  disposition keys s.mode p = .suppress ∧
    ((s.mode = .normal ∧ ∃ c, p.key = .char c ∧ s.pending.EndsWith c) ∨
      s.mode = .operatorObject ∧ p.key ≠ .escape)

/-- The flag is on before, throughout and after the presses. -/
def State.HoldsOpen (config : Config) (s : State S) (xs : List (Host S × Press)) : Prop :=
  ∀ ys, ys <+: xs → (s.run config ys).oneShot = true

/-- The flag is dropped, in Insert mode or in a visual one. -/
def State.Closed (s : State S) : Prop :=
  s.oneShot = false ∧ (s.mode = .insert ∨ s.mode = .visual ∨ s.mode = .visualLine)

/-! ## Tables -/

theorem Command.ofChar?_eq_find (c : Char) (h : Command.ofChar? c = some .find) : c = '/' := by
  unfold Command.ofChar? at h
  split at h
  case h_22 => rfl
  case h_25 =>
    obtain ⟨m, -, hm⟩ := Option.map_eq_some_iff.1 h
    cases hm
  all_goals cases h

theorem Command.target_eq (cmd : Command) (h : cmd ≠ .find) :
    cmd.target .normal = .normal ∨ cmd.target .normal = .insert ∨ cmd.target .normal = .visual ∨
      cmd.target .normal = .visualLine := by
  cases cmd with
  | find => exact absurd rfl h
  | cutLineEnd insert => cases insert <;> simp [target]
  | select linewise => cases linewise <;> simp [target]
  | _ => simp [target]

theorem Command.ofChar?_of_leader (c : Char) (l : Leader) (h : Leader.ofChar? c = some l) :
    Command.ofChar? c = none := by
  unfold Leader.ofChar? at h
  split at h
  case h_5 =>
    obtain ⟨op, ho, -⟩ := Option.map_eq_some_iff.1 h
    unfold Operator.ofChar? at ho
    split at ho
    case h_4 => cases ho
    all_goals rfl
  all_goals rfl

theorem NormalEntry.command_ofChar? (c : Char) (cmd : Command)
    (h : NormalEntry.ofChar? c = some (.command cmd)) : Command.ofChar? c = some cmd := by
  unfold NormalEntry.ofChar? at h
  split at h
  · next d hd =>
    cases h
    exact hd
  · obtain ⟨l, -, he⟩ := Option.map_eq_some_iff.1 h
    cases he

theorem Leader.ofChar?_of_command (c : Char) (cmd : Command) (h : Command.ofChar? c = some cmd) :
    Leader.ofChar? c = none := by
  cases hl : Leader.ofChar? c with
  | none => rfl
  | some l =>
    rw [Command.ofChar?_of_leader c l hl] at h
    cases h

/-! ## Keys that keep a command open -/

namespace Pending

theorem keepsOpen_of_char?_eq_none {p : Pending} {k : Key} (hk : k.char? = none)
    (he : k ≠ .escape) : p.KeepsOpen k := by
  cases k with
  | char c => cases hk
  | escape => exact absurd rfl he
  | _ => trivial

variable {p : Pending} {c : Char} (ha : p.accepts c = false)
include ha

theorem keepsOpen_iff_of_none (hl : p.leader = none) :
    p.KeepsOpen (.char c) ↔
      Leader.ofChar? c ≠ none ∨ NormalEntry.ofChar? c = none ∨ c = '/' := by
  unfold KeepsOpen
  simp only [ha, hl, Bool.false_eq_true, false_or]

theorem keepsOpen_iff_of_operator (op : Operator) (hl : p.leader = some (.operator op)) :
    p.KeepsOpen (.char c) ↔ c = 'i' ∨ c = 'a' := by
  unfold KeepsOpen
  simp only [ha, hl, Bool.false_eq_true, false_or]

theorem not_keepsOpen_of_leader (l : Leader) (hl : p.leader = some l)
    (hop : ∀ op, l ≠ .operator op) : ¬ p.KeepsOpen (.char c) := by
  unfold KeepsOpen
  simp only [ha, hl, Bool.false_eq_true, false_or]
  cases l with
  | operator op => exact absurd rfl (hop op)
  | _ => exact id

theorem not_keepsOpen_of_command (hl : p.leader = none) (cmd : Command)
    (hc : Command.ofChar? c = some cmd) (hf : c ≠ '/') : ¬ p.KeepsOpen (.char c) := by
  rw [keepsOpen_iff_of_none ha hl]
  rintro (h | h | h)
  · exact h (Leader.ofChar?_of_command c cmd hc)
  · unfold NormalEntry.ofChar? at h
    rw [hc] at h
    cases h
  · exact hf h

end Pending

theorem Pending.EndsWith.not_keepsOpen {p : Pending} {c : Char} (h : p.EndsWith c) :
    ¬ p.KeepsOpen (.char c) := by
  obtain ⟨ha, hl⟩ := h
  cases hlead : p.leader with
  | none =>
    rw [hlead] at hl
    obtain ⟨cmd, hc⟩ := Option.ne_none_iff_exists'.1 hl.1
    exact not_keepsOpen_of_command ha hlead cmd hc hl.2
  | some l =>
    rw [hlead] at hl
    by_cases hop : ∃ op, l = .operator op
    · obtain ⟨op, rfl⟩ := hop
      rw [keepsOpen_iff_of_operator ha op hlead]
      exact hl
    · exact not_keepsOpen_of_leader ha l hlead (fun op e => hop ⟨op, e⟩)

/-! ## Escapes -/

theorem State.cancels_iff_intake (keys : KeySettings) (s : State S) (p : Press) :
    s.Cancels p ↔ intake keys s.mode p = .escape := by
  rw [intake_eq_escape_iff]
  unfold Cancels
  tauto

theorem Edit.press_apply_escape (cx : Context S) {s : State S} {p : Press} (hc : s.Cancels p) :
    Edit.press p cx s = Edit.escape cx s :=
  Edit.press_apply cx s p ((s.cancels_iff_intake cx.config.keys p).1 hc)

/-! ## Where a command ends -/

namespace State

theorem closed_resume (u : State S) (ho : u.oneShot = true)
    (hm : u.mode = .normal ∨ u.mode = .insert ∨ u.mode = .visual ∨ u.mode = .visualLine) :
    u.resume.Closed := by
  unfold resume Closed
  rcases hm with hm | hm | hm | hm
  all_goals
    rw [if_pos (by rw [ho, hm]; decide), hm]
    simp

theorem closed_ended (s : State S) (ho : s.oneShot = true) (m : Mode)
    (hm : m = .normal ∨ m = .insert) : (s.ended m).Closed := by
  refine closed_resume _ ho ?_
  rcases hm with h | h
  · exact Or.inl h
  · exact Or.inr (Or.inl h)

theorem oneShot_resume_of_search (s : State S) (h : s.mode = .search) :
    s.resume.oneShot = s.oneShot := by
  unfold resume
  rw [if_neg (fun hs => hs.2.2 h)]

theorem oneShot_resume_of_off (s : State S) (h : s.oneShot = false) : s.resume.oneShot = false := by
  rw [resume_of_not_oneShot s h]
  exact h

end State

/-! ## One press -/

section
variable {cx : Context S} {s t : State S} {cs : List (Call S)}

theorem NormalOutcome.oneShot_of_off {c : Char} (h : NormalOutcome cx s c t cs)
    (ho : s.oneShot = false) : t.oneShot = false := by
  cases h with
  | digit | unknown | leader | await => exact ho
  | command | argument | operate | abandon => exact State.oneShot_resume_of_off _ ho

/-- While the flag is off, nothing but the one-shot press raises it. -/
theorem Outcome.of_off {p : Press} (h : Outcome cx s p t cs) (ho : s.oneShot = false)
    (ht : t.oneShot = true) : s.mode = .insert ∧ cx.config.keys.isOneShot p = true := by
  have hoff : t.oneShot = false → s.mode = .insert ∧ cx.config.keys.isOneShot p = true :=
    fun e => absurd (ht.symm.trans e) (by decide)
  cases h with
  | oneShot hm hp => exact ⟨hm, hp⟩
  | escape => cases ht
  | normal c hm hp hn => exact hoff (hn.oneShot_of_off ho)
  | object | noObject => exact hoff (State.oneShot_resume_of_off _ ho)
  | _ => exact hoff ho

theorem oneShot_press_iff_of_off (cx : Context S) {s : State S} (hs : s.Sound cx.config.keys)
    (ho : s.oneShot = false) (p : Press) :
    ((Edit.press p).state cx s).oneShot = true ↔
      s.mode = .insert ∧ cx.config.keys.isOneShot p = true := by
  constructor
  · exact (hs.outcome cx p).of_off ho
  · intro h
    rw [Edit.state_congr cx s (Edit.press_apply_oneShot cx s p h.1 h.2), Edit.state_openOneShot]

/-- While the flag is on, a character of Normal mode keeps the command open or ends it. -/
theorem NormalOutcome.of_on {c : Char} (h : NormalOutcome cx s c t cs) (hm : s.mode = .normal)
    (ho : s.oneShot = true) :
    (s.pending.KeepsOpen (.char c) ∧ t.oneShot = true) ∨
      (¬ s.pending.KeepsOpen (.char c) ∧ t.Closed) := by
  cases h with
  | digit ha => exact Or.inl ⟨Or.inl ha, ho⟩
  | unknown ha hl hc =>
    have hk := (Pending.keepsOpen_iff_of_none ha hl).2 (Or.inr (Or.inl hc))
    exact Or.inl ⟨hk, ho⟩
  | leader l ha hl hc =>
    have hlead : Leader.ofChar? c ≠ none := by
      rw [NormalEntry.leader_ofChar? c l hc]
      simp
    exact Or.inl ⟨(Pending.keepsOpen_iff_of_none ha hl).2 (Or.inl hlead), ho⟩
  | command cmd ha hl hc =>
    have hcmd := NormalEntry.command_ofChar? c cmd hc
    rw [hm]
    by_cases hf : cmd = .find
    · rw [hf] at hcmd ⊢
      have hslash := Command.ofChar?_eq_find c hcmd
      refine Or.inl ⟨(Pending.keepsOpen_iff_of_none ha hl).2 (Or.inr (Or.inr hslash)), ?_⟩
      exact (State.oneShot_resume_of_search _ rfl).trans ho
    · have hslash : c ≠ '/' := by
        rintro rfl
        cases hcmd
        exact hf rfl
      have hk := Pending.not_keepsOpen_of_command ha hl cmd hcmd hslash
      exact Or.inr ⟨hk, State.closed_resume _ ho (cmd.target_eq hf)⟩
  | argument l ha hl hop =>
    have hk := Pending.not_keepsOpen_of_leader ha l hl hop
    exact Or.inr ⟨hk, State.closed_resume _ ho (Or.inl hm)⟩
  | await op ha hl hc =>
    have hk := (Pending.keepsOpen_iff_of_operator ha op hl).2 hc
    exact Or.inl ⟨hk, ho⟩
  | operate op ha hl hi =>
    rw [← Pending.keepsOpen_iff_of_operator ha op hl] at hi
    exact Or.inr ⟨hi, State.closed_ended s ho _ op.target_eq⟩
  | abandon op ha hl hi =>
    rw [← Pending.keepsOpen_iff_of_operator ha op hl] at hi
    exact Or.inr ⟨hi, State.closed_ended s ho _ (Or.inl rfl)⟩

theorem State.not_awaits {keys : KeySettings} {p : Press}
    (hd : disposition keys s.mode p = .suppress) (hs : s.mode ≠ .search)
    (hk : s.mode = .normal → ¬ s.pending.KeepsOpen p.key) : ¬ s.Awaits keys p := by
  rintro (h | h | ⟨h, h'⟩)
  · rw [hd] at h
    cases h
  · exact hs h
  · exact hk h h'

theorem State.not_awaits_of_operatorObject (keys : KeySettings) {p : Press}
    (hm : s.mode = .operatorObject) (hp : p.Plain) : ¬ s.Awaits keys p := by
  refine State.not_awaits ?_ (by rw [hm]; decide) (fun hn => by rw [hm] at hn; cases hn)
  exact disposition_of_plain keys s.mode p (by rw [hm]; decide) (by rw [hm]; decide) hp

theorem State.not_cancels {p : Press} (hp : p.Plain) : ¬ s.Cancels p := by
  intro hc
  exact hp.2.1 hc.1

/-- While the flag is on, a press keeps it, cancels it or closes it. -/
theorem Outcome.of_on {p : Press} (h : Outcome cx s p t cs) (hs : s.Sound cx.config.keys)
    (ho : s.oneShot = true) :
    (s.Awaits cx.config.keys p ∧ t.oneShot = true) ∨
      (¬ s.Awaits cx.config.keys p ∧ s.Cancels p ∧ t.oneShot = false ∧ t.mode = .normal) ∨
      (¬ s.Awaits cx.config.keys p ∧ ¬ s.Cancels p ∧ t.Closed) := by
  have hmode := hs.mode_of_oneShot ho
  cases h with
  | pass hp => exact Or.inl ⟨Or.inl hp, ho⟩
  | closeFind hm => exact Or.inl ⟨Or.inr (Or.inl hm), ho⟩
  | clear hm hp hk =>
    have hopen := Pending.keepsOpen_of_char?_eq_none (p := s.pending) hk hp.2.1
    exact Or.inl ⟨Or.inr (Or.inr ⟨hm, hopen⟩), ho⟩
  | escape hm hp hk =>
    have hd := disposition_of_intake cx.config.keys s.mode p
      (by rw [(intake_eq_escape_iff _ _ _).2 ⟨hm, hp, hk⟩]; decide)
    have hwait : ¬ s.Awaits cx.config.keys p := by
      refine State.not_awaits hd hm (fun _ => ?_)
      rw [hk]
      exact id
    exact Or.inr (Or.inl ⟨hwait, ⟨hk, hp, hm⟩, rfl, rfl⟩)
  | normal c hm hp hn =>
    have hns : s.mode ≠ .search := by rw [hm]; decide
    have hd := disposition_of_plain cx.config.keys s.mode p hns (by rw [hm]; decide) hp.plain
    have hkept := hn.of_on hm ho
    rw [← hp.1] at hkept
    rcases hkept with ⟨hk, ht⟩ | ⟨hk, ht⟩
    · exact Or.inl ⟨Or.inr (Or.inr ⟨hm, hk⟩), ht⟩
    · have hwait := State.not_awaits hd hns (fun _ => hk)
      exact Or.inr (Or.inr ⟨hwait, State.not_cancels hp.plain, ht⟩)
  | object op c o hm hop hp hc =>
    have hwait := State.not_awaits_of_operatorObject cx.config.keys hm hp.plain
    have hclosed := State.closed_ended s ho _ op.target_eq
    exact Or.inr (Or.inr ⟨hwait, State.not_cancels hp.plain, hclosed⟩)
  | noObject hm hp =>
    have hwait := State.not_awaits_of_operatorObject cx.config.keys hm hp
    have hclosed := State.closed_ended s ho .normal (Or.inl rfl)
    exact Or.inr (Or.inr ⟨hwait, State.not_cancels hp, hclosed⟩)
  | oneShot hm =>
    rw [hm] at hmode
    rcases hmode with e | e | e <;> cases e
  | extend _ _ hm | operate _ _ hm | await _ hm | ignore hm =>
    rcases hmode with e | e | e <;> rw [e] at hm <;> cases hm
  | select _ _ hm | noSelect hm =>
    rcases hmode with e | e | e <;> rw [e] at hm <;> cases hm

theorem State.Completes.not_awaits {keys : KeySettings} {p : Press} (h : s.Completes keys p) :
    ¬ s.Awaits keys p := by
  obtain ⟨hd, hm⟩ := h
  refine State.not_awaits hd ?_ ?_
  · rcases hm with ⟨hm, -⟩ | ⟨hm, -⟩ <;> rw [hm] <;> decide
  · intro hn
    rcases hm with ⟨-, c, hc, he⟩ | ⟨hm, -⟩
    · rw [hc]
      exact he.not_keepsOpen
    · rw [hm] at hn
      cases hn

end

/-! ## Runs -/

theorem State.holdsOpen_cons {config : Config} {s : State S} {xs : List (Host S × Press)}
    (x : Host S × Press) (ho : s.oneShot = true)
    (h : ((Edit.press x.2).state ⟨config, x.1⟩ s).HoldsOpen config xs) :
    s.HoldsOpen config (x :: xs) := by
  intro ys hy
  rcases List.prefix_cons_iff.1 hy with rfl | ⟨zs, rfl, hz⟩
  · exact ho
  · exact h zs hz

/-- A flag that a run turns off is turned off by one of its presses. -/
theorem State.exists_drop {config : Config} {s : State S} (xs : List (Host S × Press))
    (ho : s.oneShot = true) (h : (s.run config xs).oneShot = false) :
    ∃ as x bs, xs = as ++ x :: bs ∧ s.HoldsOpen config as ∧
      (s.run config (as ++ [x])).oneShot = false := by
  induction xs generalizing s with
  | nil => exact absurd (ho.symm.trans h) (by decide)
  | cons x xs ih =>
    cases ht : ((Edit.press x.2).state ⟨config, x.1⟩ s).oneShot with
    | false =>
      refine ⟨[], x, xs, rfl, fun ys hy => ?_, ht⟩
      rw [List.prefix_nil.1 hy]
      exact ho
    | true =>
      obtain ⟨as, y, bs, rfl, has, hoff⟩ := ih ht h
      exact ⟨x :: as, y, bs, rfl, holdsOpen_cons x ho has, hoff⟩

variable {config : Config} {s : State S}

theorem Reachable.drop (h : Reachable config s) (ho : s.oneShot = true) (host : Host S)
    (p : Press) (hoff : ((Edit.press p).state ⟨config, host⟩ s).oneShot = false) :
    (s.Cancels p → ((Edit.press p).state ⟨config, host⟩ s).mode = .normal) ∧
      (¬ s.Cancels p → ((Edit.press p).state ⟨config, host⟩ s).Closed) := by
  have hs := sound_of_reachable h
  rcases (hs.outcome ⟨config, host⟩ p).of_on hs ho with
    ⟨-, e⟩ | ⟨-, hc, -, hm⟩ | ⟨-, hc, e⟩
  · rw [hoff] at e
    cases e
  · exact ⟨fun _ => hm, fun hn => absurd hc hn⟩
  · exact ⟨fun hn => absurd hn hc, fun _ => e⟩

theorem Reachable.not_holdsOpen (h : Reachable config s) {as bs : List (Host S × Press)}
    {x : Host S × Press} (hx : (s.run config as).Completes config.keys x.2) :
    ¬ s.HoldsOpen config (as ++ x :: bs) := by
  intro hopen
  have has := hopen as (List.prefix_append _ _)
  have hnext := hopen (as ++ [x]) (by
    rw [List.append_cons as x bs]
    exact List.prefix_append _ _)
  rw [State.run_append] at hnext
  have hs := sound_of_reachable (h.run as)
  rcases (hs.outcome ⟨config, x.1⟩ x.2).of_on hs has with
    ⟨e, -⟩ | ⟨-, -, e, -⟩ | ⟨-, -, e, -⟩
  · exact hx.not_awaits e
  all_goals
    rw [show State.run config _ [x] = (Edit.press x.2).state ⟨config, x.1⟩ _ from rfl, e] at hnext
    cases hnext

/-- **Temporary Normal mode.**  One press raises the flag; it stays on while a command is awaited
and is dropped into Insert mode, into a visual mode or, by Escape, into Normal mode.  So no run
loses the way back otherwise, and no press that ends a command leaves the flag on for a second. -/
theorem oneShot_temporary (h : Reachable config s) :
    (∀ (host : Host S) (p : Press),
      (s.oneShot = false →
        (((Edit.press p).state ⟨config, host⟩ s).oneShot = true ↔
          s.mode = .insert ∧ p.control = true ∧ p.alt = false ∧ p.super = false ∧
            p.key = .char config.keys.oneShot)) ∧
      (s.oneShot = true →
        (((Edit.press p).state ⟨config, host⟩ s).oneShot = true ↔ s.Awaits config.keys p)) ∧
      (s.oneShot = true → ((Edit.press p).state ⟨config, host⟩ s).oneShot = false →
        (s.Cancels p → ((Edit.press p).state ⟨config, host⟩ s).mode = .normal) ∧
        (¬ s.Cancels p → ((Edit.press p).state ⟨config, host⟩ s).Closed))) ∧
    (∀ xs : List (Host S × Press),
      s.oneShot = true → (s.run config xs).oneShot = false →
        ∃ as x bs, xs = as ++ x :: bs ∧ s.HoldsOpen config as ∧
          ((s.run config as).Cancels x.2 ∧ (s.run config (as ++ [x])).mode = .normal ∨
            (s.run config (as ++ [x])).Closed)) ∧
    ∀ (as bs : List (Host S × Press)) (x : Host S × Press),
      s.HoldsOpen config (as ++ x :: bs) → ¬ (s.run config as).Completes config.keys x.2 := by
  have hs := sound_of_reachable h
  refine ⟨fun host p => ⟨fun ho => ?_, fun ho => ?_, fun ho hoff => ?_⟩, ?_, ?_⟩
  · rw [oneShot_press_iff_of_off ⟨config, host⟩ hs ho p]
    simp [KeySettings.isOneShot, and_assoc]
  · rcases (hs.outcome ⟨config, host⟩ p).of_on hs ho with
      ⟨ha, e⟩ | ⟨ha, -, e, -⟩ | ⟨ha, -, e, -⟩
    · exact ⟨fun _ => ha, fun _ => e⟩
    all_goals
      rw [e]
      exact ⟨fun e => absurd e (by decide), fun e => absurd e ha⟩
  · exact h.drop ho host p hoff
  · intro xs ho hoff
    obtain ⟨as, x, bs, rfl, has, ht⟩ := State.exists_drop xs ho hoff
    refine ⟨as, x, bs, rfl, has, ?_⟩
    rw [State.run_append] at ht ⊢
    have hon := has as (List.prefix_refl as)
    have hdrop := (h.run as).drop hon x.1 x.2 ht
    by_cases hc : (s.run config as).Cancels x.2
    · exact Or.inl ⟨hc, hdrop.1 hc⟩
    · exact Or.inr (hdrop.2 hc)
  · exact fun as bs x hopen hx => h.not_holdsOpen hx hopen

/-- From the start, `i` and the one-shot press lead to a state where `2` keeps the flag, and where
`x` drops it into Insert mode. -/
theorem oneShot_temporary_delete :
    let host := Recording.new.host
    let s : State Span := { State.initial with oneShot := true }
    Reachable .default s ∧
      ((Edit.press (.ofChar '2')).state ⟨.default, host⟩ s).oneShot = true ∧
      ((Edit.press (.ofChar 'x')).state ⟨.default, host⟩ s).Closed ∧
      ¬ s.HoldsOpen .default [(host, .ofChar 'x')] := by
  intro host s
  have hs : Reachable .default s :=
    .press host ((Press.ofChar 'o').hold .control) (.press host (.ofChar 'i') .initial)
  have hlaw := oneShot_temporary hs
  have hx : s.Completes Config.default.keys (.ofChar 'x') :=
    ⟨by decide, Or.inl ⟨rfl, 'x', (types_ofChar 'x').1, by decide, by decide, by decide⟩⟩
  have hoff : ((Edit.press (.ofChar 'x')).state ⟨.default, host⟩ s).oneShot = false := by decide
  have hc : ¬ s.Cancels (.ofChar 'x') := by
    rintro ⟨h, -⟩
    rw [(types_ofChar 'x').1] at h
    cases h
  refine ⟨hs, ?_, ((hlaw.1 host (.ofChar 'x')).2.2 rfl hoff).2 hc,
    fun h => hlaw.2.2 [] [] (host, .ofChar 'x') h hx⟩
  refine ((hlaw.1 host (.ofChar '2')).2.1 rfl).2 (Or.inr (Or.inr ⟨rfl, ?_⟩))
  rw [(types_ofChar '2').1]
  exact Or.inl (by decide)

end ModalInput
