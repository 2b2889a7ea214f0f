import Mathlib.Data.List.Infix
import ModalInput.Proofs.Flag

/-!
# Temporary Normal mode as leaving and coming back

Two sessions side by side: one comes to Normal mode for one command, the other leaves Insert mode
by Escape.  The same presses then make the same calls in both, and the states differ in the flag
alone, until the press that drops it.  If that press ends in Normal mode without the flag, it ends
in Insert mode with it, where `i` leads from Normal mode too.

    a.Beside b → (∀ qs, qs <+: ps → (a.pressAll qs).state.oneShot = true) →
      (a.pressAll ps).Beside (b.pressAll ps)                              (Beside.pressAll)
    a.Beside b → a.OpenBefore es → ¬ (a.pressAll es).Apart (b.pressAll es) es →
      (a.pressAll es).state.SameButFlag (b.pressAll es).state             (Beside.sameButFlag_pressAll)
-/

namespace ModalInput

/-! ## Definitions -/

/-- The states are equal in everything but the flag. -/
def State.SameButFlag {S : Type} (t u : State S) : Prop := { t with oneShot := u.oneShot } = u

/-- The recordings hold the same but for their announcements. -/
structure Recording.SameCalls (r q : Recording) : Prop where
  calls_eq : r.calls = q.calls
  selection_eq : r.selection = q.selection
  unavailable_eq : r.unavailable = q.unavailable

/-- The sessions differ in the flag, which is on in the first one, and in their announcements. -/
structure Session.Beside (a b : Session) : Prop where
  config_eq : a.config = b.config
  state_eq : a.state = b.state.flagged true
  off : b.state.oneShot = false
  sound : a.state.Sound a.config.keys
  surface : a.surface.SameCalls b.surface

/-! ## The flag -/

theorem State.sameButFlag_flagged {S : Type} (u : State S) (on : Bool) :
    (u.flagged on).SameButFlag u := rfl

theorem State.flagged_of_off {S : Type} {u : State S} (hu : u.oneShot = false) :
    u.flagged false = u := by
  unfold flagged
  rw [← hu]

/-! ## One press -/

namespace Session

variable {a b : Session}

namespace Beside

theorem mode_eq (h : a.Beside b) : a.state.mode = b.state.mode := by
  rw [h.state_eq]
  rfl

theorem on (h : a.Beside b) : a.state.oneShot = true := by
  rw [h.state_eq]
  rfl

theorem mode_ne (h : a.Beside b) : b.state.mode ≠ .insert := by
  rw [← h.mode_eq]
  rcases h.sound.mode_of_oneShot h.on with e | e | e <;> rw [e] <;> decide

theorem sameButFlag (h : a.Beside b) : a.state.SameButFlag b.state := by
  rw [h.state_eq]
  exact b.state.sameButFlag_flagged true

theorem context_eq (h : a.Beside b) : a.context = b.context := by
  unfold context
  rw [h.config_eq, Recording.host_eq h.surface.selection_eq h.surface.unavailable_eq]

theorem disposition_eq (h : a.Beside b) (p : Press) : a.disposition p = b.disposition p := by
  unfold disposition
  rw [h.config_eq, h.mode_eq]

theorem calls_press_eq (h : a.Beside b) (p : Press) :
    (Edit.press p).calls a.context a.state = (Edit.press p).calls b.context b.state := by
  rw [h.context_eq, h.state_eq]
  nth_rewrite 2 [← State.flagged_of_off h.off]
  by_cases hc : b.state.Cancels p
  · exact (escape_press b.context hc).1
  · exact (shadows_press b.context h.mode_ne hc).1

theorem surface_step (h : a.Beside b) (p : Press) :
    (a.step (.press p)).surface.SameCalls (b.step (.press p)).surface where
  calls_eq := by
    rw [calls_step, calls_step, h.calls_press_eq p, h.surface.calls_eq, h.surface.unavailable_eq]
  selection_eq := by
    rw [selection_step, selection_step, h.calls_press_eq p, h.surface.selection_eq]
  unavailable_eq := h.surface.unavailable_eq

/-- An Escape that drops the flag leaves equal states; otherwise the way back is all that is
between them. -/
theorem state_step (h : a.Beside b) (p : Press) :
    (b.state.Cancels p ∧ (a.step (.press p)).state = (b.step (.press p)).state ∧
      (b.step (.press p)).state.oneShot = false) ∨
    (¬ b.state.Cancels p ∧
      (a.step (.press p)).state.Returns (b.step (.press p)).state) := by
  show (_ ∧ (Edit.press p).state a.context a.state = (Edit.press p).state b.context b.state ∧
      ((Edit.press p).state b.context b.state).oneShot = false) ∨
    (_ ∧ ((Edit.press p).state a.context a.state).Returns
      ((Edit.press p).state b.context b.state))
  rw [h.context_eq, h.state_eq]
  by_cases hc : b.state.Cancels p
  · have hescape := escape_press b.context hc
    rw [State.flagged_of_off h.off] at hescape
    exact Or.inl ⟨hc, hescape.2⟩
  · have hshadow := shadows_press b.context h.mode_ne hc
    rw [State.flagged_of_off h.off] at hshadow
    exact Or.inr ⟨hc, hshadow.2⟩

theorem step (h : a.Beside b) (p : Press) (hon : (a.step (.press p)).state.oneShot = true) :
    (a.step (.press p)).Beside (b.step (.press p)) := by
  rcases h.state_step p with ⟨-, heq, hoff⟩ | ⟨-, hret⟩
  · rw [heq, hoff] at hon
    cases hon
  · exact ⟨h.config_eq, hret.of_on hon, hret.1, State.Sound.press a.context h.sound p,
      h.surface_step p⟩

/-! ## Runs -/

theorem pressAll (h : a.Beside b) (ps : List Press)
    (hon : ∀ qs, qs <+: ps → (a.pressAll qs).state.oneShot = true) :
    (a.pressAll ps).Beside (b.pressAll ps) := by
  induction ps generalizing a b with
  | nil => exact h
  | cons p ps ih =>
    have hnext := h.step p (hon [p] (List.prefix_append [p] ps))
    exact ih hnext fun qs hq => hon (p :: qs) (List.cons_prefix_cons.2 ⟨rfl, hq⟩)

end Beside

/-- The two ways out of Insert mode. -/
theorem beside_start (s : Session) (hs : s.state.Sound s.config.keys) (hm : s.state.mode = .insert)
    (toggle escape : Press) (ht : s.config.keys.isOneShot toggle = true)
    (hk : escape.key = .escape) (hf : escape.hasHostModifier = false) :
    (s.step (.press toggle)).Beside (s.step (.press escape)) := by
  have htoggle := Edit.press_apply_oneShot s.context s.state _ hm ht
  have hescape := Edit.press_apply_escape s.context (s := s.state) (p := escape)
    ⟨hk, hf, by rw [hm]; decide⟩
  have hcalls : (Edit.press toggle).calls s.context s.state =
      (Edit.press escape).calls s.context s.state := by
    rw [Edit.calls_congr _ _ htoggle, Edit.calls_congr _ _ hescape, Edit.calls_openOneShot,
      Edit.calls_escape, hm]
    rfl
  have hopened : (s.step (.press toggle)).state =
      { s.state with mode := .normal, oneShot := true } :=
    (Edit.state_congr _ _ htoggle).trans (Edit.state_openOneShot _ _)
  have hleft : (s.step (.press escape)).state =
      { s.state with mode := .normal, pending := .empty, operator := none, oneShot := false } :=
    (Edit.state_congr _ _ hescape).trans (Edit.state_escape _ _)
  refine ⟨rfl, ?_, ?_, State.Sound.press s.context hs toggle, ?_, ?_, rfl⟩
  · rw [hopened, hleft, ← hs.pending_eq (by rw [hm]; decide),
      ← hs.operator_eq (by rw [hm]; decide)]
    rfl
  · rw [hleft]
  · rw [calls_step, calls_step, hcalls]
  · rw [selection_step, selection_step, hcalls]

/-- Where the way back was taken in one session alone, `i` takes it in the other. -/
theorem step_insert {t : State Span} (b : Session) (ht : t.Sound b.config.keys)
    (hret : t.Returns b.state) (hoff : t.oneShot = false) (hm : b.state.mode = .normal)
    (i : Press) (hi : i.Types 'i') :
    (b.step (.press i)).state = t ∧ (b.step (.press i)).surface.calls = b.surface.calls := by
  have heq : t = { b.state with mode := .insert } := by
    rw [hret.of_off hoff, if_pos hm]
  have hpending : b.state.pending = .empty := by
    have hp := ht.pending_eq (by rw [heq]; exact Mode.noConfusion)
    rw [heq] at hp
    exact hp
  have happly := Edit.press_apply_char b.context b.state i 'i' hm hi
  have ha : b.state.pending.accepts 'i' = false :=
    Pending.accepts_eq_false_of_not_isDigit _ 'i' rfl
  have hl : b.state.pending.leader = none := by
    rw [hpending]
    rfl
  constructor
  · show (Edit.press i).state b.context b.state = t
    rw [Edit.state_congr _ _ happly,
      Edit.state_normalChar_command _ _ 'i' (.insert .here) ha hl rfl, heq, ← hpending]
    exact State.resume_of_not_oneShot _ hret.1
  · rw [calls_step, Edit.calls_congr _ _ happly,
      Edit.calls_normalChar_command _ _ 'i' (.insert .here) ha hl rfl]
    exact List.append_nil _

/-! ## The press that drops the flag -/

namespace Beside

/-- An Escape that does not drop the flag is for the host or the find box. -/
theorem on_of_escape (h : a.Beside b) (p : Press) (hk : p.key = .escape)
    (hc : ¬ b.state.Cancels p) : (a.step (.press p)).state.oneShot = true := by
  have hwait : a.state.Awaits a.config.keys p := by
    by_cases hm : a.state.mode = .search
    · exact Or.inr (Or.inl hm)
    · refine Or.inl ((disposition_eq_pass_iff _ _ p).2 ?_)
      rw [h.mode_eq] at hm ⊢
      have ht := taken_intake a.config.keys b.state.mode p
      generalize intake a.config.keys b.state.mode p = i at ht ⊢
      cases ht with
      | find | host | insert => rfl
      | closeFind hs => exact absurd hs hm
      | oneShot hi => exact absurd hi h.mode_ne
      | escape _ hf => exact absurd ⟨hk, hf, hm⟩ hc
      | key _ _ hp => exact absurd hk hp.2.1
  rcases (h.sound.outcome a.context p).of_on h.sound h.on with ⟨-, he⟩ | ⟨hn, -⟩ | ⟨hn, -⟩
  · exact he
  · exact absurd hwait hn
  · exact absurd hwait hn

variable (h : a.Beside b) (p : Press)
include h

theorem sameButFlag_step (hn : ¬ ((a.step (.press p)).state.oneShot = false ∧
      (b.step (.press p)).state.mode = .normal ∧ p.key ≠ .escape)) :
    (a.step (.press p)).state.SameButFlag (b.step (.press p)).state := by
  rcases h.state_step p with ⟨-, heq, -⟩ | ⟨hc, hret⟩
  · rw [heq]
    rfl
  · cases hon : (a.step (.press p)).state.oneShot with
    | true =>
      rw [hret.of_on hon]
      exact State.sameButFlag_flagged _ true
    | false =>
      have hm : (b.step (.press p)).state.mode ≠ .normal := by
        refine fun hm => hn ⟨hon, hm, fun hk => ?_⟩
        have hstays := h.on_of_escape p hk hc
        rw [hon] at hstays
        cases hstays
      rw [hret.of_off hon, if_neg hm]
      rfl

theorem reenter_step (hoff : (a.step (.press p)).state.oneShot = false)
    (hm : (b.step (.press p)).state.mode = .normal) (hk : p.key ≠ .escape) :
    (a.step (.press p)).state.mode = .insert ∧ ∀ i : Press, i.Types 'i' →
      ((b.step (.press p)).step (.press i)).state = (a.step (.press p)).state ∧
        ((b.step (.press p)).step (.press i)).surface.calls =
          (b.step (.press p)).surface.calls := by
  rcases h.state_step p with ⟨hc, -⟩ | ⟨-, hret⟩
  · exact absurd hc.1 hk
  · have hsound : (a.step (.press p)).state.Sound b.config.keys := by
      rw [← h.config_eq]
      exact State.Sound.press a.context h.sound p
    refine ⟨by rw [hret.of_off hoff, if_pos hm], fun i hi => ?_⟩
    exact step_insert (b.step (.press p)) hsound hret hoff hm i hi

end Beside

/-! ## Runs that keep the flag until their last press -/

/-- The flag is on before each of the presses: `p` is one of `es`, and `ys` are those before it. -/
def OpenBefore (s : Session) (es : List Press) : Prop :=
  ∀ ys p, ys ++ [p] <+: es → (s.pressAll ys).state.oneShot = true

/-- After the presses the way back was taken, by a press other than Escape, where the other session
is in Normal mode. -/
def Apart (a b : Session) (es : List Press) : Prop :=
  a.state.oneShot = false ∧ b.state.mode = .normal ∧ ∀ p ∈ es.getLast?, p.key ≠ .escape

theorem exists_next {ys zs : List Press} (h : zs <+: ys) (p : Press) :
    ∃ q, zs ++ [q] <+: ys ++ [p] := by
  obtain ⟨vs, rfl⟩ := h
  cases vs with
  | nil => exact ⟨p, by simp⟩
  | cons q vs => exact ⟨q, vs ++ [p], by simp⟩

theorem pressAll_concat (s : Session) (ps : List Press) (p : Press) :
    s.pressAll (ps ++ [p]) = (s.pressAll ps).step (.press p) :=
  s.pressAll_append ps [p]

namespace Beside

variable {es : List Press} (h : a.Beside b) (hopen : a.OpenBefore es)
include h hopen

theorem before {ys : List Press} {p : Press} (hy : ys ++ [p] <+: es) :
    (a.pressAll ys).Beside (b.pressAll ys) := by
  refine h.pressAll ys fun zs hz => ?_
  obtain ⟨q, hq⟩ := exists_next hz p
  exact hopen zs q (hq.trans hy)

theorem surface_pressAll {ys : List Press} (hy : ys <+: es) :
    (a.pressAll ys).surface.SameCalls (b.pressAll ys).surface := by
  rcases List.eq_nil_or_concat' ys with rfl | ⟨zs, p, rfl⟩
  · exact h.surface
  · rw [pressAll_concat, pressAll_concat]
    exact (h.before hopen hy).surface_step p

theorem sameButFlag_pressAll (hn : ¬ (a.pressAll es).Apart (b.pressAll es) es) :
    (a.pressAll es).state.SameButFlag (b.pressAll es).state := by
  rcases List.eq_nil_or_concat' es with rfl | ⟨zs, p, rfl⟩
  · exact h.sameButFlag
  · rw [pressAll_concat, pressAll_concat] at hn ⊢
    refine (h.before hopen (List.prefix_refl _)).sameButFlag_step p fun ⟨hoff, hm, hk⟩ => ?_
    refine hn ⟨hoff, hm, fun q hq => ?_⟩
    rw [List.getLast?_concat] at hq
    rwa [← Option.some.inj hq]

theorem reenter_pressAll (hapart : (a.pressAll es).Apart (b.pressAll es) es) :
    (a.pressAll es).state.mode = .insert ∧ ∀ i : Press, i.Types 'i' →
      ((b.pressAll es).step (.press i)).state = (a.pressAll es).state ∧
        ((b.pressAll es).step (.press i)).surface.calls = (b.pressAll es).surface.calls := by
  obtain ⟨hoff, hm, hk⟩ := hapart
  rcases List.eq_nil_or_concat' es with rfl | ⟨zs, p, rfl⟩
  · exact absurd (h.on.symm.trans hoff) (by decide)
  · rw [pressAll_concat] at hoff
    rw [pressAll_concat] at hm
    rw [pressAll_concat, pressAll_concat]
    exact (h.before hopen (List.prefix_refl _)).reenter_step p hoff hm
      (hk p (by rw [List.getLast?_concat]; rfl))

end Beside

/-! ## The law -/

/-- **Temporary Normal mode.**  Until the flag is dropped, the presses after the one-shot press do
what they do after an Escape, and then the two runs are in the same state, or `i` makes it so. -/
theorem oneShot_run_eq_escape_run (s : Session) (hs : Reachable s.config s.state)
    (hm : s.state.mode = .insert) (toggle escape : Press)
    (ht : s.config.keys.isOneShot toggle = true) (hk : escape.key = .escape)
    (hf : escape.hasHostModifier = false) (es : List Press)
    (hopen : (s.step (.press toggle)).OpenBefore es) :
    let a := fun ys => s.pressAll (toggle :: ys)
    let b := fun ys => s.pressAll (escape :: ys)
    (∀ ys p, ys ++ [p] <+: es → (a ys).disposition p = (b ys).disposition p ∧
        (a ys).state.SameButFlag (b ys).state) ∧
      (∀ ys, ys <+: es → (a ys).surface.calls = (b ys).surface.calls ∧
        (a ys).surface.selection = (b ys).surface.selection) ∧
      (¬ (a es).Apart (b es) es → (a es).state.SameButFlag (b es).state) ∧
      ((a es).Apart (b es) es → (a es).state.mode = .insert ∧
        ∀ i : Press, i.Types 'i' → ((b es).step (.press i)).state = (a es).state ∧
          ((b es).step (.press i)).surface.calls = (b es).surface.calls) := by
  intro a b
  have h : (s.step (.press toggle)).Beside (s.step (.press escape)) :=
    beside_start s (sound_of_reachable hs) hm toggle escape ht hk hf
  refine ⟨fun ys p hy => ?_, fun ys hy => ?_, h.sameButFlag_pressAll hopen,
    h.reenter_pressAll hopen⟩
  · exact ⟨(h.before hopen hy).disposition_eq p, (h.before hopen hy).sameButFlag⟩
  · exact ⟨(h.surface_pressAll hopen hy).calls_eq, (h.surface_pressAll hopen hy).selection_eq⟩

/-- After the one-shot press `2x` deletes twice and ends in Insert mode; after Escape it makes the
same calls, and `i` leads to the same state. -/
theorem oneShot_run_eq_escape_run_delete :
    let s : Session := ⟨.default, { State.initial with mode := .insert }, .new⟩
    let toggle := (Press.ofChar 'o').hold .control
    let es := [Press.ofChar '2', Press.ofChar 'x']
    let a := s.pressAll (toggle :: es)
    let b := s.pressAll (.ofName "Escape" :: es)
    Reachable s.config s.state ∧ (s.step (.press toggle)).OpenBefore es ∧ a.Apart b es ∧
      a.surface.calls = b.surface.calls ∧ a.state.mode = .insert ∧
      (b.step (.press (.ofChar 'i'))).state = a.state := by
  intro s toggle es a b
  have hs : Reachable s.config s.state := .press s.surface.host (.ofChar 'i') .initial
  have hopen : (s.step (.press toggle)).OpenBefore es := by
    intro ys p hy
    rcases ys with _ | ⟨q, _ | ⟨r, ys⟩⟩
    · decide
    · obtain ⟨rfl, -⟩ := List.cons_prefix_cons.1 hy
      decide +kernel
    · have hlen := hy.length_le
      simp [es] at hlen
  have hapart : a.Apart b es := ⟨by decide +kernel, by decide +kernel, by decide⟩
  have hlaw := oneShot_run_eq_escape_run s hs rfl toggle (.ofName "Escape") (by decide)
    (by decide) (by decide) es hopen
  obtain ⟨hm, hi⟩ := hlaw.2.2.2 hapart
  exact ⟨hs, hopen, hapart, (hlaw.2.1 es (List.prefix_refl es)).1, hm,
    (hi (.ofChar 'i') (types_ofChar 'i')).1⟩

end Session

end ModalInput
