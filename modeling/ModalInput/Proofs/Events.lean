import ModalInput.Proofs.Indicator
import ModalInput.Proofs.Invariant

/-!
# Runs of events

Presses, and between them changes of the selection from outside.  A change from outside reaches the
interpreter only with the next press, so a run of events is as sound as a run of presses.

    ((Session.new config surface).stepAll is).state.Sound config.keys              (sound_stepAll)
-/

namespace ModalInput

/-! ## Definitions -/

/-- A press, or a change of the selection from outside. -/
def Input.IsEvent : Input → Prop
  | .press _ | .select _ => True
  | _ => False

def Input.press? : Input → Option Press
  | .press p => some p
  | _ => none

/-- The press gives the leader that is pending its argument. -/
structure State.Supplies {S : Type} (s : State S) (l : Leader) (p : Press) (c : Char) : Prop where
  mode_eq : s.mode = .normal
  leader_eq : s.pending.leader = some l
  types : p.Types c
  not_digit : s.pending.accepts c = false

/-! ## Arguments -/

theorem Press.Types.unique {p : Press} {c d : Char} (h : p.Types c) (k : p.Types d) : d = c :=
  Key.char.inj (k.1.symm.trans h.1)

namespace State.Supplies

variable {S : Type} {s : State S} {l : Leader} {p : Press} {c : Char}

theorem char_eq (h : s.Supplies l p c) {m : Leader} {d : Char} (k : s.Supplies m p d) : d = c :=
  h.types.unique k.types

/-- Of the leaders, only an operator does more with its argument than to mark or move. -/
theorem state_press (h : s.Supplies l p c) (hl : ∀ op, l ≠ .operator op) (cx : Context S) :
    (Edit.press p).state cx s =
      ({ s with
          pending := .empty
          marks := if l = .mark then s.marks.note c cx.host.selection else s.marks } :
            State S).resume := by
  rw [Edit.state_congr _ _ (Edit.press_apply_char cx s p c h.mode_eq h.types),
    Edit.state_normalChar_sequence cx s c l h.not_digit h.leader_eq,
    Edit.state_sequence_of_not_operator _ _ l c _ hl]

theorem calls_press (h : s.Supplies l p c) (cx : Context S) :
    (Edit.press p).calls cx s =
      l.callsFor s.marks (s.pending.count cx.config.keys.countLimit) c := by
  rw [Edit.calls_congr _ _ (Edit.press_apply_char cx s p c h.mode_eq h.types)]
  exact Edit.calls_normalChar_sequence cx s c l h.not_digit h.leader_eq
    (by rw [h.mode_eq]; decide)

end State.Supplies

/-! ## Runs -/

namespace Session

theorem stepAll_append (s : Session) (is js : List Input) :
    s.stepAll (is ++ js) = (s.stepAll is).stepAll js :=
  List.foldl_append

theorem config_stepAll (s : Session) (is : List Input) : (s.stepAll is).config = s.config := by
  induction is generalizing s with
  | nil => rfl
  | cons i is ih => exact (ih (s.step i)).trans (s.config_step i)

theorem sound_step {s : Session} (h : s.state.Sound s.config.keys) {i : Input} (hi : i.IsEvent) :
    (s.step i).state.Sound s.config.keys := by
  cases i with
  | press p => exact State.Sound.press s.context h p
  | select => exact h
  | _ => exact hi.elim

theorem sound_stepAll {s : Session} (h : s.state.Sound s.config.keys) {is : List Input}
    (hi : ∀ i ∈ is, i.IsEvent) : (s.stepAll is).state.Sound s.config.keys := by
  induction is generalizing s with
  | nil => exact h
  | cons i is ih =>
    have hone := sound_step h (hi i List.mem_cons_self)
    rw [← s.config_step i] at hone ⊢
    exact ih hone fun j hj => hi j (List.mem_cons_of_mem i hj)

end Session

end ModalInput
