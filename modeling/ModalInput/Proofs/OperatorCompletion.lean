import ModalInput.Proofs.CallBound
import ModalInput.Proofs.EmittedKeys

/-!
# Two ways to complete an operator

The character after an operator is looked at twice over: where the operator is the leader that is
pending, and where it waits for its motion.  Both leave the same state, whatever the character.
They make the same calls but for the letter of the operator, which takes the counted lines in one
place and a single line in the other.

    (normalKey (.char c)).state cx s = (motionKey (.char c)).state cx (s.waitingFor op)
    op.callsFor n c = op.callsFor 1 c ↔ c ≠ op.letter ∨ n = 1                (callsFor_eq_one_iff)
-/

namespace ModalInput

variable {S : Type}

/-- The operator waits for its motion, and nothing is pending. -/
def State.waitingFor (s : State S) (op : Operator) : State S :=
  { s with mode := .operatorMotion, pending := .empty, operator := some op }

/-- A count matters to an operator only where its own letter takes lines. -/
theorem Operator.callsFor_eq_one_iff (op : Operator) (n : Nat) (hn : 1 ≤ n) (c : Char) :
    (op.callsFor n c : List (Call S)) = op.callsFor 1 c ↔ c ≠ op.letter ∨ n = 1 := by
  constructor
  · intro h
    by_cases hc : c = op.letter
    · right
      have hi : ¬ (c = 'i' ∨ c = 'a') := by rw [hc]; exact Edit.letter_ne_object op
      unfold callsFor at h
      rw [if_neg hi, if_pos hc, if_neg hi, if_pos hc] at h
      have hlength := congrArg List.length (List.append_cancel_right h)
      rw [length_typed, length_typed, length_wholeLines n hn, length_wholeLines 1 (by omega)]
        at hlength
      omega
    · exact Or.inl hc
  · rintro (hc | rfl)
    · unfold callsFor
      rw [if_neg hc, if_neg hc]
    · rfl

namespace Edit

variable (cx : Context S) (s : State S) {op : Operator} {c : Char}

/-- The waiting operator ends as the pending one does, with the way back to Insert mode taken once. -/
theorem state_normalChar_eq_motionKey (ha : s.pending.accepts c = false)
    (hl : s.pending.leader = some (.operator op)) :
    (normalChar c).state cx s = (motionKey (.char c)).state cx (s.waitingFor op) := by
  rw [state_normalChar_operator cx s c op ha hl, state_motionKey cx (s.waitingFor op) op c rfl]
  rfl

theorem calls_normalChar_eq_motionKey_iff (hm : s.mode = .normal)
    (ha : s.pending.accepts c = false) (hl : s.pending.leader = some (.operator op)) :
    (normalChar c).calls cx s = (motionKey (.char c)).calls cx (s.waitingFor op) ↔
      c ≠ op.letter ∨ s.pending.count cx.config.keys.countLimit = 1 := by
  have hwaiting : (s.waitingFor op).mode ≠ .visualLine := fun e => by cases e
  rw [calls_normalChar_sequence cx s c _ ha hl (by rw [hm]; decide),
    calls_motionKey cx (s.waitingFor op) op c rfl hwaiting]
  exact op.callsFor_eq_one_iff _ (s.pending.one_le_count _) c

/-- **Two ways, one operator.**  A character that is no digit of the count leaves the same state
after a pending operator and after one that waits for its motion.  The calls are the same too,
except for the letter of the operator under a count other than one. -/
theorem completions_agree (hm : s.mode = .normal)
    (hl : s.pending.leader = some (.operator op)) (ha : s.pending.accepts c = false) :
    (normalKey (.char c)).state cx s = (motionKey (.char c)).state cx (s.waitingFor op) ∧
    ((normalKey (.char c)).calls cx s = (motionKey (.char c)).calls cx (s.waitingFor op) ↔
      c ≠ op.letter ∨ s.pending.count cx.config.keys.countLimit = 1) :=
  ⟨state_normalChar_eq_motionKey cx s ha hl, calls_normalChar_eq_motionKey_iff cx s hm ha hl⟩

/-- `3dw` is `dw`, back in Insert mode, and `3dd` is not `dd`. -/
theorem completions_agree_delete :
    let cx : Context Span := ⟨.default, Recording.new.host⟩
    let s : State Span := ⟨.normal, ⟨['3'], some (.operator .delete), none⟩, .empty, none, true⟩
    s.mode = .normal ∧ s.pending.leader = some (.operator .delete) ∧
      s.pending.accepts 'w' = false ∧ s.pending.accepts 'd' = false ∧
      ((normalKey (.char 'w')).state cx s).mode = .insert ∧
      (normalKey (.char 'w')).state cx s = (motionKey (.char 'w')).state cx (s.waitingFor .delete) ∧
      (normalKey (.char 'w')).calls cx s = (motionKey (.char 'w')).calls cx (s.waitingFor .delete) ∧
      (normalKey (.char 'd')).calls cx s ≠
        (motionKey (.char 'd')).calls cx (s.waitingFor .delete) := by
  intro cx s
  have hw : s.pending.accepts 'w' = false := by decide
  have hd : s.pending.accepts 'd' = false := by decide
  obtain ⟨hstate, hword⟩ := completions_agree cx s rfl rfl hw
  obtain ⟨-, hlines⟩ := completions_agree cx s rfl rfl hd
  refine ⟨rfl, rfl, hw, hd, ?_, hstate, hword.2 (Or.inl (by decide)), fun h => ?_⟩
  · rw [hstate]
    decide
  · exact absurd (hlines.1 h) (by decide)

end Edit

/-- On every surface the two record the same calls and leave the same selection. -/
theorem Session.step_eq_step_waiting (s : Session) {op : Operator} {c : Char}
    (hm : s.state.mode = .normal) (hl : s.state.pending.leader = some (.operator op))
    (ha : s.state.pending.accepts c = false)
    (hc : c ≠ op.letter ∨ s.state.pending.count s.config.keys.countLimit = 1) :
    let waiting : Session := { s with state := s.state.waitingFor op }
    let a := s.step (.handle .normal (.char c))
    let b := waiting.step (.handle .operatorMotion (.char c))
    a.state = b.state ∧ a.surface.calls = b.surface.calls ∧
      a.surface.selection = b.surface.selection := by
  intro waiting a b
  have hcalls : (Edit.normalChar c).calls s.context s.state =
      (Edit.motionKey (.char c)).calls s.context (s.state.waitingFor op) :=
    (Edit.calls_normalChar_eq_motionKey_iff s.context s.state hm ha hl).2 hc
  refine ⟨Edit.state_normalChar_eq_motionKey s.context s.state ha hl, ?_, ?_⟩
  · rw [calls_input, calls_input]
    exact congrArg (s.surface.calls ++ List.filter _ ·) hcalls
  · calc a.surface.selection
        = ((Edit.normalChar c).calls s.context s.state).foldl
            (fun x d => Recording.selectionAfter x (.call d)) s.surface.selection :=
          Recording.foldl_selectionAfter _ _
      _ = ((Edit.motionKey (.char c)).calls s.context (s.state.waitingFor op)).foldl
            (fun x d => Recording.selectionAfter x (.call d)) s.surface.selection := by rw [hcalls]
      _ = b.surface.selection := (Recording.foldl_selectionAfter _ _).symm

end ModalInput
