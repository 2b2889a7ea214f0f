import ModalInput.Machine.Step

/-!
# Executing edits

The two halves of what an edit does: the state that it leaves, and the calls that it asks for.
Both are read off its parts.

    (e ++ f).state cx s = f.state cx (e.state cx s)                          (state_append)
    (e ++ f).calls cx s = e.calls cx s ++ f.calls cx (e.state cx s)          (calls_append)
-/

namespace ModalInput

/-! ## Modes that edits lead to -/

/-- The mode after an operator. -/
def Operator.target : Operator → Mode
  | .change => .insert
  | .delete | .yank | .put => .normal

/-- The mode after a command that is given in the mode `m`. -/
def Command.target (m : Mode) : Command → Mode
  | .insert _ | .openLine _ | .cutLineEnd true => .insert
  | .select false => .visual
  | .select true => .visualLine
  | .find => .search
  | _ => m

/-- The calls with which a command opens a selection. -/
def Command.opening {S : Type} : Command → List (Call S)
  | .select false => typed [.shift .right]
  | .select true => typed [.plain .home, .shift .down]
  | _ => []

/-- The calls with which Normal mode is entered from the mode `m`. -/
def Mode.stepBack {S : Type} (m : Mode) : List (Call S) :=
  if m = .visualLine then typed [.plain .left] else []

/-- The calls with which an operator leaves the mode `m`, after its own. -/
def Operator.leaving {S : Type} (m : Mode) : Operator → List (Call S)
  | .delete | .change => []
  | .yank | .put => m.stepBack

/-- The way back to Insert mode, taken where a command ends. -/
def State.resume {S : Type} (s : State S) : State S :=
  if s.oneShot ∧ ¬ s.mode.awaitsKey ∧ s.mode ≠ .search then
    { s with oneShot := false, mode := if s.mode = .normal then .insert else s.mode }
  else s

/-- Outside a selection by lines there is nothing to step back from. -/
theorem Mode.stepBack_eq_nil {S : Type} (m : Mode) (h : m ≠ .visualLine) :
    (m.stepBack : List (Call S)) = [] :=
  if_neg h

theorem Operator.leaving_eq_nil {S : Type} (op : Operator) (m : Mode) (h : m ≠ .visualLine) :
    (op.leaving m : List (Call S)) = [] := by
  cases op with
  | delete | change => rfl
  | yank | put => exact m.stepBack_eq_nil h

namespace Edit

variable {S : Type}

def state (e : Edit S) (cx : Context S) (s : State S) : State S := (e cx s).1

def calls (e : Edit S) (cx : Context S) (s : State S) : List (Call S) :=
  (e cx s).2.filterMap Effect.call?

section
variable (cx : Context S) (s : State S)

theorem state_congr {e f : Edit S} (h : e cx s = f cx s) : e.state cx s = f.state cx s :=
  congrArg Prod.fst h

theorem calls_congr {e f : Edit S} (h : e cx s = f cx s) : e.calls cx s = f.calls cx s :=
  congrArg (fun r => r.2.filterMap Effect.call?) h

/-! ## Parts -/

@[simp] theorem state_skip : (skip : Edit S).state cx s = s := rfl

@[simp] theorem calls_skip : (skip : Edit S).calls cx s = [] := rfl

@[simp] theorem state_append (e f : Edit S) : (e ++ f).state cx s = f.state cx (e.state cx s) := rfl

@[simp] theorem calls_append (e f : Edit S) :
    (e ++ f).calls cx s = e.calls cx s ++ f.calls cx (e.state cx s) := by
  unfold calls state
  rw [append_apply, List.filterMap_append]

theorem look_apply (f : Context S → State S → Edit S) : look f cx s = f cx s cx s := rfl

@[simp] theorem state_look (f : Context S → State S → Edit S) :
    (look f).state cx s = (f cx s).state cx s := rfl

@[simp] theorem calls_look (f : Context S → State S → Edit S) :
    (look f).calls cx s = (f cx s).calls cx s := rfl

@[simp] theorem state_update (f : State S → State S) : (update f).state cx s = f s := rfl

@[simp] theorem calls_update (f : State S → State S) : (update f).calls cx s = [] := rfl

@[simp] theorem state_call (c : Call S) : (call c).state cx s = s := by
  cases c with
  | type | restore => rfl
  | perform a =>
    unfold call perform
    rw [state_look, state_append]
    cases cx.host.perform a <;> rfl

@[simp] theorem state_request (cs : List (Call S)) : (request cs).state cx s = s := by
  induction cs with
  | nil => rfl
  | cons c cs ih =>
    unfold request
    rw [state_append, state_call, ih]

/-- A call is made whatever comes of it, so a view that leaves out the log sees just the call. -/
theorem filterMap_call {α : Type} {view : Effect S → Option α}
    (hview : ∀ r, view (.warn r) = none) (c : Call S) :
    (call c cx s).2.filterMap view = [Effect.call c].filterMap view := by
  cases c with
  | type | restore => rfl
  | perform a =>
    show ([Effect.call (Call.perform a)] ++ (log (cx.host.perform a) cx s).2).filterMap view = _
    rw [List.filterMap_append]
    cases cx.host.perform a with
    | ok => exact List.append_nil _
    | error r =>
      have hwarn : [Effect.warn r].filterMap view = [] := List.filterMap_cons_none (hview r)
      exact (congrArg _ hwarn).trans (List.append_nil _)

theorem filterMap_request {α : Type} {view : Effect S → Option α}
    (hview : ∀ r, view (.warn r) = none) (cs : List (Call S)) :
    (request cs cx s).2.filterMap view = (cs.map Effect.call).filterMap view := by
  induction cs with
  | nil => rfl
  | cons c cs ih =>
    have hstay : (call c cx s).1 = s := state_call cx s c
    unfold request
    rw [append_apply, List.filterMap_append, filterMap_call cx s hview, hstay, ih,
      ← List.filterMap_append]
    rfl

@[simp] theorem calls_call (c : Call S) : (call c).calls cx s = [c] :=
  filterMap_call cx s (fun _ => rfl) c

@[simp] theorem calls_request (cs : List (Call S)) : (request cs).calls cx s = cs := by
  unfold calls
  rw [filterMap_request cx s (fun _ => rfl), List.filterMap_map]
  exact List.filterMap_some

theorem state_ite (p : Prop) [Decidable p] (e f : Edit S) :
    (if p then e else f).state cx s = if p then e.state cx s else f.state cx s := by
  split <;> rfl

theorem calls_ite (p : Prop) [Decidable p] (e f : Edit S) :
    (if p then e else f).calls cx s = if p then e.calls cx s else f.calls cx s := by
  split <;> rfl

/-! ## Transitions -/

@[simp] theorem state_enter (m : Mode) : (enter m).state cx s = { s with mode := m } := rfl

@[simp] theorem calls_enter (m : Mode) : (enter m).calls cx s = [] := rfl

@[simp] theorem state_toNormal : toNormal.state cx s = { s with mode := .normal } := by
  unfold toNormal
  rw [state_look, state_append, state_ite, state_request, state_skip, ite_self, state_enter]

@[simp] theorem calls_toNormal : toNormal.calls cx s = s.mode.stepBack := by
  unfold toNormal Mode.stepBack
  rw [calls_look, calls_append, calls_ite, calls_request, calls_skip, calls_enter, List.append_nil]

@[simp] theorem state_clearPending :
    clearPending.state cx s = { s with pending := .empty } := rfl

@[simp] theorem calls_clearPending : clearPending.calls cx s = [] := rfl

/-! ## Shared endings -/

@[simp] theorem state_operate (op : Operator) :
    (operate op).state cx s = { s with operator := none, mode := op.target } := by
  unfold operate
  rw [state_append, state_append, state_update, state_request]
  cases op
  case change => rfl
  case delete => rfl
  case yank => exact state_toNormal cx _
  case put => exact state_toNormal cx _

@[simp] theorem calls_operate (op : Operator) :
    (operate op).calls cx s = op.calls ++ op.leaving s.mode := by
  unfold operate
  rw [calls_append, calls_append, state_append, calls_update, state_update, calls_request,
    state_request, List.nil_append]
  cases op with
  | delete | change => rfl
  | yank | put => exact congrArg _ (calls_toNormal cx _)

@[simp] theorem state_finish : finish.state cx s = s.resume := by
  unfold finish State.resume
  rw [state_look]
  by_cases h : s.oneShot ∧ ¬ s.mode.awaitsKey ∧ s.mode ≠ .search
  · rw [if_pos h, state_ite, if_neg (by simp [h]), state_append, state_update, state_ite]
    split <;> rfl
  · have hstay : (!s.oneShot || s.mode.awaitsKey || decide (s.mode = .search)) = true := by
      cases ho : s.oneShot <;> cases ha : s.mode.awaitsKey <;> simp_all
    rw [if_neg h, state_ite, if_pos hstay, state_skip]

@[simp] theorem calls_finish : finish.calls cx s = [] := by
  unfold finish
  rw [calls_look, calls_ite, calls_append, calls_update, calls_ite]
  simp

@[simp] theorem state_abandon :
    abandon.state cx s = { s with operator := none, mode := .normal } := by
  unfold abandon
  rw [state_append, state_update, state_toNormal]

@[simp] theorem calls_abandon : abandon.calls cx s = s.mode.stepBack := by
  unfold abandon
  rw [calls_append, calls_update, state_update, calls_toNormal, List.nil_append]

/-! ## Commands -/

@[simp] theorem state_command (c : Command) (n : Nat) (counted : Bool) :
    (command c n counted).state cx s = { s with mode := c.target s.mode } := by
  unfold command
  rw [state_append, state_request]
  cases c with
  | cutLineEnd insert => cases insert <;> rfl
  | select linewise => cases linewise <;> rfl
  | _ => rfl

@[simp] theorem calls_command (c : Command) (n : Nat) (counted : Bool) :
    (command c n counted).calls cx s = c.calls n counted ++ c.opening := by
  unfold command
  rw [calls_append, calls_request, state_request]
  cases c with
  | cutLineEnd insert => cases insert <;> rfl
  | select linewise => cases linewise <;> rfl
  | _ => rfl

end

end Edit

end ModalInput
