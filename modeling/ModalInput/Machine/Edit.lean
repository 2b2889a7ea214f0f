import ModalInput.Command.Gesture
import ModalInput.Machine.State

/-!
# Edits

An edit is one step of the machine, or a part of one.  Edits are put one after another with `++`:
the second starts from the state that the first leaves, and its effects come after.  The context
stays the same throughout.

    (e ++ f) cx s = ((f cx (e cx s).1).1, (e cx s).2 ++ (f cx (e cx s).1).2)      (append_apply)
-/

namespace ModalInput

def Edit (S : Type) : Type := Context S → State S → State S × List (Effect S)

namespace Edit

variable {S : Type}

/-! ## Parts -/

def skip : Edit S := fun _ s => (s, [])

def andThen (e f : Edit S) : Edit S := fun cx s =>
  let r := e cx s
  let q := f cx r.1
  (q.1, r.2 ++ q.2)

instance : Append (Edit S) := ⟨andThen⟩

/-- An edit that is chosen by the context and the state. -/
def look (f : Context S → State S → Edit S) : Edit S := fun cx s => f cx s cx s

def update (f : State S → State S) : Edit S := fun _ s => (f s, [])

def emit (c : Call S) : Edit S := fun _ s => (s, [.call c])

def warn (r : Refusal) : Edit S := fun _ s => (s, [.warn r])

/-- An action that is turned down is logged, and whatever it is a part of carries on. -/
def log : Except Refusal Unit → Edit S
  | .ok () => skip
  | .error r => warn r

def perform (a : Action) : Edit S := look fun cx _ =>
  emit (.perform a) ++ log (cx.host.perform a)

def call : Call S → Edit S
  | .perform a => perform a
  | c => emit c

/-- Makes the calls one after another. -/
def request : List (Call S) → Edit S
  | [] => skip
  | c :: cs => call c ++ request cs

def announce : Edit S := fun cx s => (s, [.announce (s.status cx.config.theme)])

/-! ## Transitions -/

def enter (m : Mode) : Edit S := update (fun s => { s with mode := m }) ++ announce

/-- A selection by lines reaches one line past its target, which is stepped back. -/
def toNormal : Edit S := look fun _ s =>
  (if s.mode = .visualLine then request (typed [.plain .left]) else skip) ++ enter .normal

/-- A collapsed selection does not show, so the selection starts with one character. -/
def toVisual : Edit S := enter .visual ++ request (typed [.shift .right])

def toVisualLine : Edit S := enter .visualLine ++ request (typed [.plain .home, .shift .down])

def clearPending : Edit S := update (fun s => { s with pending := .empty }) ++ announce

/-! ## Shared endings -/

/-- Runs an operator on the selection that is in place.  A deletion takes the selection with it,
so it enters Normal mode without a step back. -/
def operate (op : Operator) : Edit S :=
  update (fun s => { s with operator := none }) ++ request op.calls ++
    match op with
    | .change => enter .insert
    | .delete => enter .normal
    | .yank | .put => toNormal

/-- Ends a command that was opened from Insert mode.  A search keeps the way back open for the next
command, and so does a mode that waits for a key. -/
def finish : Edit S := look fun _ s =>
  if !s.oneShot || s.mode.awaitsKey || s.mode = .search then skip
  else
    update (fun s => { s with oneShot := false }) ++
      if s.mode = .normal then enter .insert else skip

/-! ## Lemmas -/

theorem append_apply (e f : Edit S) (cx : Context S) (s : State S) :
    (e ++ f) cx s = ((f cx (e cx s).1).1, (e cx s).2 ++ (f cx (e cx s).1).2) := rfl

theorem append_assoc (e f g : Edit S) : e ++ f ++ g = e ++ (f ++ g) := by
  funext cx s
  simp [append_apply]

theorem append_skip (e : Edit S) : e ++ skip = e := by
  funext cx s
  simp [append_apply, skip]

end Edit

end ModalInput
