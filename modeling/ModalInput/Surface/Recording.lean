import ModalInput.Machine.State

/-!
# Recordings

A surface that writes down what it is asked.  It reports a selection, which a restored one
replaces, and turns down the actions that it is told it does not have; a refused action is not
written down.

    r.absorb (es ++ fs) = (r.absorb es).absorb fs      (absorb_append)
-/

namespace ModalInput

structure Recording where
  calls : List (Call Span)
  statuses : List Status
  selection : Option Span
  unavailable : List Action
  deriving DecidableEq, Repr

namespace Recording

def new : Recording := ⟨[], [], some ⟨0, 0⟩, []⟩

/-! ## Effects -/

/-- How a surface without these actions takes one that is asked for. -/
def answer (unavailable : List Action) (a : Action) : Except Refusal Unit :=
  if a ∈ unavailable then .error (.noMenuItem a) else .ok ()

/-- What is written down of an effect. -/
def accepted? (unavailable : List Action) : Effect Span → Option (Call Span)
  | .call (.perform a) =>
    match answer unavailable a with
    | .ok () => some (.perform a)
    | .error _ => none
  | e => e.call?

def selectionAfter (selection : Option Span) : Effect Span → Option Span
  | .call (.restore r) => some r
  | _ => selection

def absorb (r : Recording) (es : List (Effect Span)) : Recording where
  calls := r.calls ++ es.filterMap (accepted? r.unavailable)
  statuses := r.statuses ++ es.filterMap Effect.status?
  selection := es.foldl selectionAfter r.selection
  unavailable := r.unavailable

/-- What the recording reports to an interpreter. -/
def host (r : Recording) : Host Span := ⟨r.selection, answer r.unavailable⟩

/-! ## Reading a recording -/

/-- Forgets the calls and the announcements. -/
def drain (r : Recording) : Recording := { r with calls := [], statuses := [] }

def countTyped (r : Recording) (c : Chord) : Nat := r.calls.countP (· = .type c)

def countPerformed (r : Recording) (a : Action) : Nat := r.calls.countP (· = .perform a)

/-- The calls, one on a line. -/
def text (r : Recording) : String := "\n".intercalate (r.calls.map Call.text)

/-! ## Lemmas -/

theorem host_eq {r q : Recording} (hs : r.selection = q.selection)
    (hu : r.unavailable = q.unavailable) : r.host = q.host := by
  unfold host
  rw [hs, hu]

theorem absorb_nil (r : Recording) : r.absorb [] = r := by
  simp [absorb]

theorem absorb_append (r : Recording) (es fs : List (Effect Span)) :
    r.absorb (es ++ fs) = (r.absorb es).absorb fs := by
  simp [absorb]

end Recording

end ModalInput
