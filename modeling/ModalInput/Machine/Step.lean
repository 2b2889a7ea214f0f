import ModalInput.Machine.Normal
import ModalInput.Machine.Visual

/-!
# Steps

A press is first sorted by the mode, the settings and its modifiers alone; the tables are asked
only about what is left.

    disposition keys m p = .pass ↔ intake keys m p = .pass      (disposition_eq_pass_iff)
-/

namespace ModalInput

/-! ## Intake -/

/-- What a press is taken for. -/
inductive Intake where
  /-- It goes to the host untouched. -/
  | pass
  /-- Out of Insert mode for one command. -/
  | oneShot
  /-- The find box closes. -/
  | closeFind
  | escape
  /-- A key for the tables of the mode. -/
  | key (k : Key)
  deriving DecidableEq, Repr

def KeySettings.isOneShot (keys : KeySettings) (p : Press) : Bool :=
  p.control && !p.alt && !p.super && p.key = .char keys.oneShot

/-- An open find box has the keyboard to itself, modifiers included. -/
def intake (keys : KeySettings) (m : Mode) (p : Press) : Intake :=
  if m = .search then
    if p.key = .escape ∨ p.key = .enter then .closeFind else .pass
  else if m = .insert ∧ keys.isOneShot p then .oneShot
  else if p.hasHostModifier ∨ p.key = .modifier then .pass
  else if p.key = .escape then .escape
  else if m = .insert then .pass
  else .key p.key

def disposition (keys : KeySettings) (m : Mode) (p : Press) : Disposition :=
  match intake keys m p with
  | .pass => .pass
  | _ => .suppress

/-! ## The step -/

namespace Edit

variable {S : Type}

def openOneShot : Edit S := toNormal ++ update fun s => { s with oneShot := true }

/-- Leaves any mode and drops all that is unfinished. -/
def escape : Edit S := look fun _ s =>
  (if s.mode.isSelecting then request (typed [.plain .right]) else skip) ++
    update (fun s => { s with operator := none, oneShot := false }) ++ toNormal ++ clearPending

def modeKey (m : Mode) (k : Key) : Edit S :=
  match m with
  | .normal => normalKey k
  | .visual | .visualLine => visualKey k
  | .operatorMotion => motionKey k
  | .operatorObject => objectKey k
  | .visualObject => visualObjectKey k
  | .insert | .search => skip

def ofIntake (m : Mode) : Intake → Edit S
  | .pass => skip
  | .oneShot => openOneShot
  | .closeFind => toNormal
  | .escape => escape
  | .key k => modeKey m k

def press (p : Press) : Edit S := look fun cx s =>
  ofIntake s.mode (intake cx.config.keys s.mode p)

end Edit

/-! ## Lemmas -/

theorem disposition_eq_pass_iff (keys : KeySettings) (m : Mode) (p : Press) :
    disposition keys m p = .pass ↔ intake keys m p = .pass := by
  unfold disposition
  cases intake keys m p <;> simp

end ModalInput
