import ModalInput.Machine.Operator

/-!
# Normal mode

A key is, in this order, a digit of the count, the argument of the leader that is pending, a
command, or a leader.  A key that is none of these clears what is pending.
-/

namespace ModalInput.Edit

variable {S : Type}

/-! ## Sequences of two keys -/

/-- A host without a selection, and a character that is no label, leave the marks as they are. -/
def setMark (label : Char) : Edit S := look fun cx _ =>
  match cx.host.selection with
  | some sel => update fun s => { s with marks := s.marks.set label sel }
  | none => skip

/-- Restores a mark that is set; by lines, it goes on to the start of the line. -/
def jump (label : Char) (linewise : Bool) : Edit S := look fun _ s =>
  match s.marks.get? label with
  | some sel => request (.restore sel :: if linewise then typed [.plain .home] else [])
  | none => skip

def sequence (l : Leader) (c : Char) (count : Nat) : Edit S :=
  match l with
  | .mark => setMark c
  | .jump linewise => jump c linewise
  | .go => if c = 'g' then request (typed (Gesture.toLine count)) else skip
  | .operator op =>
    if c = op.letter then request (typed (Gesture.wholeLines count)) ++ operate op
    else
      update (fun s => { s with operator := some op }) ++ enter .operatorMotion ++
        motionKey (.char c)

/-! ## Single keys -/

/-- The mode that a command leads to once its calls are made. -/
def afterCommand : Command → Edit S
  | .insert _ | .openLine _ | .cutLineEnd true => enter .insert
  | .select false => toVisual
  | .select true => toVisualLine
  | .find => enter .search
  | _ => skip

def command (c : Command) (count : Nat) (counted : Bool) : Edit S :=
  request (c.calls count counted) ++ afterCommand c

def normalChar (c : Char) : Edit S := look fun cx s =>
  let limit := cx.config.keys.countLimit
  let count := s.pending.count limit
  if s.pending.accepts c then
    update (fun s => { s with pending := s.pending.push limit c }) ++ announce
  else
    match s.pending.leader, NormalEntry.ofChar? c with
    | some l, _ =>
      update (fun s => { s with pending := { s.pending with argument := some c } }) ++
        sequence l c count ++ clearPending ++ finish
    | none, some (.command cmd) =>
      command cmd count s.pending.hasCount ++ clearPending ++ finish
    | none, some (.leader l) =>
      update (fun s => { s with pending := { s.pending with leader := some l } }) ++ announce
    | none, none => clearPending

def normalKey (k : Key) : Edit S :=
  match k.char? with
  | some c => normalChar c
  | none => clearPending

end ModalInput.Edit
