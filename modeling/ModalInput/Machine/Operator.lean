import ModalInput.Key.Press
import ModalInput.Machine.Edit

/-!
# Operators and their motions

An operator is completed by its own letter, which takes the line, by a text object, or by `i` or
`a` and then a text object.  Any other key gives the operator up.
-/

namespace ModalInput.Edit

variable {S : Type}

def abandon : Edit S := update (fun s => { s with operator := none }) ++ toNormal

/-- The key after an operator.  Without an operator there is nothing to complete. -/
def motionKey (k : Key) : Edit S := look fun _ s =>
  match s.operator, k.char? with
  | none, _ => toNormal
  | some _, none => abandon ++ finish
  | some op, some c =>
    if c = 'i' ∨ c = 'a' then enter .operatorObject
    else if c = op.letter then request (typed (Gesture.wholeLines 1)) ++ operate op ++ finish
    else
      match TextObject.ofChar? c with
      | some o => request (typed (o.extendToEnd)) ++ operate op ++ finish
      | none => abandon ++ finish

/-- The key after an operator and `i` or `a`: first to the start of the object, then its motion. -/
def objectKey (k : Key) : Edit S :=
  match k.char?.bind TextObject.ofChar? with
  | some o => request (typed (o.toStart)) ++ motionKey k
  | none => abandon ++ finish

end ModalInput.Edit
