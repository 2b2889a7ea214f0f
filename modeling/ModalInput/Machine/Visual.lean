import ModalInput.Key.Press
import ModalInput.Machine.Edit

/-!
# Visual modes

A key extends the selection, runs an operator on it, or asks for a text object.  A key that is not
in the table does nothing at all, without an announcement.
-/

namespace ModalInput.Edit

variable {S : Type}

def visualKey (k : Key) : Edit S :=
  match k.char?.bind VisualEntry.ofChar? with
  | some (.extend m) => request (typed m.extending)
  | some (.operate op) => operate op
  | some .object => enter .visualObject
  | none => skip

/-- The object that the selection becomes.  Whatever the key, the selection goes on by lines, as it
is, without the calls that open a selection by lines. -/
def visualObjectKey (k : Key) : Edit S :=
  (match k.char?.bind TextObject.ofChar? with
    | some o => request (typed (o.selectAll))
    | none => skip) ++ enter .visualLine

end ModalInput.Edit
