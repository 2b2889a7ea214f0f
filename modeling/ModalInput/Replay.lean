import ModalInput.Key.Notation
import ModalInput.Session

/-!
# Replay

Runs presses through a new interpreter on a new recording and lists what happens: the presses that
pass, the calls, and the announcements.  The recording is drained after every press.  Text and
JSON are two renderings of the same items.
-/

namespace ModalInput.Replay

/-! ## Items -/

inductive Item where
  | pass (p : Press)
  | call (c : Call Span)
  | status (s : Status)
  deriving DecidableEq, Repr

def Item.isStatus : Item → Bool
  | .status _ => true
  | _ => false

/-- What a recording holds: its calls and then its announcements. -/
def recorded (r : Recording) : List Item := r.calls.map .call ++ r.statuses.map .status

def passed (d : Disposition) (p : Press) : List Item :=
  match d with
  | .pass => [.pass p]
  | .suppress => []

/-- The items of presses on a session whose recording is drained. -/
def itemsFrom (s : Session) : List Press → List Item
  | [] => []
  | p :: rest =>
    let t := s.step (.press p)
    passed (s.disposition p) p ++ recorded t.surface ++ itemsFrom t.drain rest

def items (c : Config) (ps : List Press) : List Item :=
  let s := (Session.new c .new).step .start
  recorded s.surface ++ itemsFrom s.drain ps

/-! ## Output -/

structure Format where
  json : Bool
  /-- Announcements are written too. -/
  status : Bool
  deriving DecidableEq, Repr

def styleJson (s : Style) : Text.Json :=
  .obj [("background", .str s.background), ("foreground", .str s.foreground)]

/-- The fields are in alphabetical order, other than those of a call. -/
def Item.toJson : Item → Text.Json
  | .pass p =>
    .obj [("pass", .obj [("alt", .bool p.alt), ("ctrl", .bool p.control), ("key", .str p.name),
      ("meta", .bool p.super), ("shift", .bool p.shift)])]
  | .call c => c.toJson
  | .status s =>
    .obj [("status", .obj [("caret_visible", .bool s.caretVisible), ("mode", .str s.mode.name),
      ("style", styleJson s.style), ("text", .str s.text)])]

def Item.text : Item → String
  | .pass p => "pass " ++ p.name
  | .call c => c.text
  | .status s => s.line

def Format.line (f : Format) (i : Item) : String :=
  (if f.json then i.toJson.render else i.text) ++ "\n"

def Format.output (f : Format) (is : List Item) : String :=
  String.join ((is.filter fun i => f.status || !i.isStatus).map f.line)

/-- The whole output; a bad notation leaves none at all. -/
def run (c : Config) (f : Format) (keys : String) : Except Notation.Fault String :=
  match Notation.parse keys with
  | .ok ps => .ok (f.output (items c ps))
  | .error e => .error e

end ModalInput.Replay
