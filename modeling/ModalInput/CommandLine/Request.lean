import ModalInput.Replay

/-!
# Requests on the command line

    [--config PATH] replay KEYS [--json] [--status]
    [--config PATH] live [--json]
    help [COMMAND]

Arguments are taken from left to right, and the first that is wrong, or that asks for help or for
the version, decides.  Each option is given at most once before the command and at most once behind
it; settings named behind the command win.

    parse args = args.foldlM Reading.next .start >>= Reading.finish
-/

namespace ModalInput.CommandLine

/-! ## Requests -/

/-- A command by its name. -/
inductive Verb where
  | replay
  | live
  deriving DecidableEq, Repr

def Verb.ofString? (s : String) : Option Verb :=
  if s = "replay" then some .replay
  else if s = "live" then some .live
  else none

inductive Topic where
  | program
  | verb (v : Verb)
  | help
  deriving DecidableEq, Repr

/-- The topic that an argument of `help` names. -/
def Topic.ofString? (s : String) : Option Topic :=
  if s = "help" then some .help else (Verb.ofString? s).map .verb

/-- A command with what it was given. -/
inductive Job where
  | replay (keys : String) (format : Replay.Format)
  | live (json : Bool)
  deriving DecidableEq, Repr

/-- What the arguments come to.  A run may name the file of its settings. -/
inductive Request where
  | usage
  | help (t : Topic)
  | version
  | run (settings : Option String) (j : Job)
  deriving DecidableEq, Repr

/-! ## Arguments -/

/-- An argument by its form. -/
inductive Argument where
  | plain (s : String)
  /-- Two dashes alone. -/
  | separator
  | long (name : String) (value : Option String)
  /-- Letters behind one dash. -/
  | short (first : Char)
  deriving DecidableEq, Repr

/-- A dash alone is a plain argument. -/
def Argument.ofString (s : String) : Argument :=
  match s.toList with
  | ['-', '-'] => .separator
  | '-' :: '-' :: rest =>
    .long (String.ofList (rest.takeWhile (· != '=')))
      (match rest.dropWhile (· != '=') with
        | [] => none
        | _ :: value => some (String.ofList value))
  | '-' :: c :: _ => .short c
  | _ => .plain s

/-! ## Reading -/

/-- The options and the keys that a command has been given. -/
structure Given where
  settings : Option String
  json : Bool
  status : Bool
  keys : Option String
  deriving DecidableEq, Repr

def Given.nothing : Given := ⟨none, false, false, none⟩

/-- What the next argument may be. -/
inductive Expecting where
  | anything
  /-- The value of the option before it. -/
  | value
  /-- Behind the separator nothing is an option. -/
  | keys
  deriving DecidableEq, Repr

inductive Reading where
  | program (settings : Option String) (expecting : Expecting)
  | help (topic : Option Topic)
  | command (v : Verb) (outer : Option String) (given : Given) (expecting : Expecting)
  deriving DecidableEq, Repr

def Reading.start : Reading := .program none .anything

/-- A second value is one too many, and an empty one counts as missing. -/
def takeValue (before : Option String) (v : String) : Except Request (Option String) :=
  if before.isSome ∨ v = "" then .error .usage else .ok (some v)

/-- The value of an option as an argument of its own. -/
def takeArgument (before : Option String) (arg : Argument) : Except Request (Option String) :=
  match arg with
  | .plain v => takeValue before v
  | _ => .error .usage

def programOption (settings : Option String) : Argument → Except Request Reading
  | .short 'h' => .error (.help .program)
  | .short 'V' => .error .version
  | .long "help" none => .error (.help .program)
  | .long "version" none => .error .version
  | .long "config" none => .ok (.program settings .value)
  | .long "config" (some path) => (takeValue settings path).map fun s => .program s .anything
  | .plain s =>
    if s = "help" then .ok (.help none)
    else
      match Verb.ofString? s with
      | some v => .ok (.command v settings .nothing .anything)
      | none => .error .usage
  | _ => .error .usage

/-- Only a replay takes keys, and it takes one argument of them. -/
def takeKeys (v : Verb) (g : Given) (s : String) : Except Request Given :=
  if v = .replay ∧ g.keys = none then .ok { g with keys := some s } else .error .usage

def commandOption (v : Verb) (outer : Option String) (g : Given) :
    Argument → Except Request Reading
  | .short 'h' => .error (.help (.verb v))
  | .long "help" none => .error (.help (.verb v))
  | .long "json" none =>
    if g.json then .error .usage else .ok (.command v outer { g with json := true } .anything)
  | .long "status" none =>
    if g.status ∨ v = .live then .error .usage
    else .ok (.command v outer { g with status := true } .anything)
  | .long "config" none => .ok (.command v outer g .value)
  | .long "config" (some path) =>
    (takeValue g.settings path).map fun s => .command v outer { g with settings := s } .anything
  | .separator => .ok (.command v outer g .keys)
  | .plain s => (takeKeys v g s).map fun g => .command v outer g .anything
  | _ => .error .usage

def Reading.next (r : Reading) (arg : String) : Except Request Reading :=
  match r with
  | .program settings .value =>
    (takeArgument settings (.ofString arg)).map fun s => .program s .anything
  | .program settings _ => programOption settings (.ofString arg)
  | .help none =>
    match Topic.ofString? arg with
    | some t => .ok (.help (some t))
    | none => .error .usage
  | .help (some _) => .error .usage
  | .command v outer g .value =>
    (takeArgument g.settings (.ofString arg)).map fun s =>
      .command v outer { g with settings := s } .anything
  | .command v outer g .keys => (takeKeys v g arg).map fun g => .command v outer g .keys
  | .command v outer g .anything => commandOption v outer g (.ofString arg)

/-- What is asked for when no argument is left. -/
def Reading.finish : Reading → Request
  | .program _ _ => .usage
  | .help t => .help (t.getD .program)
  | .command _ _ _ .value => .usage
  | .command .replay outer g _ =>
    match g.keys with
    | some keys => .run (g.settings.or outer) (.replay keys ⟨g.json, g.status⟩)
    | none => .usage
  | .command .live outer g _ => .run (g.settings.or outer) (.live g.json)

def parse (args : List String) : Request :=
  match args.foldlM Reading.next .start with
  | .ok r => r.finish
  | .error r => r

end ModalInput.CommandLine
