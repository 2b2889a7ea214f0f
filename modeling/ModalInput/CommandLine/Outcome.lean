import ModalInput.CommandLine.Request
import ModalInput.Config.Load

/-!
# Outcomes of the command line

What a request writes, and the exit code: 0 for a success, 1 for settings or keys that are no good,
2 for arguments that are none.  A run that fails writes nothing to its output.
-/

namespace ModalInput.CommandLine

structure Outcome where
  exitCode : Nat
  output : String
  /-- Remarks beside the output. -/
  messages : List String
  deriving DecidableEq, Repr

/-! ## Help -/

def versionText : String := "modal-keys 0.1.0\n"

def usageLine (rest : String) : String := "Usage: modal-keys " ++ rest ++ "\n"

def commonOptions : String :=
  "      --config <CONFIG>  Config file to use instead of ~/.config/modal-keys/config.toml\n" ++
  "  -h, --help             Print help\n"

def helpText : Topic → String
  | .program =>
    "Vim-style modal commands for keystroke-driven editing surfaces\n\n" ++
    usageLine "[OPTIONS] <COMMAND>" ++
    "\nCommands:\n" ++
    "  replay  Interpret keys written in Vim notation and print the surface calls\n" ++
    "  live    Interpret keys typed in this terminal (Ctrl+C exits)\n" ++
    "  help    Print this message or the help of the given subcommand(s)\n" ++
    "\nOptions:\n" ++ commonOptions ++
    "  -V, --version          Print version\n"
  | .verb .replay =>
    "Interpret keys written in Vim notation and print the surface calls\n\n" ++
    usageLine "replay [OPTIONS] <KEYS>" ++
    "\nArguments:\n" ++
    "  <KEYS>  Keys such as '5dd', 'ciw' or 'i<C-o>w<Esc>'\n" ++
    "\nOptions:\n" ++
    "      --json             Print one JSON object per line\n" ++
    "      --status           Also print every status announcement\n" ++ commonOptions
  | .verb .live =>
    "Interpret keys typed in this terminal (Ctrl+C exits)\n\n" ++
    usageLine "live [OPTIONS]" ++
    "\nOptions:\n" ++
    "      --json             Print one JSON object per line\n" ++ commonOptions
  | .help =>
    "Print this message or the help of the given subcommand(s)\n\n" ++
    usageLine "help [COMMAND]..."

/-! ## Runs -/

/-- The settings of a run, from the file that it names or else from the home directory; `file` is
what reading that file comes to.  A file that is named has to be good. -/
def settings (named : Option String) (file : FileResult) :
    Except LoadError (Config × List LoadError) :=
  match named with
  | some _ => (Config.load file).map fun c => (c, [])
  | none => .ok (Config.loadOrDefault file)

def runJob (c : Config) : Job → Except String String
  | .replay keys format => (Replay.run c format keys).mapError Notation.Fault.message
  | .live _ => .error "live input needs a terminal in raw mode"

def run (named : Option String) (j : Job) (file : FileResult) : Outcome :=
  match settings named file with
  | .error e => ⟨1, "", [e.message]⟩
  | .ok (c, ignored) =>
    match runJob c j with
    | .ok output => ⟨0, output, ignored.map LoadError.message⟩
    | .error e => ⟨1, "", ignored.map LoadError.message ++ [e]⟩

/-- `file` is what reading the settings comes to; only runs look at it. -/
def Request.outcome (r : Request) (file : FileResult) : Outcome :=
  match r with
  | .usage => ⟨2, "", [helpText .program]⟩
  | .help t => ⟨0, helpText t, []⟩
  | .version => ⟨0, versionText, []⟩
  | .run named j => CommandLine.run named j file

end ModalInput.CommandLine
