import ModalInput.CommandLine.Outcome

/-!
# The program

Reads the settings that a request names, and writes its outcome.
-/

namespace ModalInput.CommandLine

/-- The settings in the home directory; without one they are missing. -/
def homeFile : IO (Option String) := do
  let home ← IO.getEnv "HOME"
  pure (home.map fun h => "/".intercalate (h :: Config.homePath))

/-- The system numbers its errors with either sign. -/
def isErrorNumber (n code : UInt32) : Bool := code = n || code = -n

def failureOf (e : IO.Error) : FileResult :=
  match e with
  | .noFileOrDirectory .. => .missing
  | .inappropriateType _ code _ =>
    .failed (if isErrorNumber 21 code then .isDirectory else .notDirectory)
  | .invalidArgument _ code _ =>
    .failed (if isErrorNumber 36 code then .nameTooLong else .other (toString e))
  | _ => .failed (.other (toString e))

def readSettings (path : String) : IO FileResult := do
  try
    let bytes ← IO.FS.readBinFile path
    pure (.content bytes)
  catch e => pure (failureOf e)

def Request.file : Request → IO FileResult
  | .run (some path) _ => readSettings path
  | .run none _ => do
    match ← homeFile with
    | some path => readSettings path
    | none => pure .missing
  | _ => pure .missing

end ModalInput.CommandLine

open ModalInput.CommandLine in
def main (args : List String) : IO UInt32 := do
  let request := parse args
  let file ← request.file
  let outcome := request.outcome file
  for m in outcome.messages do
    IO.eprintln m
  IO.print outcome.output
  pure outcome.exitCode.toUInt32
