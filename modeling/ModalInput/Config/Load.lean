import ModalInput.Config.Decode

/-!
# Loading settings

Settings come from a file.  A missing file counts as an empty one.  A file that was asked for has
to be good; the one in the home directory gives way to the defaults if it is not.
-/

namespace ModalInput

/-- Where the home directory has the settings. -/
def Config.homePath : List String := [".config", "modal-keys", "config.toml"]

/-! ## Files -/

inductive ReadFailure where
  | isDirectory
  /-- The path goes on below something that is no directory. -/
  | notDirectory
  | nameTooLong
  | notUtf8
  | other (message : String)
  deriving DecidableEq, Repr

def ReadFailure.message : ReadFailure → String
  | .isDirectory => "Is a directory (os error 21)"
  | .notDirectory => "Not a directory (os error 20)"
  | .nameTooLong => "File name too long (os error 36)"
  | .notUtf8 => "stream did not contain valid UTF-8"
  | .other message => message

/-- What reading a file comes to. -/
inductive FileResult where
  | missing
  | failed (f : ReadFailure)
  | content (bytes : ByteArray)

/-! ## Loading -/

inductive LoadError where
  | io (f : ReadFailure)
  /-- The text is no TOML, or a setting is of the wrong kind. -/
  | invalid
  deriving DecidableEq, Repr

def LoadError.message : LoadError → String
  | .io f => "IO error: " ++ f.message
  | .invalid => "Invalid config"

def Config.load : FileResult → Except LoadError Config
  | .missing => .ok .default
  | .failed f => .error (.io f)
  | .content bytes =>
    match String.fromUTF8? bytes with
    | none => .error (.io .notUtf8)
    | some s =>
      match Config.parse? s with
      | some c => .ok c
      | none => .error .invalid

/-- The settings to go on with, and what is wrong with the file if they are the defaults for that
reason. -/
def Config.loadOrDefault (r : FileResult) : Config × List LoadError :=
  match Config.load r with
  | .ok c => (c, [])
  | .error e => (.default, [e])

end ModalInput
