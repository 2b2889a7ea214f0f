import ModalInput.Toml.Reader

/-!
# Lexical elements of TOML

Blanks, line ends, comments, strings and keys.  Control characters other than the tab stand in no
comment and no string, except for the line ends of a string over several lines.
-/

namespace ModalInput.Toml

open Reader

/-! ## Blanks and comments -/

def isBlank (c : Char) : Bool := c == ' ' || c == '\t'

def blanks : Reader Unit := do
  let _ ← takeWhile isBlank

def newline : Reader Unit := char '\n' <|> word "\r\n"

def isPrintable (c : Char) : Bool := c == '\t' || (32 ≤ c.toNat && c.toNat != 127)

def comment : Reader Unit := do
  char '#'
  let _ ← takeWhile isPrintable

def lineEnd : Reader Unit := newline <|> endOfText

/-- What may follow a header or a value on its line. -/
def restOfLine : Reader Unit := do
  blanks
  let _ ← optional comment
  lineEnd

/-- What may stand between the parts of an array; a comment there ends with its line. -/
def gap : Reader Unit := do
  let _ ← many ((do let _ ← takeWhile1 isBlank) <|> newline <|> (do comment; newline))

/-! ## Escapes -/

def isHexDigit (c : Char) : Bool :=
  c.isDigit || ('a' ≤ c && c ≤ 'f') || ('A' ≤ c && c ≤ 'F')

def hexValue (c : Char) : Nat :=
  if c.isDigit then c.toNat - 48 else c.toLower.toNat - 87

/-- The number that digits stand for in a base. -/
def valueIn (base : Nat) (ds : List Char) : Nat := ds.foldl (fun n d => base * n + hexValue d) 0

/-- A code point in `n` hexadecimal digits; surrogates are no characters. -/
def codePoint (n : Nat) : Reader Char := do
  let ds ← exactly n (satisfy isHexDigit)
  if (valueIn 16 ds).isValidChar then pure (Char.ofNat (valueIn 16 ds)) else failure

def escape : Reader Char := do
  char '\\'
  match ← satisfy (fun _ => true) with
  | 'b' => pure '\x08'
  | 'f' => pure '\x0c'
  | 'n' => pure '\n'
  | 'r' => pure '\r'
  | 't' => pure '\t'
  | '"' => pure '"'
  | '\\' => pure '\\'
  | 'u' => codePoint 4
  | 'U' => codePoint 8
  | _ => failure

/-! ## Strings -/

def isBasic (c : Char) : Bool := isPrintable c && c != '"' && c != '\\'

def isLiteral (c : Char) : Bool := isPrintable c && c != '\''

def escaped : Reader (List Char) := do
  let c ← escape
  pure [c]

def basicString : Reader (List Char) := do
  char '"'
  let parts ← many (takeWhile1 isBasic <|> escaped)
  char '"'
  pure parts.flatten

def literalString : Reader (List Char) := do
  char '\''
  let cs ← takeWhile isLiteral
  char '\''
  pure cs

/-- A line end in a string counts as a line feed. -/
def lineFeed : Reader (List Char) := do
  newline
  pure ['\n']

/-- A backslash at the end of a line joins it to the next text, over any blanks and empty lines. -/
def continuation : Reader (List Char) := do
  char '\\'
  blanks
  newline
  let _ ← many ((do let _ ← takeWhile1 isBlank) <|> newline)
  pure []

/-- One or two quotes belong to the string. -/
def innerQuotes (quote : Char) : Reader (List Char) := do
  let qs ← takeWhile1 (· == quote)
  if qs.length ≤ 2 then pure qs else failure

/-- Three quotes end the string; up to two more in front of them belong to it. -/
def closingQuotes (quote : Char) : Reader (List Char) := do
  let qs ← takeWhile (· == quote)
  if 3 ≤ qs.length ∧ qs.length ≤ 5 then pure (qs.drop 3) else failure

/-- A string over several lines.  A line end right after the opening quotes is not part of it. -/
def multilineString (quote : Char) (part : Reader (List Char)) : Reader (List Char) := do
  let _ ← exactly 3 (char quote)
  let _ ← optional newline
  let parts ← many (part <|> innerQuotes quote)
  let tail ← closingQuotes quote
  pure (parts.flatten ++ tail)

def multilineBasic : Reader (List Char) :=
  multilineString '"' (takeWhile1 isBasic <|> continuation <|> escaped <|> lineFeed)

def multilineLiteral : Reader (List Char) :=
  multilineString '\'' (takeWhile1 isLiteral <|> lineFeed)

def string : Reader String := do
  let cs ← multilineBasic <|> basicString <|> multilineLiteral <|> literalString
  pure (String.ofList cs)

/-! ## Keys -/

def isBareKey (c : Char) : Bool := c.isAlphanum || c == '_' || c == '-'

def keyPart : Reader String := do
  blanks
  let cs ← takeWhile1 isBareKey <|> basicString <|> literalString
  blanks
  pure (String.ofList cs)

/-- How deep keys, arrays and inline tables may go. -/
def maxDepth : Nat := 79

/-- A key with dots: the tables that it leads through, and its last part. -/
def key : Reader (List String × String) := do
  let parts ← sepBy1 (char '.') keyPart
  match parts.getLast? with
  | some last => if parts.length ≤ maxDepth then pure (parts.dropLast, last) else failure
  | none => failure

end ModalInput.Toml
