import AprsRelay.Toml.Scanner

/-!
# Blanks, Comments and Strings of TOML

The smallest parts of a TOML text. Blanks are spaces and tabs, and lines end
in a line feed with or without a carriage return before it. Strings come in
four forms: with or without escapes, on one line or on several.

## Main definitions

* `blanks`, `newline`, `comment`, `gap`: What stands between values.
* `lineEnd`: The rest of a line that holds nothing more.
* `basicString`, `literalString`: Strings on one line.
* `quoted`: Any string.
-/

namespace AprsRelay

namespace Toml

open Scanner

/-- The spaces and tabs between two parts of a line. -/
def isGapChar (c : Char) : Bool :=
  c == ' ' || c == '\t'

/-- Characters beyond ASCII. -/
def isBeyondAscii (c : Char) : Bool :=
  0x80 ≤ c.toNat

/-- Characters that may stand in a comment. -/
def isCommentChar (c : Char) : Bool :=
  c == '\t' || (0x20 ≤ c.toNat && c.toNat ≤ 0x7E) || isBeyondAscii c

/-- Characters that stand for themselves in a string with escapes: all but the
    double quote, the backslash and control characters. -/
def isBasicChar (c : Char) : Bool :=
  isCommentChar c && c != '\x22' && c != '\x5c'

/-- Characters that stand for themselves in a string without escapes: all but
    the single quote and control characters. -/
def isLiteralChar (c : Char) : Bool :=
  isCommentChar c && c != '\x27'

/-- Spaces and tabs, if any. -/
def blanks : Scanner Unit := do
  let _ ← run isGapChar

/-- A line feed, perhaps with a carriage return before it. -/
def newline : Scanner Unit :=
  exactly '\n' <|> literal ['\r', '\n']

/-- A comment up to the end of its line. -/
def comment : Scanner Unit := do
  exactly '#'
  let _ ← run isCommentChar

/-- Blanks, comments and line ends, if any. -/
def gap : Scanner Unit := do
  let _ ← many ((do let _ ← someRun isGapChar) <|> newline <|> comment)

/-- The rest of a line that holds nothing more than a comment. -/
def lineEnd : Scanner Unit := do
  blanks
  let _ ← optionally comment
  newline <|> atEnd

/-- Hexadecimal digits. -/
def isHexDigit (c : Char) : Bool :=
  c.isDigit || ('a' ≤ c && c ≤ 'f') || ('A' ≤ c && c ≤ 'F')

/-- The number that a hexadecimal digit denotes. -/
def hexValue (c : Char) : Nat :=
  if c.isDigit then c.toNat - '0'.toNat
  else if 'a' ≤ c then c.toNat - 'a'.toNat + 10
  else c.toNat - 'A'.toNat + 10

/-- The number that digits denote in the given base. -/
def valueInBase (base : Nat) (digits : List Char) : Nat :=
  digits.foldl (fun n d => base * n + hexValue d) 0

/-- A character written as its number in `n` hexadecimal digits. -/
def numberedChar (n : Nat) : Scanner Char := do
  let digits ← times isHexDigit n
  let code := valueInBase 16 digits
  if code.isValidChar then return Char.ofNat code else failure

/-- A character written with a backslash. -/
def escape : Scanner Char := do
  exactly '\x5c'
  let c ← oneOf fun _ => true
  match c with
  | 'b' => return '\x08'
  | 't' => return '\t'
  | 'n' => return '\n'
  | 'f' => return '\x0c'
  | 'r' => return '\r'
  | '\x22' => return '\x22'
  | '\x5c' => return '\x5c'
  | 'u' => numberedChar 4
  | 'U' => numberedChar 8
  | _ => failure

/-- A character written with a backslash, as a part of a string. -/
def escaped : Scanner (List Char) := do
  let c ← escape
  return [c]

/-- A string on one line between double quotes. -/
def basicString : Scanner String := do
  exactly '\x22'
  let parts ← many (someRun isBasicChar <|> escaped)
  exactly '\x22'
  return String.ofList parts.flatten

/-- A string on one line between single quotes. -/
def literalString : Scanner String := do
  exactly '\x27'
  let cs ← run isLiteralChar
  exactly '\x27'
  return String.ofList cs

/-- A backslash at the end of a line, with the blank space up to the next
    character that is not blank. -/
def continuation : Scanner Unit := do
  exactly '\x5c'
  blanks
  newline
  let _ ← many ((do let _ ← someRun isGapChar) <|> newline)

/-- One or two quotes inside a string of several lines. -/
def innerQuotes (quote : Char) : Scanner (List Char) := do
  let quotes ← run (· == quote)
  if quotes.length = 1 ∨ quotes.length = 2 then return quotes else failure

/-- The three quotes that end a string of several lines. Up to two more before
    them belong to the string. -/
def closingQuotes (quote : Char) : Scanner (List Char) := do
  let quotes ← run (· == quote)
  if 3 ≤ quotes.length ∧ quotes.length ≤ 5 then return quotes.drop 3 else failure

/-- A string of several lines whose parts are read by `part`. A line end behind
    the opening quotes does not count. -/
def longString (quote : Char) (part : Scanner (List Char)) : Scanner String := do
  literal [quote, quote, quote]
  let _ ← optionally newline
  let parts ← many (innerQuotes quote <|> part)
  let last ← closingQuotes quote
  return String.ofList (parts.flatten ++ last)

/-- A line end in a string of several lines. -/
def innerNewline : Scanner (List Char) := do
  newline
  return ['\n']

/-- A string of several lines between double quotes. -/
def longBasicString : Scanner String :=
  longString '\x22'
    (someRun isBasicChar <|> innerNewline <|> (do continuation; return []) <|> escaped)

/-- A string of several lines between single quotes. -/
def longLiteralString : Scanner String :=
  longString '\x27' (someRun isLiteralChar <|> innerNewline)

/-- A string in any of its four forms. -/
def quoted : Scanner String :=
  longBasicString <|> basicString <|> longLiteralString <|> literalString

end Toml

end AprsRelay
