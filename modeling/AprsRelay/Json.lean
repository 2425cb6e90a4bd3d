/-!
# JSON Text

Values and their most compact text: no blanks, object keys in the order in
which they are given, and only those characters escaped that have to be.

## Main definitions

* `Json`: A value.
* `Json.escape`: A character inside a string.
* `Json.render`: The text of a value.
-/

namespace AprsRelay

/-- A value with whole numbers only. -/
inductive Json where
  | null
  | boolean (b : Bool)
  | number (v : Int)
  | string (s : String)
  | array (items : List Json)
  | object (members : List (String × Json))
  deriving Repr

namespace Json

/-- A natural number as a value. -/
def ofNat (n : Nat) : Json :=
  number n

/-- A hexadecimal digit, in small letters. -/
def hexDigit (n : Nat) : Char :=
  if n < 10 then Char.ofNat (0x30 + n) else Char.ofNat (0x57 + n)

/-- A character inside a string. Quotes, backslashes and control characters
    are escaped, with a letter if there is one and else by number. -/
def escape (c : Char) : List Char :=
  match c with
  | '\x22' => ['\x5c', '\x22']
  | '\x5c' => ['\x5c', '\x5c']
  | '\x08' => ['\x5c', 'b']
  | '\t' => ['\x5c', 't']
  | '\n' => ['\x5c', 'n']
  | '\x0c' => ['\x5c', 'f']
  | '\r' => ['\x5c', 'r']
  | c =>
    if c.toNat < 0x20 then
      ['\x5c', 'u', '0', '0', hexDigit (c.toNat / 16), hexDigit (c.toNat % 16)]
    else [c]

/-- The text of a string, with its quotes. -/
def renderString (s : String) : String :=
  String.ofList ('\x22' :: s.toList.flatMap escape ++ ['\x22'])

mutual

/-- The text of a value. -/
def render : Json → String
  | null => "null"
  | boolean true => "true"
  | boolean false => "false"
  | number v => toString v
  | string s => renderString s
  | array items => "[" ++ ",".intercalate (renderItems items) ++ "]"
  | object members => "\x7b" ++ ",".intercalate (renderMembers members) ++ "\x7d"

/-- The texts of the items of an array. -/
def renderItems : List Json → List String
  | [] => []
  | item :: items => item.render :: renderItems items

/-- The texts of the members of an object. -/
def renderMembers : List (String × Json) → List String
  | [] => []
  | (key, value) :: members => (renderString key ++ ":" ++ value.render) :: renderMembers members

end

end Json

end AprsRelay
