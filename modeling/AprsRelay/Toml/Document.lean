import AprsRelay.Toml.Moment
import AprsRelay.Toml.Number
import AprsRelay.Toml.Value

/-!
# TOML Documents

A document is a list of items, each on lines of its own: pairs of a dotted key
and a value, and headers that say to which table the pairs below belong. An
item that contradicts an earlier one makes the document invalid, as does any
text that is no item.

## Main definitions

* `dottedKey`: A key of one part or more.
* `value`: A value with at most the given depth of brackets.
* `Item`: What the lines of a document say.
* `items`: The items of a document.
* `State.apply`: The effect of an item.
* `parse`: The root table of a document.
-/

namespace AprsRelay

namespace Toml

open Scanner

/-- Characters of a key without quotes. -/
def isBareKeyChar (c : Char) : Bool :=
  c.isAlphanum || c == '_' || c == '-'

/-- A key without quotes. -/
def bareKey : Scanner String :=
  String.ofList <$> someRun isBareKeyChar

/-- One part of a key, with the blanks around it. -/
def keyPart : Scanner String := do
  blanks
  let key ← basicString <|> literalString <|> bareKey
  blanks
  return key

/-- The greatest depth of nesting, of brackets as well as of keys. -/
def maxDepth : Nat := 79

/-- A key of one part or more: the parts before the last one, and the last. -/
def dottedKey : Scanner (List String × String) := do
  let parts ← separated (exactly '.') keyPart
  match parts.getLast? with
  | none => failure
  | some last => if parts.length ≤ maxDepth then return (parts.dropLast, last) else failure

/-- A value without brackets. -/
def scalar : Scanner Value :=
  (Value.string <$> quoted) <|> (do moment; return .moment) <|>
    (do numeral; return .number) <|>
    (do literal ['t', 'r', 'u', 'e']; return .boolean true) <|>
    (do literal ['f', 'a', 'l', 's', 'e']; return .boolean false)

/-- The values between square brackets. A comma may follow the last. -/
def arrayItems (inner : Scanner Value) : Scanner (List Value) :=
  (do let vs ← separated (exactly ',') (do gap; let v ← inner; gap; return v)
      let _ ← optionally (exactly ',')
      gap
      return vs) <|>
    (do gap; return [])

/-- An array between square brackets. -/
def array (inner : Scanner Value) : Scanner Value := do
  exactly '['
  let vs ← arrayItems inner
  exactly ']'
  return .array vs

/-- A pair: a dotted key and its value. -/
def pair (inner : Scanner Value) : Scanner ((List String × String) × Value) := do
  let key ← dottedKey
  exactly '='
  blanks
  let v ← inner
  return (key, v)

/-- A table between braces, on one line. -/
def inlineTable (inner : Scanner Value) : Scanner Value := do
  exactly '\x7b'
  let pairs ← separated (exactly ',') (do let p ← pair inner; blanks; return p) <|> pure []
  blanks
  exactly '\x7d'
  match pairs.foldlM (fun entries (key, v) => Entries.insertPair key.1 key.2 v entries) [] with
  | none => failure
  | some entries => return .table .inline entries

/-- A value with at most the given depth of brackets. -/
def value : Nat → Scanner Value
  | 0 => scalar
  | depth + 1 => array (value depth) <|> inlineTable (value depth) <|> scalar

/-- What the lines of a document say. -/
inductive Item where
  | pair (path : List String) (key : String) (value : Value)
  | table (path : List String) (key : String)
  | element (path : List String) (key : String)
  deriving Repr

/-- The header of an element of an array of tables. -/
def elementHeader : Scanner Item := do
  literal ['[', '[']
  let (path, key) ← dottedKey
  literal [']', ']']
  lineEnd
  return .element path key

/-- The header of a table. -/
def tableHeader : Scanner Item := do
  exactly '['
  let (path, key) ← dottedKey
  exactly ']'
  lineEnd
  return .table path key

/-- A pair on a line of its own. -/
def pairLine : Scanner Item := do
  let ((path, key), v) ← pair (value maxDepth)
  lineEnd
  return .pair path key v

/-- A line that says nothing. -/
def emptyLine : Scanner Unit :=
  newline <|> (do comment; newline <|> atEnd)

/-- The items of a document. A byte order mark may come first. -/
def items : Scanner (List Item) := do
  let _ ← optionally (exactly '\ufeff')
  blanks
  -- Lines that say nothing are read as well, and dropped at the end.
  let lines ← many (do
    let line ← (do emptyLine; return none) <|>
      (some <$> (elementHeader <|> tableHeader <|> pairLine))
    blanks
    return line)
  atEnd
  return lines.filterMap id

/-- The tables built so far, and the path of the table to which pairs belong. -/
structure State where
  root : Entries
  current : List String

namespace State

/-- The effect of an item, unless it contradicts an earlier one. -/
def apply (s : State) : Item → Option State
  | .pair path key v => do
    -- The pair belongs to the table of the last header, or else to the root.
    let root ← s.root.under false (fun _ => Entries.insertPair path key v) s.current .header
    return { s with root }
  | .table path key => do
    let root ← s.root.declareTable path key
    return ⟨root, path ++ [key]⟩
  | .element path key => do
    let root ← s.root.declareElement path key
    return ⟨root, path ++ [key]⟩

end State

/-- The root table of a document, unless the text is not well formed. -/
def parse (text : String) : Option Entries := do
  let items ← items.readAll text.toList
  let s ← items.foldlM State.apply ⟨[], []⟩
  return s.root

end Toml

end AprsRelay
