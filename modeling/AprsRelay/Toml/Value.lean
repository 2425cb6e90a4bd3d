/-!
# TOML Values

What a TOML text holds. No setting is a number or a point in time, so of these
values only the kind is kept.

Tables differ in how they came about, which decides how they may grow. A table
with a header of its own cannot be declared again. A table that only stands on
the way to another can still get its header. A table made by dotted keys can
grow by dotted keys. A table between braces is complete.

## Main definitions

* `Origin`: How a table came about.
* `Value`: A value.
* `Entries`: The keys of a table with their values.
* `Entries.get?`, `set`: Looking up and replacing a value.
* `Entries.under`: A change somewhere below a table.
* `Entries.insertPair`, `declareTable`, `declareElement`: The three ways in
  which a text adds to a table.
-/

namespace AprsRelay

namespace Toml

/-- How a table came about. -/
inductive Origin where
  | header
  | implied
  | dotted
  | inline
  deriving DecidableEq, Repr

/-- A value. The last case is an array whose elements are tables with headers
    of their own. -/
inductive Value where
  | string (s : String)
  | boolean (b : Bool)
  | number
  | moment
  | array (items : List Value)
  | table (origin : Origin) (entries : List (String × Value))
  | tables (elements : List (List (String × Value)))
  deriving Repr

/-- The keys of a table with their values. -/
abbrev Entries := List (String × Value)

namespace Entries

/-- The value of a key. -/
def get? (entries : Entries) (key : String) : Option Value :=
  (entries.find? fun entry => entry.1 = key).map (·.2)

/-- The entries with another value for a key, which comes last if it is new. -/
def set (key : String) (value : Value) : Entries → Entries
  | [] => [(key, value)]
  | entry :: entries =>
    if entry.1 = key then (key, value) :: entries else entry :: set key value entries

/-- Whether a table may be entered. Dotted keys cannot enter a table with a
    header of its own, and nothing can enter a table between braces. -/
def mayEnter (byDots : Bool) : Origin → Bool
  | .header => !byDots
  | .implied | .dotted => true
  | .inline => false

/-- The origin of tables made on the way. -/
def madeOnTheWay (byDots : Bool) : Origin :=
  if byDots then .dotted else .implied

/-- Change the table at the end of a path. Tables on the way are made where
    they are missing, and an array of tables is entered at its last element.
    `change` is given the origin of the table that it changes. -/
def under (byDots : Bool) (change : Origin → Entries → Option Entries) :
    List String → Origin → Entries → Option Entries
  | [], origin, entries => change origin entries
  | key :: path, _, entries =>
    match entries.get? key with
    | none => do
      -- Nothing stands in the way, so the tables up to the end of the path are made.
      let made := madeOnTheWay byDots
      let below ← under byDots change path made []
      return entries.set key (.table made below)
    | some (.table origin below) =>
      if mayEnter byDots origin then do
        let below ← under byDots change path origin below
        return entries.set key (.table origin below)
      else none
    | some (.tables elements) => do
      -- Whatever follows an element belongs to it until the next one begins.
      let last ← elements.getLast?
      let below ← under byDots change path .header last
      return entries.set key (.tables (elements.dropLast ++ [below]))
    | some _ => none

/-- Add a key that a table does not have yet. -/
def insertNew (key : String) (value : Value) (entries : Entries) : Option Entries :=
  match entries.get? key with
  | none => some (entries.set key value)
  | some _ => none

/-- Add a value under a dotted key. A dotted key of several parts ends in a
    table made by dotted keys. -/
def insertPair (path : List String) (key : String) (value : Value) (entries : Entries) :
    Option Entries :=
  under true
    (fun origin below =>
      -- Only a table that dotted keys have made can grow by further ones.
      if path = [] ∨ origin = .dotted then insertNew key value below else none)
    path .header entries

/-- Add a table with the given header, or give the header to a table that was
    only implied. -/
def declareTable (path : List String) (key : String) (entries : Entries) : Option Entries :=
  under false
    (fun _ below =>
      match below.get? key with
      | none => some (below.set key (.table .header []))
      | some (.table .implied inner) => some (below.set key (.table .header inner))
      | some _ => none)
    path .header entries

/-- Add an element to the array of tables with the given header. -/
def declareElement (path : List String) (key : String) (entries : Entries) : Option Entries :=
  under false
    (fun _ below =>
      match below.get? key with
      | none => some (below.set key (.tables [[]]))
      | some (.tables elements) => some (below.set key (.tables (elements ++ [[]])))
      | some _ => none)
    path .header entries

end Entries

end Toml

end AprsRelay
