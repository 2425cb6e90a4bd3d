/-!
# Options

The command line of the program. Every option may be given once, with its
value in the same argument or in the next. Nothing but options is accepted.

## Main definitions

* `Options`: What the command line asks for.
* `OptionName`: The options that take a value.
* `Argument`: How a single argument reads.
* `Options.parse`: The options in a list of arguments.
-/

namespace AprsRelay

/-- What the command line asks for. -/
structure Options where
  stationFile : String
  blockFile : Option String
  input : Option String
  interface : Option String
  json : Bool
  deriving DecidableEq, Repr

/-- The options that take a value. -/
inductive OptionName where
  | stationFile
  | blockFile
  | input
  | interface
  deriving DecidableEq, Repr

namespace OptionName

/-- The option with the given long name. -/
def ofLong? : List Char → Option OptionName
  | name =>
    if name = "config".toList then some stationFile
    else if name = "digipeaters".toList then some blockFile
    else if name = "input".toList then some input
    else if name = "interface".toList then some interface
    else none

/-- The option with the given letter. -/
def ofLetter? : Char → Option OptionName
  | 'c' => some stationFile
  | 'd' => some blockFile
  | 'i' => some input
  | _ => none

/-- Whether the value of an option may be empty. File names may not. -/
def allowsEmpty : OptionName → Bool
  | interface => true
  | stationFile | blockFile | input => false

end OptionName

/-- How a single argument reads. The value of an option is absent if it is to
    follow in the next argument. -/
inductive Argument where
  | json
  | option (name : OptionName) (value : Option String)
  | endOfOptions
  | unknown
  deriving DecidableEq, Repr

namespace Argument

/-- An argument that starts with two dashes, without them. -/
def ofLong (text : List Char) : Argument :=
  let name := text.takeWhile (· != '=')
  match text.dropWhile (· != '=') with
  | [] =>
    if name = [] then endOfOptions
    else if name = "json".toList then json
    else
      match OptionName.ofLong? name with
      | none => unknown
      | some name => option name none
  | _ :: value =>
    match OptionName.ofLong? name with
    | none => unknown
    | some name => option name (some (String.ofList value))

/-- An argument that starts with a single dash, by its letter and what follows
    it. A `=` between the two does not belong to the value. -/
def ofShort (letter : Char) (rest : List Char) : Argument :=
  match OptionName.ofLetter? letter with
  | none => unknown
  | some name =>
    match rest with
    | [] => option name none
    | '=' :: value => option name (some (String.ofList value))
    | value => option name (some (String.ofList value))

/-- How an argument reads. -/
def ofText (text : String) : Argument :=
  match text.toList with
  | '-' :: '-' :: rest => ofLong rest
  | '-' :: letter :: rest => ofShort letter rest
  | _ => unknown

/-- Arguments that cannot be the value of the option before them. A single
    dash can. -/
def looksLikeOption (text : String) : Bool :=
  match text.toList with
  | '-' :: _ :: _ => true
  | _ => false

end Argument

/-- The options that have been given so far. -/
structure GivenOptions where
  values : List (OptionName × String)
  json : Bool
  deriving DecidableEq, Repr

namespace GivenOptions

/-- No option has been given. -/
def empty : GivenOptions :=
  ⟨[], false⟩

/-- The value of an option. -/
def get? (given : GivenOptions) (name : OptionName) : Option String :=
  (given.values.find? fun entry => entry.1 = name).map (·.2)

/-- One more option, unless it has been given before or its value is empty and
    may not be. -/
def set? (given : GivenOptions) (name : OptionName) (value : String) : Option GivenOptions :=
  if (given.get? name).isSome ∨ (value = "" ∧ name.allowsEmpty = false) then none
  else some { given with values := given.values ++ [(name, value)] }

/-- The options in a list of arguments, together with those given before. -/
def read? (given : GivenOptions) : List String → Option GivenOptions
  | [] => some given
  | text :: rest =>
    match Argument.ofText text with
    | .json => if given.json then none else read? { given with json := true } rest
    | .endOfOptions => if rest = [] then some given else none
    | .unknown => none
    | .option name (some value) =>
      match given.set? name value with
      | none => none
      | some given => read? given rest
    | .option name none =>
      -- The value is the next argument, unless that looks like an option itself.
      match rest with
      | [] => none
      | value :: rest =>
        if Argument.looksLikeOption value then none
        else
          match given.set? name value with
          | none => none
          | some given => read? given rest

end GivenOptions

namespace Options

/-- The name of the station file where none is given. -/
def standardStationFile : String := "station.toml"

/-- What the given options ask for. -/
def ofGiven (given : GivenOptions) : Options where
  stationFile := (given.get? .stationFile).getD standardStationFile
  blockFile := given.get? .blockFile
  input := given.get? .input
  interface := given.get? .interface
  json := given.json

/-- The options in a list of arguments; none if the arguments are no command
    line of this program. -/
def parse (args : List String) : Option Options :=
  (GivenOptions.empty.read? args).map ofGiven

/-- How the program is called. -/
def usage : String :=
  "usage: aprsrelay [-c STATION_FILE] [-d BLOCK_FILE] [-i FRAMES] [--interface CALLSIGN] [--json]"

end Options

end AprsRelay
