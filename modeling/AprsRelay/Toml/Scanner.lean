/-!
# Scanners

A scanner reads something at the start of a text and leaves the rest. Where a
scanner fails, another one can start again from the same place.

## Main definitions

* `Scanner`: Reading with failure.
* `Scanner.oneOf`, `exactly`, `literal`, `run`, `someRun`: Characters, words and
  runs of characters.
* `Scanner.atEnd`: Nothing is left.
* `Scanner.many`, `separated`: Repetition.
* `Scanner.readAll`: Reading a whole text.
-/

namespace AprsRelay

namespace Toml

/-- Reads at the start of a text and leaves the rest, or fails. -/
abbrev Scanner (α : Type) := StateT (List Char) Option α

namespace Scanner

variable {α β : Type}

/-- One character of a class. -/
def oneOf (p : Char → Bool) : Scanner Char
  | [] => none
  | c :: rest => if p c then some (c, rest) else none

/-- The given character. -/
def exactly (c : Char) : Scanner Unit := do
  let _ ← oneOf (· == c)

/-- The given characters in a row. -/
def literal : List Char → Scanner Unit
  | [] => pure ()
  | c :: cs => do
    exactly c
    literal cs

/-- The longest run of characters of a class, which may be empty. -/
def run (p : Char → Bool) : Scanner (List Char) :=
  fun cs => some (cs.takeWhile p, cs.dropWhile p)

/-- The longest run of characters of a class, with at least one of them. -/
def someRun (p : Char → Bool) : Scanner (List Char) := do
  let c ← oneOf p
  let cs ← run p
  return c :: cs

/-- The end of the text. -/
def atEnd : Scanner Unit
  | [] => some ((), [])
  | _ :: _ => none

/-- What a scanner reads, or nothing where it fails. -/
def optionally (p : Scanner α) : Scanner (Option α) :=
  (some <$> p) <|> pure none

/-- What a scanner reads as often as it can. A scanner that reads without
    taking anything away ends the repetition. -/
def manyFrom (p : Scanner α) (cs : List Char) : List α × List Char :=
  match p cs with
  | none => ([], cs)
  | some (a, rest) =>
    if _h : rest.length < cs.length then
      let (as, rest') := manyFrom p rest
      (a :: as, rest')
    else ([], cs)
termination_by cs.length

/-- What a scanner reads as often as it can. -/
def many (p : Scanner α) : Scanner (List α) :=
  fun cs => some (manyFrom p cs)

/-- What a scanner reads at least once, with a separator in between. -/
def separated (separator : Scanner β) (p : Scanner α) : Scanner (List α) := do
  let a ← p
  let as ← many (do let _ ← separator; p)
  return a :: as

/-- Exactly `n` characters of a class. -/
def times (p : Char → Bool) : Nat → Scanner (List Char)
  | 0 => pure []
  | n + 1 => do
    let c ← oneOf p
    let cs ← times p n
    return c :: cs

/-- What a scanner makes of a whole text. -/
def readAll (p : Scanner α) (cs : List Char) : Option α :=
  match p cs with
  | some (a, []) => some a
  | _ => none

end Scanner

end Toml

end AprsRelay
