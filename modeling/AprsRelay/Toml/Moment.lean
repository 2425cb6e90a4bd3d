import AprsRelay.Toml.Lexeme

/-!
# Dates and Times of TOML

A date, a time of day, or both, in which case the distance to universal time
may follow. Days have to exist; a minute may have a leap second.

## Main definitions

* `daysIn`: The number of days of a month.
* `date`, `timeOfDay`, `offset`: The three parts.
* `moment`: A point in time.
-/

namespace AprsRelay

namespace Toml

open Scanner

/-- A number of exactly `n` digits, from `low` to `high`. -/
def clockNumber (n low high : Nat) : Scanner Nat := do
  let digits ← times Char.isDigit n
  let v := valueInBase 10 digits
  if low ≤ v ∧ v ≤ high then return v else failure

/-- Years with a 29th of February. -/
def isLeapYear (y : Nat) : Bool :=
  y % 4 == 0 && (y % 100 != 0 || y % 400 == 0)

/-- The number of days of a month. -/
def daysIn (y m : Nat) : Nat :=
  if m = 2 then (if isLeapYear y then 29 else 28)
  else if m = 4 ∨ m = 6 ∨ m = 9 ∨ m = 11 then 30
  else 31

/-- A day that exists. -/
def date : Scanner Unit := do
  let y ← clockNumber 4 0 9999
  exactly '-'
  let m ← clockNumber 2 1 12
  exactly '-'
  let _ ← clockNumber 2 1 (daysIn y m)

/-- A time of day, to the second or finer. -/
def timeOfDay : Scanner Unit := do
  let _ ← clockNumber 2 0 23
  exactly ':'
  let _ ← clockNumber 2 0 59
  exactly ':'
  let _ ← clockNumber 2 0 60
  let _ ← optionally (do exactly '.'; someRun Char.isDigit)

/-- The distance to universal time. -/
def offset : Scanner Unit :=
  (do let _ ← oneOf fun c => c == 'Z' || c == 'z') <|>
    (do let _ ← oneOf fun c => c == '+' || c == '-'
        let _ ← clockNumber 2 0 23
        exactly ':'
        let _ ← clockNumber 2 0 59)

/-- A time of day behind a date. -/
def timeAfterDate : Scanner Unit := do
  let _ ← oneOf fun c => c == 'T' || c == 't' || c == ' '
  timeOfDay
  let _ ← optionally offset

/-- A date, a date with a time, or a time. -/
def moment : Scanner Unit :=
  (do date
      let _ ← optionally timeAfterDate) <|>
    timeOfDay

end Toml

end AprsRelay
