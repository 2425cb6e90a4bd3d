import AprsRelay.Text.Blank

/-!
# Decimal Numerals

Whole numbers written in decimal, as they stand behind a keyword of a block
file: an optional sign and one or more digits, with blanks allowed around
them. Values have to fit into 64 bits with a sign.

## Main definitions

* `decimalValue`: The number that a run of digits denotes.
* `natural?`: A run of one or more digits.
* `numeral?`: A signed numeral of any size.
* `integer?`: A signed numeral of 64 bits, blanks around it allowed.

## Theorems

* `natural?_eq_some_iff`: What a run of digits is, and what it denotes.
-/

namespace AprsRelay

namespace Text

/-- The number that a run of decimal digits denotes. -/
def decimalValue (digits : List Char) : Nat :=
  digits.foldl (fun n d => 10 * n + (d.toNat - '0'.toNat)) 0

/-- A run of one or more decimal digits, as the number that it denotes. -/
def natural? (cs : List Char) : Option Nat :=
  if !cs.isEmpty && cs.all Char.isDigit then some (decimalValue cs) else none

/-- An optional sign and one or more digits, as the number that they denote. -/
def numeral? : List Char → Option Int
  | '+' :: digits => (natural? digits).map Int.ofNat
  | '-' :: digits => (natural? digits).map fun n => -Int.ofNat n
  | digits => (natural? digits).map Int.ofNat

/-- Numbers that fit into 64 bits with a sign. -/
def fitsSigned64 (v : Int) : Bool :=
  Int64.minValue.toInt ≤ v && v ≤ Int64.maxValue.toInt

/-- A numeral whose value fits into 64 bits with a sign; blanks around it are
    ignored. -/
def integer? (s : String) : Option Int :=
  (numeral? (trim s.toList)).filter fitsSigned64

/-- A text denotes a natural number when it has a digit and nothing but
    digits. -/
theorem natural?_eq_some_iff (cs : List Char) (n : Nat) :
    natural? cs = some n ↔
      cs ≠ [] ∧ (∀ c ∈ cs, c.isDigit = true) ∧ decimalValue cs = n := by
  unfold natural?
  by_cases hne : cs = [] <;> by_cases hall : cs.all Char.isDigit = true <;> simp_all

end Text

end AprsRelay
