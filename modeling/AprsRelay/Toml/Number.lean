import AprsRelay.Toml.Lexeme

/-!
# Numbers of TOML

No setting is a number, but a text with a malformed number is no TOML text.
Integers have to fit into 64 bits with a sign. Of the numbers with a fraction
or an exponent, those that are too large for a double are refused.

## Main definitions

* `decimalInteger`: The sign and the digits of a decimal integer.
* `integer`: An integer in any base.
* `floating`: A number with a fraction or an exponent.
* `roundsToInfinity`: Numbers that are too large for a double.
* `numeral`: Any number.
-/

namespace AprsRelay

namespace Toml

open Scanner

/-- Digits of a class, with single underscores allowed in between. -/
def digitRun (p : Char → Bool) : Scanner (List Char) := do
  let d ← oneOf p
  let ds ← many (do let _ ← optionally (exactly '_'); oneOf p)
  return d :: ds

/-- A sign; its absence counts as plus. The answer says whether it is minus. -/
def sign : Scanner Bool :=
  (do exactly '+'; return false) <|> (do exactly '-'; return true) <|> pure false

/-- The sign and the digits of a decimal integer, which has no leading zeros. -/
def decimalInteger : Scanner (Bool × List Char) := do
  let negative ← sign
  let digits ← (do exactly '0'; return ['0']) <|> digitRun Char.isDigit
  return (negative, digits)

/-- An integer after the mark of its base. -/
def basedInteger (mark : Char) (base : Nat) (p : Char → Bool) : Scanner Unit := do
  literal ['0', mark]
  let digits ← digitRun p
  if valueInBase base digits < Nat.pow 2 63 then return () else failure

/-- A decimal integer that fits. -/
def boundedInteger : Scanner Unit := do
  let (negative, digits) ← decimalInteger
  let v := valueInBase 10 digits
  let limit := Nat.pow 2 63
  if v < limit ∨ (negative = true ∧ v = limit) then return () else failure

/-- Binary digits. -/
def isBinaryDigit (c : Char) : Bool :=
  c == '0' || c == '1'

/-- Octal digits. -/
def isOctalDigit (c : Char) : Bool :=
  '0' ≤ c && c ≤ '7'

/-- An integer in any base. -/
def integer : Scanner Unit :=
  basedInteger 'x' 16 isHexDigit <|> basedInteger 'o' 8 isOctalDigit <|>
    basedInteger 'b' 2 isBinaryDigit <|> boundedInteger

/-- Whether `m · 10 ^ e` is too large for a double: from half a unit above the
    largest double on, values round to infinity. -/
def roundsToInfinity (m : Nat) (e : Int) : Bool :=
  if m = 0 then false
  else
    -- The number lies below ten to this power, so large exponents are settled at once.
    let magnitude : Int := (toString m).length + e
    if 310 < magnitude then true
    else if magnitude < 300 then false
    else
      let bound := (Nat.pow 2 54 - 1) * Nat.pow 2 970
      match e with
      | .ofNat e => bound ≤ m * Nat.pow 10 e
      | .negSucc e => bound * Nat.pow 10 (e + 1) ≤ m

/-- A fraction: a point and digits. -/
def fraction : Scanner (List Char) := do
  exactly '.'
  digitRun Char.isDigit

/-- An exponent: its mark, a sign if any, and digits. -/
def exponent : Scanner Int := do
  let _ ← oneOf fun c => c == 'e' || c == 'E'
  let negative ← sign
  let digits ← digitRun Char.isDigit
  let v : Int := valueInBase 10 digits
  return if negative then -v else v

/-- A fraction, or an exponent, or both: the digits of the fraction and the
    exponent. -/
def floatingTail : Scanner (List Char × Int) :=
  (do let digits ← fraction
      let e ← optionally exponent
      return (digits, e.getD 0)) <|>
    (do let e ← exponent
        return ([], e))

/-- A number with a fraction or an exponent. -/
def floating : Scanner Unit := do
  let (negative, digits) ← decimalInteger
  let (fractionDigits, e) ← floatingTail
  let m := valueInBase 10 (digits ++ fractionDigits)
  if negative = false ∧ roundsToInfinity m (e - fractionDigits.length) = true then failure
  else return ()

/-- The words for infinity and for what is not a number. -/
def specialNumber : Scanner Unit := do
  let _ ← sign
  literal ['i', 'n', 'f'] <|> literal ['n', 'a', 'n']

/-- Any number. -/
def numeral : Scanner Unit :=
  floating <|> integer <|> specialNumber

end Toml

end AprsRelay
