import AprsRelay.Text.Numeral
import Mathlib.Data.List.Induction
import Mathlib.Data.Nat.Digits.Defs

/-!
# Numerals of Any Length

A whole number has many numerals. There may be a plus sign in front or not, and
as many zeros as one likes, so a small number can be written at any length. The
definitions that read a numeral take it apart from the left. Here it is put
together instead: a sign or none, then digits, and the value is that of the
digits by their places.

`numeral?_chars` says that every numeral is read as its value. An argument is
read as a number of 64 bits, though, and there the value decides
(`integer?_text`): a numeral whose value does not fit is no number at all, just
like a word.

## Main definitions

* `Sign`: A plus or a minus.
* `Numeral`: A sign or none, and at least one digit.
* `Numeral.text`, `Numeral.value`: How it is written and what it denotes.

## Theorems

* `decimalValue_map_digitChar`: A run of digits is read by places.
* `numeral?_chars`: A numeral is read as its value.
* `integer?_text`: An argument is read as its value if that fits.
-/

namespace AprsRelay

namespace Text

/-- The sign in front of a numeral. -/
inductive Sign where
  | plus
  | minus
  deriving DecidableEq, Repr

/-- The character of a sign. -/
def Sign.char : Sign → Char
  | .plus => '+'
  | .minus => '-'

/-- The character of a decimal digit. -/
def digitChar (d : Fin 10) : Char :=
  Nat.digitChar d

/-- A numeral: a sign or none, and one decimal digit or more. -/
structure Numeral where
  sign : Option Sign
  digits : List (Fin 10)
  digits_ne_nil : digits ≠ [] := by decide
  deriving DecidableEq, Repr

namespace Numeral

/-- The characters of a numeral. -/
def chars (n : Numeral) : List Char :=
  n.sign.toList.map Sign.char ++ n.digits.map digitChar

/-- How a numeral is written. -/
def text (n : Numeral) : String :=
  String.ofList n.chars

/-- The number that the digits denote by their places; the last digit stands
    for the ones. -/
def magnitude (n : Numeral) : Nat :=
  Nat.ofDigits 10 (n.digits.reverse.map Fin.val)

/-- The number that a numeral denotes. -/
def value (n : Numeral) : Int :=
  match n.sign with
  | some .minus => -n.magnitude
  | _ => n.magnitude

end Numeral

/-! ## Digits -/

theorem isDigit_digitChar (d : Fin 10) : (digitChar d).isDigit = true := by
  rw [digitChar, Nat.isDigit_digitChar, decide_eq_true_eq]
  exact d.isLt

-- The value of a digit is found by how far it stands behind zero.
theorem toNat_digitChar_sub (d : Fin 10) : (digitChar d).toNat - '0'.toNat = d := by
  rw [digitChar, Nat.toNat_digitChar_of_lt_ten d.isLt]
  exact Nat.add_sub_cancel_left 48 d

-- Reading goes from the left, so a digit more at the end shifts all others by
-- one place.
theorem decimalValue_map_digitChar (digits : List (Fin 10)) :
    decimalValue (digits.map digitChar) =
      Nat.ofDigits 10 (digits.reverse.map Fin.val) := by
  unfold decimalValue
  induction digits using List.reverseRecOn with
  | nil => rfl
  | append_singleton digits d ih =>
      rw [List.map_append, List.foldl_append, ih, List.reverse_append, List.map_append,
        Nat.ofDigits_append]
      simp only [List.map_cons, List.map_nil, List.foldl_cons, List.foldl_nil,
        toNat_digitChar_sub,
        List.reverse_singleton, Nat.ofDigits_singleton, List.length_singleton, pow_one]
      exact Nat.add_comm _ _

theorem natural?_digits (n : Numeral) :
    natural? (n.digits.map digitChar) = some n.magnitude := by
  refine (natural?_eq_some_iff _ _).2 ⟨?_, ?_, decimalValue_map_digitChar n.digits⟩
  · exact mt List.map_eq_nil_iff.1 n.digits_ne_nil
  · intro c hc
    rcases List.mem_map.1 hc with ⟨d, -, rfl⟩
    exact isDigit_digitChar d

/-! ## Numerals -/

-- Digits without a sign are read as they are: their first is no sign.
theorem numeral?_of_natural? (cs : List Char) (m : Nat) (h : natural? cs = some m) :
    numeral? cs = some (m : Int) := by
  have hdigits := ((natural?_eq_some_iff cs m).1 h).2.1
  unfold numeral?
  split
  · exact absurd (hdigits '+' List.mem_cons_self) (by decide)
  · exact absurd (hdigits '-' List.mem_cons_self) (by decide)
  · rw [h]
    rfl

/-- A numeral is read as its value. -/
theorem numeral?_chars (n : Numeral) : numeral? n.chars = some n.value := by
  have hdigits := natural?_digits n
  unfold Numeral.chars Numeral.value
  cases hsign : n.sign with
  | none => exact numeral?_of_natural? _ _ hdigits
  | some sign =>
      cases sign with
      | plus => exact congrArg (Option.map Int.ofNat) hdigits
      | minus => exact congrArg (Option.map fun m => -Int.ofNat m) hdigits

theorem not_blank_of_mem_chars (n : Numeral) : ∀ c ∈ n.chars, isBlank c = false := by
  have hsign : ∀ s : Sign, isBlank s.char = false := by
    intro s
    cases s <;> decide
  have hdigit : ∀ d : Fin 10, isBlank (digitChar d) = false := by decide
  intro c hc
  rcases List.mem_append.1 hc with hc | hc
  · rcases List.mem_map.1 hc with ⟨s, -, rfl⟩
    exact hsign s
  · rcases List.mem_map.1 hc with ⟨d, -, rfl⟩
    exact hdigit d

theorem dropWhile_isBlank_of_not_blank (cs : List Char) (h : ∀ c ∈ cs, isBlank c = false) :
    cs.dropWhile isBlank = cs := by
  cases cs with
  | nil => rfl
  | cons c cs => exact List.dropWhile_cons_of_neg (by simp [h c List.mem_cons_self])

-- Where nothing is blank, nothing is trimmed.
theorem trim_of_not_blank (cs : List Char) (h : ∀ c ∈ cs, isBlank c = false) : trim cs = cs := by
  have hreverse : ∀ c ∈ cs.reverse, isBlank c = false := fun c hc => h c (List.mem_reverse.1 hc)
  rw [trim, dropWhile_isBlank_of_not_blank cs h, trimEnd,
    dropWhile_isBlank_of_not_blank _ hreverse, List.reverse_reverse]

theorem fitsSigned64_iff (v : Int) : fitsSigned64 v = true ↔ -2 ^ 63 ≤ v ∧ v < 2 ^ 63 := by
  have hmin : Int64.minValue.toInt = -2 ^ 63 := by decide
  have hmax : Int64.maxValue.toInt = 2 ^ 63 - 1 := by decide
  rw [fitsSigned64, hmin, hmax, Bool.and_eq_true, decide_eq_true_eq, decide_eq_true_eq]
  omega

/-- An argument that is a numeral is read as its value if that fits into 64 bits
    with a sign, and else not at all. Neither the number of digits nor the sign
    matters beyond that. -/
theorem integer?_text (n : Numeral) :
    integer? n.text = if -2 ^ 63 ≤ n.value ∧ n.value < 2 ^ 63 then some n.value else none := by
  rw [integer?, Numeral.text, String.toList_ofList,
    trim_of_not_blank _ (not_blank_of_mem_chars n), numeral?_chars, Option.filter_some]
  simp only [fitsSigned64_iff]

end Text

end AprsRelay
