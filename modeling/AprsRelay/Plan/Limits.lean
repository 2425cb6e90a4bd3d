/-!
# Rate Limit and Viscous Delay

Two numbers that a digipeater carries for its transmitter. A rate limit out of
range is replaced by the standard one without a word. A viscous delay out of
range is a fault, and the nearest value in range is what the listing shows.

## Main definitions

* `rateLimit`: The rate limit that a number asks for.
* `viscousDelay`: The viscous delay nearest to a number.
* `isViscousDelay`: Whether a number is a viscous delay.

## Theorems

* `viscousDelay_eq_iff`: A number in range is left alone, and no other.
-/

namespace AprsRelay

/-- The rate limit where none is declared. -/
def standardRateLimit : Nat := 300

/-- The rate limit that a number asks for, in packets per interval: from 10 to
    300, or else the standard one. -/
def rateLimit (v : Int) : Nat :=
  if 10 ≤ v ∧ v ≤ 300 then v.toNat else standardRateLimit

/-- The viscous delay nearest to a number, in seconds: from 0 to 9. -/
def viscousDelay (v : Int) : Nat :=
  min v.toNat 9

/-- Whether a number is a viscous delay. -/
def isViscousDelay (v : Int) : Bool :=
  0 ≤ v && v ≤ 9

/-- A number is its own viscous delay exactly when it is in range. -/
theorem viscousDelay_eq_iff (v : Int) : (viscousDelay v : Int) = v ↔ isViscousDelay v = true := by
  simp only [viscousDelay, isViscousDelay, Bool.and_eq_true, decide_eq_true_eq]
  omega

end AprsRelay
