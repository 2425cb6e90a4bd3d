import AprsRelay.Text.Utf8

/-!
# Hop Counting

A via field that starts with a keyword asks for hops. The bytes behind the
keyword say how many were asked for and how many are left: `WIDE3-2` asked for
three hops of which two are left, `WIDE2` or `WIDE2*` is used up, and `WIDE`
asks for one. A field without a keyword names a station, and a `*` in it shows
that this station relayed the frame.

The counters of a path are the sums of what its fields contribute, and a frame
still has hops to go when more were asked for than are done.

The counters are exact numbers here. Counters that are kept in words wrap around
where a sum does not fit (`HopWords`).

## Main definitions

* `Hops`: The three counters.
* `Hops.remaining`: Whether hops are left.
* `HopCase`: The ways to read a field.
* `HopCase.ofField`: The way a field is read, given the length of its keyword.
* `HopCase.hops`: What a field contributes.
* `Hops.count`: Counters with a field added.

## Theorems

* `Hops.zero_add`, `Hops.add_zero`, `Hops.add_assoc`, `Hops.add_comm`:
  Counters add up in any order.
-/

namespace AprsRelay

/-- The hops that a path asks for, those of them that are done, and the
    stations that left a trace. A path can claim to have more hops left than
    it asked for, so the second counter may be negative. -/
structure Hops where
  requested : Int
  completed : Int
  traces : Int
  deriving DecidableEq, Repr

namespace Hops

/-- The counters before the first field. -/
instance : Zero Hops := ⟨⟨0, 0, 0⟩⟩

/-- Counters are added one by one. -/
instance : Add Hops :=
  ⟨fun a b => ⟨a.requested + b.requested, a.completed + b.completed, a.traces + b.traces⟩⟩

/-- Whether more hops were asked for than are done. -/
def remaining (h : Hops) : Bool :=
  h.completed < h.requested

-- The three counters of the sum, and of the counters before the first field.
@[simp] theorem requested_zero : (0 : Hops).requested = 0 := rfl
@[simp] theorem completed_zero : (0 : Hops).completed = 0 := rfl
@[simp] theorem traces_zero : (0 : Hops).traces = 0 := rfl

@[simp] theorem requested_add (a b : Hops) : (a + b).requested = a.requested + b.requested := rfl
@[simp] theorem completed_add (a b : Hops) : (a + b).completed = a.completed + b.completed := rfl
@[simp] theorem traces_add (a b : Hops) : (a + b).traces = a.traces + b.traces := rfl

@[ext]
theorem ext (a b : Hops) (hr : a.requested = b.requested) (hc : a.completed = b.completed)
    (ht : a.traces = b.traces) : a = b := by
  cases a
  cases b
  simp_all

@[simp]
theorem zero_add (a : Hops) : 0 + a = a := by
  ext <;> simp

@[simp]
theorem add_zero (a : Hops) : a + 0 = a := by
  ext <;> simp

theorem add_assoc (a b c : Hops) : a + b + c = a + (b + c) := by
  ext <;> simp <;> omega

theorem add_comm (a b : Hops) : a + b = b + a := by
  ext <;> simp <;> omega

end Hops

/-- The mark that a station adds to a field when it has relayed the frame. -/
def relayMark : UInt8 := 0x2A

/-- The dash between the hops asked for and the hops left. -/
def hopDash : UInt8 := 0x2D

/-- The number that a byte denotes if it is a digit between `low` and seven,
    the most hops that a field can ask for. -/
def hopDigit? (low : Nat) (b : UInt8) : Option Nat :=
  if 0x30 + low ≤ b.toNat ∧ b.toNat ≤ 0x37 then some (b.toNat - 0x30) else none

/-- The ways to read a field. `n` is the number of hops asked for, `m` the
    number of hops left. -/
inductive HopCase where
  /-- No keyword begins the field. -/
  | noKeyword
  /-- The keyword stands alone. -/
  | bare
  /-- The keyword is followed by `*` alone. -/
  | executed
  /-- The keyword is followed by something else than a hop digit. -/
  | notDigit
  /-- The keyword is followed by `n` or `n*`. -/
  | exhausted (n : Nat)
  /-- The keyword is followed by `n` and then by something else than a dash. -/
  | noDash
  /-- The keyword is followed by `n-m`, and perhaps more. -/
  | remaining (n m : Nat)
  /-- The keyword is followed by `n-` without a number of hops left. -/
  | badRemainder
  deriving DecidableEq, Repr

namespace HopCase

/-- The letter that stands for a case in listings. -/
def letter : HopCase → Char
  | noKeyword => 'a'
  | executed => 'b'
  | bare => 'c'
  | notDigit => 'd'
  | exhausted _ => 'e'
  | noDash => 'f'
  | remaining _ _ => 'g'
  | badRemainder => 'h'

/-- The case of what follows a hop digit `n`. -/
def afterDigit (n : Nat) : Bytes → HopCase
  | [] => exhausted n
  | c :: rest =>
    -- Behind a dash only the next byte counts; what follows it is passed over.
    if c = hopDash then
      match rest.head?.bind (hopDigit? 0) with
      | none => badRemainder
      | some m => remaining n m
    else if c = relayMark ∧ rest = [] then exhausted n
    else noDash

/-- The case of what follows a keyword. -/
def ofSuffix : Bytes → HopCase
  | [] => bare
  | c :: rest =>
    -- A mark with something behind it is not a hop digit either.
    if c = relayMark ∧ rest = [] then executed
    else
      match hopDigit? 1 c with
      | none => notDigit
      | some n => afterDigit n rest

/-- The case of a field whose first `keyLength` bytes are a keyword; a length
    of zero says that none begins it. -/
def ofField (field : Bytes) (keyLength : Nat) : HopCase :=
  if keyLength = 0 then noKeyword else ofSuffix (field.drop keyLength)

/-- What a field contributes to the counters. Where the field is not clear,
    one hop was asked for, and it is done if the field is marked. -/
def hops (marked : Bool) : HopCase → Hops
  | noKeyword => ⟨0, 0, marked.toNat⟩
  | bare => ⟨1, 0, 0⟩
  | executed => ⟨1, 1, 0⟩
  | exhausted n => ⟨n, n, 0⟩
  | remaining n m => ⟨n, n - m, 0⟩
  | notDigit | noDash | badRemainder => ⟨1, marked.toNat, 0⟩

end HopCase

/-- Whether the mark of a relay stands anywhere in a field. -/
def isMarked (field : Bytes) : Bool :=
  field.contains relayMark

namespace Hops

/-- What a field contributes whose keyword has the given length. -/
def ofField (field : Bytes) (keyLength : Nat) : Hops :=
  (HopCase.ofField field keyLength).hops (isMarked field)

/-- The counters with a field added, and the way the field was read. -/
def count (h : Hops) (field : Bytes) (keyLength : Nat) : Hops × HopCase :=
  (h + ofField field keyLength, HopCase.ofField field keyLength)

end Hops

end AprsRelay
