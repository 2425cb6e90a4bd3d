/-!
# Texts as Bytes

Lengths and offsets in a frame count bytes, and keywords are compared with
fields byte by byte, so a text has to be seen as its UTF-8 bytes.

## Main definitions

* `Bytes`: A sequence of bytes.
* `utf8`: The bytes of a text.
* `byteLength`: Their number.
* `ofUtf8?`: The text that has the given bytes, if they are well formed.

## Theorems

* `byteLength_eq`: The number of bytes is the length of the sequence of bytes.
* `byteLength_append`, `byteLength_cons`: Lengths add up.
-/

namespace AprsRelay

/-- A sequence of bytes. -/
abbrev Bytes := List UInt8

namespace Text

/-- The UTF-8 bytes of a text. -/
def utf8 (cs : List Char) : Bytes :=
  cs.flatMap String.utf8EncodeChar

/-- The number of bytes that a text takes in UTF-8. -/
def byteLength : List Char → Nat
  | [] => 0
  | c :: cs => c.utf8Size + byteLength cs

/-- The text with the given bytes, or nothing if they are not well-formed
    UTF-8. -/
def ofUtf8? (bytes : Bytes) : Option String :=
  String.fromUTF8? ⟨bytes.toArray⟩

theorem utf8_cons (c : Char) (cs : List Char) :
    utf8 (c :: cs) = String.utf8EncodeChar c ++ utf8 cs := by
  simp [utf8]

@[simp]
theorem byteLength_nil : byteLength [] = 0 := rfl

@[simp]
theorem byteLength_cons (c : Char) (cs : List Char) :
    byteLength (c :: cs) = c.utf8Size + byteLength cs := rfl

@[simp]
theorem byteLength_append (a b : List Char) :
    byteLength (a ++ b) = byteLength a + byteLength b := by
  induction a with
  | nil => rw [List.nil_append, byteLength_nil, Nat.zero_add]
  | cons c a ih => rw [List.cons_append, byteLength_cons, byteLength_cons, ih, Nat.add_assoc]

theorem byteLength_pos (s : String) (h : s ≠ "") : 0 < byteLength s.toList := by
  cases hcs : s.toList with
  | nil => exact absurd (String.toList_injective hcs) h
  | cons c cs =>
      rw [byteLength_cons]
      have hc := c.utf8Size_pos
      omega

/-- The length of a text is the number of its bytes. -/
theorem byteLength_eq (cs : List Char) : byteLength cs = (utf8 cs).length := by
  induction cs with
  | nil => rfl
  | cons c cs ih => simp [utf8_cons, ih]

end Text

end AprsRelay
