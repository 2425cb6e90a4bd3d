import AprsRelay.Frame
import AprsRelay.Via.Path

/-!
# Fields of a Via Path

Which pieces between the commas of a via path count as fields. Reading stops
at the first piece that is empty or starts with `q`, so what comes before it
is an initial part of the pieces; of that part the pieces that are short
enough count. Faults and the provenance mark do not enter here.

The via path of a frame has no `:` if its parts can be told apart, so the
pieces of its segment are those of the segment without its last character.

## Main definitions

* `ViaPath.goesOn`: Pieces after which reading goes on.
* `Frame.viaPieces`: What stands between the commas of a via path.

## Theorems

* `fields_scan`: The fields are a part of the pieces.
* `mem_fields_iff`: The fields, told by their places.
* `pieces_viaSegment`: The pieces of a frame whose parts can be told apart.
-/

namespace AprsRelay

namespace ViaPath

/-- Reading goes on behind a piece that is not empty and does not start with
    `q`. -/
def goesOn (piece : List Char) : Bool :=
  piece ≠ [] ∧ piece.head? ≠ some 'q'

/-- Pieces that are short enough to be a field. -/
def isShort (piece : List Char) : Bool :=
  Text.byteLength piece ≤ maxFieldLength

-- A path in front of which a piece is put gains the piece as a field if it
-- is short enough.
theorem fields_push (index : Nat) (piece : List Char) (path : ViaPath) :
    (path.push index piece).fields =
      ([piece].filter isShort).map String.ofList ++ path.fields := by
  by_cases h : Text.byteLength piece ≤ maxFieldLength
  · simp [push, isShort, h]
  · simp [push, isShort, h]

-- A piece after which reading goes on is put in front of what is read from
-- there.
theorem scan_of_goesOn (index : Nat) (piece : List Char) (pieces : List (List Char))
    (h : goesOn piece = true) :
    scan index (piece :: pieces) = (scan (index + 1) pieces).push index piece := by
  cases piece with
  | nil => simp [goesOn] at h
  | cons c cs =>
      have hq : c ≠ 'q' := by simpa [goesOn] using h
      rw [scan]
      · simp
      · simp
      · simpa using hq

-- Behind any other piece nothing is read, nor is the piece itself a field.
theorem fields_scan_of_not_goesOn (index : Nat) (piece : List Char)
    (pieces : List (List Char)) (h : goesOn piece = false) :
    (scan index (piece :: pieces)).fields = [] := by
  cases piece with
  | nil => cases pieces <;> rfl
  | cons c cs =>
      have hq : c = 'q' := by simpa [goesOn] using h
      rw [hq]
      rfl

/-- The fields are the short ones among the pieces up to the first after which
    reading does not go on. -/
theorem fields_scan (index : Nat) (pieces : List (List Char)) :
    (scan index pieces).fields =
      ((pieces.takeWhile goesOn).filter isShort).map String.ofList := by
  induction pieces generalizing index with
  | nil => rfl
  | cons piece pieces ih =>
      cases h : goesOn piece with
      | true =>
          rw [scan_of_goesOn index piece pieces h, fields_push, ih,
            List.takeWhile_cons_of_pos h, ← List.map_append, ← List.filter_append]
          rfl
      | false =>
          rw [fields_scan_of_not_goesOn index piece pieces h, List.takeWhile_cons_of_neg (by simp [h])]
          rfl

-- The initial part of a list on which a property holds, told by places.
theorem mem_takeWhile_iff {α : Type} (p : α → Bool) (xs : List α) (x : α) :
    x ∈ xs.takeWhile p ↔
      ∃ j : Nat, xs[j]? = some x ∧ ∀ k ≤ j, ∀ y, xs[k]? = some y → p y = true := by
  induction xs with
  | nil => simp
  | cons a xs ih =>
      cases ha : p a with
      | false =>
          rw [List.takeWhile_cons_of_neg (by simp [ha])]
          constructor
          · intro hx
            exact absurd hx List.not_mem_nil
          · intro hgiven
            rcases hgiven with ⟨j, -, hall⟩
            have hpa := hall 0 (Nat.zero_le j) a rfl
            rw [ha] at hpa
            exact absurd hpa (by decide)
      | true =>
          rw [List.takeWhile_cons_of_pos ha, List.mem_cons, ih]
          constructor
          · intro hgiven
            rcases hgiven with rfl | ⟨j, hj, hall⟩
            · refine ⟨0, rfl, fun k hk y hy => ?_⟩
              rw [Nat.le_zero.1 hk, List.getElem?_cons_zero] at hy
              rwa [← Option.some.inj hy]
            · refine ⟨j + 1, hj, fun k hk y hy => ?_⟩
              cases k with
              | zero =>
                  rw [List.getElem?_cons_zero] at hy
                  rwa [← Option.some.inj hy]
              | succ k => exact hall k (by omega) y hy
          · intro hgiven
            rcases hgiven with ⟨j, hj, hall⟩
            cases j with
            | zero =>
                rw [List.getElem?_cons_zero] at hj
                exact Or.inl (Option.some.inj hj).symm
            | succ j =>
                exact Or.inr ⟨j, hj, fun k hk y hy => hall (k + 1) (by omega) y hy⟩

/-- The fields of a path, told by the places of the pieces: a piece counts if
    it is short enough, and neither the piece nor any before it is empty or
    starts with `q`. -/
theorem mem_fields_iff (segment field : String) :
    field ∈ (ofSegment segment).fields ↔
      ∃ (j : Nat) (piece : List Char), (pieces segment)[j]? = some piece ∧
        (∀ k ≤ j, ∀ q, (pieces segment)[k]? = some q → q ≠ [] ∧ q.head? ≠ some 'q') ∧
        Text.byteLength piece ≤ maxFieldLength ∧ String.ofList piece = field := by
  simp only [ofSegment, fields_scan, List.mem_map, List.mem_filter, mem_takeWhile_iff, goesOn,
    isShort, decide_eq_true_eq]
  constructor
  · intro hgiven
    rcases hgiven with ⟨piece, ⟨⟨j, hj, hall⟩, hshort⟩, rfl⟩
    exact ⟨j, piece, hj, hall, hshort, rfl⟩
  · intro hgiven
    rcases hgiven with ⟨j, piece, hj, hall, hshort, rfl⟩
    exact ⟨piece, ⟨⟨j, hj, hall⟩, hshort⟩, rfl⟩

end ViaPath

namespace Frame

/-- What stands between the commas of the via path, which is the segment of the
    header without the `:` that ends it. -/
def viaPieces (f : Frame) : List (List Char) :=
  f.viaSegment.toList.dropLast.splitOn ','

/-- The pieces of a frame are those of its segment without the final `:`, if
    its via path has no other. -/
theorem pieces_viaSegment (f : Frame) (h : f.WellFormed) :
    ViaPath.pieces f.viaSegment = f.viaPieces := by
  unfold ViaPath.pieces viaPieces viaSegment
  cases hvia : f.via with
  | none => rfl
  | some path =>
      have hcolon : ∀ c ∈ path.toList, (c != ':') = true := by
        intro c hc
        rw [bne_iff_ne]
        rintro rfl
        exact h.via_no_colon path hvia hc
      have hlist : (path ++ ":").toList = path.toList ++ [':'] := by
        rw [String.toList_append]
        rfl
      have htake : (path.toList ++ [':']).takeWhile (· != ':') = path.toList := by
        rw [List.takeWhile_append_of_pos hcolon, List.takeWhile_cons_of_neg (by decide),
          List.append_nil]
      simp only [hlist, htake, List.dropLast_concat]

end Frame

end AprsRelay
