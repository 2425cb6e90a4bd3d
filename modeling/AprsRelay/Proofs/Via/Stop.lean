import AprsRelay.Proofs.Via.Fields

/-!
# Where Reading Stops

Everything that is made of a via path follows from the place of one piece: the
first that is empty or starts with `q`. Of the pieces before it, each becomes
a field or the fault of a field that is too long. The piece itself decides
whether there is one more fault, and whether the path tells of a gateway. It
cannot do both, since a piece that starts with `q` is not empty.

What follows the piece is not read. It matters only that something follows:
an empty piece is excused if it is the last, where a comma ends the path.

## Main definitions

* `ViaPath.stop`: The place of the first piece after which reading stops.
* `ViaPath.longFaults`: The faults of the pieces that are too long.
* `ViaPath.emptyFaults`: The fault of the piece where reading stops.
* `PlainField`: A text that can stand between commas as a field.

## Theorems

* `scan_eq`: What is made of the pieces, told by the place.
* `length_fields_add_length_longFaults`: Every piece before it is accounted for.
* `scan_congr`: What follows the piece is not read.
* `pieces_join`: The pieces of fields with commas between them.
* `ofSegment_stop`: All of it for the segment of a header.
-/

namespace AprsRelay

namespace ViaPath

/-- The place of the first piece after which reading does not go on; the number
    of pieces if there is none. -/
def stop (pieces : List (List Char)) : Nat :=
  pieces.findIdx fun piece => !goesOn piece

/-- The faults of the pieces that are too long, the first of which has the
    given place. -/
def longFaults (index : Nat) (pieces : List (List Char)) : List PathFault :=
  ((pieces.zipIdx index).filter fun (piece, _) => !isShort piece).map fun (piece, place) =>
    .fieldTooLong place (Text.byteLength piece)

/-- The fault of the piece where reading stops: it is empty, and not the last.
    The first of the pieces has the given place. -/
def emptyFaults (index : Nat) (pieces : List (List Char)) : List PathFault :=
  if pieces[stop pieces]? = some [] ∧ stop pieces + 1 < pieces.length then
    [.emptyField (index + stop pieces)]
  else []

/-- Whether the piece where reading stops tells of a gateway. -/
def isGateway (pieces : List (List Char)) : Bool :=
  pieces[stop pieces]?.bind List.head? = some 'q'

section

variable (index : Nat) (piece : List Char) (pieces : List (List Char))

theorem stop_cons_of_goesOn (h : goesOn piece = true) :
    stop (piece :: pieces) = stop pieces + 1 := by
  rw [stop, List.findIdx_cons, h, stop]
  rfl

theorem stop_cons_of_not_goesOn (h : goesOn piece = false) : stop (piece :: pieces) = 0 := by
  rw [stop, List.findIdx_cons, h]
  rfl

theorem emptyFaults_cons_of_goesOn (h : goesOn piece = true) :
    emptyFaults index (piece :: pieces) = emptyFaults (index + 1) pieces := by
  simp only [emptyFaults, stop_cons_of_goesOn piece pieces h, List.getElem?_cons_succ,
    List.length_cons, Nat.add_lt_add_iff_right]
  rw [Nat.add_comm (stop pieces) 1, Nat.add_assoc]

theorem isGateway_cons_of_goesOn (h : goesOn piece = true) :
    isGateway (piece :: pieces) = isGateway pieces := by
  simp only [isGateway, stop_cons_of_goesOn piece pieces h, List.getElem?_cons_succ]

-- The piece where reading stops makes no field, and one fault at most.
theorem scan_of_not_goesOn (h : goesOn piece = false) :
    scan index (piece :: pieces) =
      ⟨[], emptyFaults index (piece :: pieces), isGateway (piece :: pieces)⟩ := by
  simp only [emptyFaults, isGateway, stop_cons_of_not_goesOn piece pieces h,
    List.getElem?_cons_zero, Option.bind_some]
  cases piece with
  | nil => cases pieces <;> simp [scan, empty]
  | cons c cs =>
      have hq : c = 'q' := by simpa [goesOn] using h
      simp [hq, scan, empty]

-- A piece in front of a path makes a field or a fault, and nothing else.
theorem push_eq (path : ViaPath) :
    path.push index piece =
      ⟨([piece].filter isShort).map String.ofList ++ path.fields,
        longFaults index [piece] ++ path.faults, path.provenance⟩ := by
  by_cases h : Text.byteLength piece ≤ maxFieldLength
  · simp [push, longFaults, isShort, h]
  · simp [push, longFaults, isShort, h]

theorem longFaults_cons :
    longFaults index (piece :: pieces) =
      longFaults index [piece] ++ longFaults (index + 1) pieces := by
  rw [longFaults, List.zipIdx_cons, ← List.singleton_append, List.filter_append, List.map_append,
    longFaults, longFaults]
  rfl

end

theorem isGateway_iff (pieces : List (List Char)) :
    isGateway pieces = true ↔ ∃ rest, pieces[stop pieces]? = some ('q' :: rest) := by
  rw [isGateway, decide_eq_true_eq, Option.bind_eq_some_iff]
  simp only [List.head?_eq_some_iff]
  constructor
  · rintro ⟨_, hstop, rest, rfl⟩
    exact ⟨rest, hstop⟩
  · rintro ⟨rest, hstop⟩
    exact ⟨_, hstop, rest, rfl⟩

/-- A path that ends at an empty piece tells of no gateway. -/
theorem isGateway_eq_false_of_mem_emptyFaults (index : Nat) (pieces : List (List Char))
    (fault : PathFault) (h : fault ∈ emptyFaults index pieces) : isGateway pieces = false := by
  unfold emptyFaults at h
  split at h
  · rename_i hempty
    rw [isGateway, hempty.1]
    rfl
  · exact absurd h List.not_mem_nil

theorem emptyField_not_mem_longFaults (i index : Nat) (pieces : List (List Char)) :
    .emptyField i ∉ longFaults index pieces := by
  intro h
  rcases List.mem_map.1 h with ⟨entry, -, hentry⟩
  exact nomatch hentry

/-- What is made of the pieces of a path. -/
theorem scan_eq (index : Nat) (pieces : List (List Char)) :
    scan index pieces =
      ⟨((pieces.take (stop pieces)).filter isShort).map String.ofList,
        longFaults index (pieces.take (stop pieces)) ++ emptyFaults index pieces,
        isGateway pieces⟩ := by
  induction pieces generalizing index with
  | nil => rfl
  | cons piece pieces ih =>
      cases h : goesOn piece with
      | true =>
          rw [scan_of_goesOn index piece pieces h, ih, push_eq, stop_cons_of_goesOn piece pieces h,
            List.take_succ_cons, longFaults_cons index piece (pieces.take _),
            emptyFaults_cons_of_goesOn index piece pieces h,
            isGateway_cons_of_goesOn piece pieces h, ← List.append_assoc, ← List.map_append,
            ← List.filter_append, List.singleton_append]
      | false =>
          rw [scan_of_not_goesOn index piece pieces h, stop_cons_of_not_goesOn piece pieces h]
          rfl

/-- Every piece is short enough to be a field or makes a fault. -/
theorem length_filter_isShort_add_length_longFaults (index : Nat) (pieces : List (List Char)) :
    (pieces.filter isShort).length + (longFaults index pieces).length = pieces.length := by
  have hlong : (longFaults index pieces).length = (pieces.filter fun p => !isShort p).length := by
    rw [longFaults, List.length_map, ← List.length_map (f := Prod.fst),
      ← Function.comp_def (fun p => !isShort p) Prod.fst, ← List.filter_map, List.zipIdx_map_fst]
  rw [hlong, ← List.countP_eq_length_filter, ← List.countP_eq_length_filter,
    List.length_eq_countP_add_countP isShort]
  simp only [Bool.not_eq_true, Bool.decide_eq_false]

/-- Pieces that agree as far as they are read, and of which something follows
    in both cases or in neither, make the same path. -/
theorem scan_congr (index : Nat) (pieces others : List (List Char))
    (hread : others.take (stop pieces + 1) = pieces.take (stop pieces + 1))
    (hmore : stop pieces + 1 < others.length ↔ stop pieces + 1 < pieces.length) :
    scan index others = scan index pieces := by
  induction pieces generalizing index others with
  | nil =>
      have hnone : others = [] := by simpa using hread
      rw [hnone]
  | cons piece pieces ih =>
      cases others with
      | nil => simp at hread
      | cons other others =>
          cases h : goesOn piece with
          | true =>
              rw [stop_cons_of_goesOn piece pieces h] at hread hmore
              rw [List.take_succ_cons, List.take_succ_cons, List.cons.injEq] at hread
              rw [List.length_cons, List.length_cons, Nat.add_lt_add_iff_right,
                Nat.add_lt_add_iff_right] at hmore
              rw [hread.1, scan_of_goesOn index piece _ h, scan_of_goesOn index piece _ h,
                ih (index + 1) others hread.2 hmore]
          | false =>
              -- Reading stops right here, so that only the end of the path is left to compare.
              rw [stop_cons_of_not_goesOn piece pieces h] at hread hmore
              rw [List.take_succ_cons, List.take_succ_cons, List.cons.injEq] at hread
              rw [hread.1] at hmore ⊢
              have hend := propext hmore
              rw [scan_of_not_goesOn index piece _ h, scan_of_not_goesOn index piece _ h]
              simp only [emptyFaults, isGateway, stop_cons_of_not_goesOn piece _ h,
                List.getElem?_cons_zero, hend]

end ViaPath

/-! ## Paths that are put together -/

/-- A text that can stand between commas as a field. -/
structure PlainField (field : String) : Prop where
  nonempty : field ≠ ""
  short : Text.byteLength field.toList ≤ ViaPath.maxFieldLength
  noComma : ',' ∉ field.toList
  noColon : ':' ∉ field.toList
  noGateway : field.toList.head? ≠ some 'q'

-- A separator puts nothing but itself between the pieces.
theorem not_mem_intercalate {α : Type} (sep x : α) (hsep : x ≠ sep) (pieces : List (List α))
    (h : ∀ piece ∈ pieces, x ∉ piece) : x ∉ [sep].intercalate pieces := by
  induction pieces with
  | nil => exact List.not_mem_nil
  | cons piece pieces ih =>
      have hfirst := h piece List.mem_cons_self
      have hrest := ih fun other hother => h other (List.mem_cons_of_mem _ hother)
      cases pieces with
      | nil => rwa [List.intercalate_singleton]
      | cons next pieces =>
          rw [List.intercalate_cons_cons, List.mem_append, List.mem_append, List.mem_singleton]
          rintro ((hx | hx) | hx)
          · exact hfirst hx
          · exact hsep hx
          · exact hrest hx

namespace ViaPath

theorem goesOn_of_plainField (field : String) (h : PlainField field) :
    goesOn field.toList = true := by
  have hne : field.toList ≠ [] := fun hnil => h.nonempty (String.toList_injective hnil)
  exact decide_eq_true ⟨hne, h.noGateway⟩

/-- The pieces of fields that are put together with commas. -/
theorem pieces_join (fields : List String) (hne : fields ≠ [])
    (hfields : ∀ field ∈ fields, PlainField field) :
    pieces (",".intercalate fields ++ ":") = fields.map String.toList := by
  have hlist : (",".intercalate fields ++ ":").toList =
      [','].intercalate (fields.map String.toList) ++ [':'] := by
    rw [String.toList_append, String.toList_intercalate]
    rfl
  have hcolon : ':' ∉ [','].intercalate (fields.map String.toList) := by
    refine not_mem_intercalate ',' ':' (by decide) _ fun piece hpiece => ?_
    rcases List.mem_map.1 hpiece with ⟨field, hfield, rfl⟩
    exact (hfields field hfield).noColon
  have hall : ∀ c ∈ [','].intercalate (fields.map String.toList), (c != ':') = true := by
    intro c hc
    rw [bne_iff_ne]
    rintro rfl
    exact hcolon hc
  rw [pieces, hlist, List.takeWhile_append_of_pos hall, List.takeWhile_cons_of_neg (by decide),
    List.append_nil]
  refine List.splitOn_intercalate ',' (fun piece hpiece => ?_) (by simpa using hne)
  rcases List.mem_map.1 hpiece with ⟨field, hfield, rfl⟩
  exact (hfields field hfield).noComma

-- Pieces after which reading goes on, and which are short, all are fields.
theorem scan_map_toList (index : Nat) (fields : List String)
    (hfields : ∀ field ∈ fields, PlainField field) :
    scan index (fields.map String.toList) = ⟨fields, [], false⟩ := by
  induction fields generalizing index with
  | nil => rfl
  | cons field fields ih =>
      have hfield := hfields field List.mem_cons_self
      rw [List.map_cons, scan_of_goesOn index _ _ (goesOn_of_plainField field hfield),
        ih (index + 1) fun other hother => hfields other (List.mem_cons_of_mem _ hother), push,
        if_pos hfield.short, String.ofList_toList]

/-- Fields that are put together are read back, and nothing is noted on the
    way. -/
theorem ofSegment_join (fields : List String) (hfields : ∀ field ∈ fields, PlainField field) :
    ofSegment (",".intercalate fields ++ ":") = ⟨fields, [], false⟩ := by
  cases fields with
  | nil =>
      -- The only piece of a lone `:` is empty, and it is the last.
      rfl
  | cons field fields =>
      rw [ofSegment, pieces_join (field :: fields) (List.cons_ne_nil _ _) hfields,
        scan_map_toList 0 (field :: fields) hfields]

/-- A segment is read up to the first of its pieces that is empty or starts with
    `q`. The pieces before it that are short enough are the fields, in order,
    and the others are reported as too long. An empty piece is reported too, if
    it is not the last, and a piece that starts with `q` is remembered. So every
    piece up to there is accounted for, and only one thing can be said of the
    piece itself. What follows it is not read. Fields that are put together with
    commas are read back as they are. -/
theorem ofSegment_stop (segment : String) :
    let path : ViaPath := ofSegment segment
    let ps := pieces segment
    let k := stop ps
    path.fields = ((ps.take k).filter isShort).map String.ofList ∧
      path.faults = longFaults 0 (ps.take k) ++
        (if ps[k]? = some [] ∧ k + 1 < ps.length then [.emptyField k] else []) ∧
      (path.provenance = true ↔ ∃ rest, ps[k]? = some ('q' :: rest)) ∧
      path.fields.length + (longFaults 0 (ps.take k)).length = k ∧
      ((∃ i, .emptyField i ∈ path.faults) → path.provenance = false) ∧
      (∀ other, (pieces other).take (k + 1) = ps.take (k + 1) →
        (k + 1 < (pieces other).length ↔ k + 1 < ps.length) → ofSegment other = path) ∧
      ∀ fields : List String, (∀ field ∈ fields, PlainField field) →
        ofSegment (",".intercalate fields ++ ":") = ⟨fields, [], false⟩ := by
  intro path ps k
  have hpath : path = ⟨((ps.take k).filter isShort).map String.ofList,
      longFaults 0 (ps.take k) ++ emptyFaults 0 ps, isGateway ps⟩ := scan_eq 0 ps
  have hempty : emptyFaults 0 ps =
      if ps[k]? = some [] ∧ k + 1 < ps.length then [.emptyField k] else [] := by
    rw [emptyFaults, Nat.zero_add]
  refine ⟨by rw [hpath], by rw [hpath, hempty], by rw [hpath, isGateway_iff], ?_, ?_, ?_,
    ofSegment_join⟩
  · have hk : k ≤ ps.length := List.findIdx_le_length
    rw [hpath, List.length_map, length_filter_isShort_add_length_longFaults,
      List.length_take_of_le hk]
  · rintro ⟨i, hi⟩
    rw [hpath] at hi ⊢
    rcases List.mem_append.1 hi with hlong | hend
    · exact absurd hlong (emptyField_not_mem_longFaults i 0 _)
    · exact isGateway_eq_false_of_mem_emptyFaults 0 ps _ hend
  · intro other hread hmore
    exact scan_congr 0 ps (pieces other) hread hmore

/-- A path with a field that is too long and with nothing between two commas,
    another one that is read alike, and a path that is put together. -/
theorem ofSegment_stop_doubled :
    (∃ i, .emptyField i ∈ (ofSegment "OH7LZB*,ABCDEFGHIJKLMN,,WIDE1:").faults) ∧
      (ofSegment "OH7LZB*,ABCDEFGHIJKLMN,,WIDE1:").provenance = false ∧
      (pieces "OH7LZB*,ABCDEFGHIJKLMN,,qAR,").take 3 =
        (pieces "OH7LZB*,ABCDEFGHIJKLMN,,WIDE1:").take 3 ∧
      ofSegment "OH7LZB*,ABCDEFGHIJKLMN,,qAR," = ofSegment "OH7LZB*,ABCDEFGHIJKLMN,,WIDE1:" ∧
      (∀ field ∈ ["OH7LZB*", "WIDE2-1"], PlainField field) ∧
      ofSegment (",".intercalate ["OH7LZB*", "WIDE2-1"] ++ ":") =
        ⟨["OH7LZB*", "WIDE2-1"], [], false⟩ := by
  have hstop : stop (pieces "OH7LZB*,ABCDEFGHIJKLMN,,WIDE1:") = 2 := by decide +kernel
  have hfault : ∃ i, .emptyField i ∈ (ofSegment "OH7LZB*,ABCDEFGHIJKLMN,,WIDE1:").faults :=
    ⟨2, by decide +kernel⟩
  have hread : (pieces "OH7LZB*,ABCDEFGHIJKLMN,,qAR,").take 3 =
      (pieces "OH7LZB*,ABCDEFGHIJKLMN,,WIDE1:").take 3 := by decide +kernel
  have hmore : 3 < (pieces "OH7LZB*,ABCDEFGHIJKLMN,,qAR,").length ↔
      3 < (pieces "OH7LZB*,ABCDEFGHIJKLMN,,WIDE1:").length := by decide +kernel
  have hplain : ∀ field ∈ ["OH7LZB*", "WIDE2-1"], PlainField field := by
    intro field hfield
    simp only [List.mem_cons, List.not_mem_nil, or_false] at hfield
    rcases hfield with rfl | rfl
    · exact ⟨by decide, by decide, by decide, by decide, by decide⟩
    · exact ⟨by decide, by decide, by decide, by decide, by decide⟩
  rcases ofSegment_stop "OH7LZB*,ABCDEFGHIJKLMN,,WIDE1:" with ⟨-, -, -, -, hgateway, hsame, hjoin⟩
  rw [hstop] at hsame
  exact ⟨hfault, hgateway hfault, hread, hsame _ hread hmore, hplain, hjoin _ hplain⟩

end ViaPath

end AprsRelay
