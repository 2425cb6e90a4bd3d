import AprsRelay.Proofs.Via.FirstKey
import AprsRelay.Proofs.Via.Fields

/-!
# Unspent Hops

A frame is sent on when the fields of its path ask for more hops in total than
they show as done. No field shows more hops as done than it asks for, not even
one that claims to have more hops left than were asked for: there the count of
done hops falls below zero. So the totals differ exactly when some field on
its own still has a hop to give, and no field can make up for another.

What a field with a keyword asks for is decided by the bytes behind the
keyword. `SuffixRow` lists the possible shapes of these bytes, one row for each
way to read them.

## Main definitions

* `IsHopDigit`, `StartsCounted`: Digits that count hops, and bytes that start
  with two of them around a dash.
* `SuffixRow`: The rows of the table of suffixes.
* `LeavesHop`: Suffixes with a hop left.
* `UnspentAt`: A piece of a path that has a hop left.

## Theorems

* `suffixRow_ofSuffix`: Every suffix is read by a row of the table.
* `completed_le_requested`: No field has done more than was asked for.
* `remaining_iff_of_suffixRow`: When a single field has a hop left.
* `remaining_foldl_iff`: The totals against the single fields.
* `accepted_accountIn_iff`: When a path has a hop left.
-/

namespace AprsRelay

/-- A digit from `low` to seven. -/
def IsHopDigit (low : Nat) (b : UInt8) : Prop :=
  0x30 + low ≤ b.toNat ∧ b.toNat ≤ 0x37

/-- The number that a digit stands for. -/
def digitValue (b : UInt8) : Nat :=
  b.toNat - 0x30

/-- Bytes that start with `n-m`, where `n` is a digit from one on and `m` one
    from `low` on. -/
def StartsCounted (low : Nat) (t : Bytes) : Prop :=
  ∃ n m rest, t = n :: hopDash :: m :: rest ∧ IsHopDigit 1 n ∧ IsHopDigit low m

/-- The shapes of what stands behind a keyword, and how each is read. -/
inductive SuffixRow : Bytes → HopCase → Prop
  | bare : SuffixRow [] .bare
  | executed : SuffixRow [relayMark] .executed
  | exhausted (n : UInt8) (hn : IsHopDigit 1 n) : SuffixRow [n] (.exhausted (digitValue n))
  | exhaustedMarked (n : UInt8) (hn : IsHopDigit 1 n) :
      SuffixRow [n, relayMark] (.exhausted (digitValue n))
  | remaining (n m : UInt8) (rest : Bytes) (hn : IsHopDigit 1 n) (hm : IsHopDigit 0 m) :
      SuffixRow (n :: hopDash :: m :: rest) (.remaining (digitValue n) (digitValue m))
  | badRemainder (n : UInt8) (rest : Bytes) (hn : IsHopDigit 1 n)
      (hrest : ∀ m ∈ rest.head?, ¬ IsHopDigit 0 m) :
      SuffixRow (n :: hopDash :: rest) .badRemainder
  | noDash (n c : UInt8) (rest : Bytes) (hn : IsHopDigit 1 n) (hdash : c ≠ hopDash)
      (hmark : ¬ (c = relayMark ∧ rest = [])) : SuffixRow (n :: c :: rest) .noDash
  | notDigit (c : UInt8) (rest : Bytes) (hc : ¬ IsHopDigit 1 c)
      (hmark : ¬ (c = relayMark ∧ rest = [])) : SuffixRow (c :: rest) .notDigit

theorem hopDigit?_of_isHopDigit (low : Nat) (b : UInt8) (h : IsHopDigit low b) :
    hopDigit? low b = some (digitValue b) := by
  exact if_pos h

theorem hopDigit?_of_not_isHopDigit (low : Nat) (b : UInt8) (h : ¬ IsHopDigit low b) :
    hopDigit? low b = none := by
  exact if_neg h

-- What follows a hop digit is read by a row of the table.
theorem suffixRow_afterDigit (n : UInt8) (hn : IsHopDigit 1 n) (t : Bytes) :
    SuffixRow (n :: t) (HopCase.afterDigit (digitValue n) t) := by
  cases t with
  | nil => exact .exhausted n hn
  | cons c rest =>
      rw [HopCase.afterDigit]
      by_cases hdash : c = hopDash
      · rw [if_pos hdash, hdash]
        cases rest with
        | nil => exact .badRemainder n [] hn (by simp)
        | cons m rest =>
            simp only [List.head?_cons, Option.bind_some]
            by_cases hm : IsHopDigit 0 m
            · rw [hopDigit?_of_isHopDigit 0 m hm]
              exact .remaining n m rest hn hm
            · rw [hopDigit?_of_not_isHopDigit 0 m hm]
              exact .badRemainder n (m :: rest) hn (by simpa using hm)
      · rw [if_neg hdash]
        by_cases hmark : c = relayMark ∧ rest = []
        · rw [if_pos hmark, hmark.1, hmark.2]
          exact .exhaustedMarked n hn
        · rw [if_neg hmark]
          exact .noDash n c rest hn hdash hmark

/-- Whatever stands behind a keyword is read by a row of the table. -/
theorem suffixRow_ofSuffix (t : Bytes) : SuffixRow t (HopCase.ofSuffix t) := by
  cases t with
  | nil => exact .bare
  | cons c rest =>
      rw [HopCase.ofSuffix]
      by_cases hmark : c = relayMark ∧ rest = []
      · rw [if_pos hmark, hmark.1, hmark.2]
        exact .executed
      · rw [if_neg hmark]
        by_cases hc : IsHopDigit 1 c
        · rw [hopDigit?_of_isHopDigit 1 c hc]
          exact suffixRow_afterDigit c hc rest
        · rw [hopDigit?_of_not_isHopDigit 1 c hc]
          exact .notDigit c rest hc hmark

/-- A suffix with a hop left: nothing, or `n-m` with at least one left, or a
    suffix that is not clear in a field without the mark of a relay. A single
    digit is clear, and so is `n-0`. -/
def LeavesHop (field t : Bytes) : Prop :=
  t = [] ∨ StartsCounted 1 t ∨
    (relayMark ∉ field ∧ t ≠ [] ∧ (∀ n, t = [n] → ¬ IsHopDigit 1 n) ∧ ¬ StartsCounted 0 t)

theorem isHopDigit_mono {low low' : Nat} (hle : low' ≤ low) (b : UInt8) (h : IsHopDigit low b) :
    IsHopDigit low' b := by
  rcases h with ⟨hlow, hhigh⟩
  exact ⟨by omega, hhigh⟩

theorem startsCounted_mono (t : Bytes) (h : StartsCounted 1 t) : StartsCounted 0 t := by
  rcases h with ⟨n, m, rest, ht, hn, hm⟩
  exact ⟨n, m, rest, ht, hn, isHopDigit_mono (Nat.zero_le 1) m hm⟩

-- A suffix that is not clear leaves its one hop if the field has no mark.
theorem leavesHop_iff_of_unclear (field t : Bytes) (hne : t ≠ [])
    (hsingle : ∀ n, t = [n] → ¬ IsHopDigit 1 n) (hcounted : ¬ StartsCounted 0 t) :
    LeavesHop field t ↔ relayMark ∉ field := by
  constructor
  · intro hgiven
    rcases hgiven with hnil | hone | ⟨hmark, -⟩
    · exact absurd hnil hne
    · exact absurd (startsCounted_mono t hone) hcounted
    · exact hmark
  · intro hmark
    exact Or.inr (Or.inr ⟨hmark, hne, hsingle, hcounted⟩)

-- In a marked field a suffix leaves a hop only if it says so.
theorem not_leavesHop_of_marked (field t : Bytes) (hne : t ≠ []) (hcounted : ¬ StartsCounted 1 t)
    (hmark : relayMark ∈ field) : ¬ LeavesHop field t := by
  intro hgiven
  rcases hgiven with hnil | hone | ⟨hnot, -⟩
  · exact hne hnil
  · exact hcounted hone
  · exact hnot hmark

theorem remaining_single_iff (field : Bytes) :
    (⟨1, (isMarked field).toNat, 0⟩ : Hops).remaining = true ↔ relayMark ∉ field := by
  cases hmark : isMarked field with
  | true =>
      have hmem : relayMark ∈ field := by simpa [isMarked] using hmark
      simp [Hops.remaining, hmem]
  | false =>
      have hmem : relayMark ∉ field := by simpa [isMarked] using hmark
      simp [Hops.remaining, hmem]

/-- A suffix leaves a hop exactly when more hops are asked for than are done,
    in whichever row of the table it stands. -/
theorem remaining_iff_of_suffixRow (field t : Bytes) (hsub : ∀ b ∈ t, b ∈ field) (case : HopCase)
    (h : SuffixRow t case) :
    (case.hops (isMarked field)).remaining = true ↔ LeavesHop field t := by
  cases h with
  | bare => simp [HopCase.hops, Hops.remaining, LeavesHop]
  | executed =>
      have hnot : ¬ LeavesHop field [relayMark] :=
        not_leavesHop_of_marked _ _ (by simp) (by simp [StartsCounted]) (hsub _ (by simp))
      simp [HopCase.hops, Hops.remaining, hnot]
  | exhausted n hn =>
      have hnot : ¬ LeavesHop field [n] := by
        intro hgiven
        rcases hgiven with hnil | hone | ⟨-, -, hsingle, -⟩
        · simp at hnil
        · simp [StartsCounted] at hone
        · exact hsingle n rfl hn
      simp [HopCase.hops, Hops.remaining, hnot]
  | exhaustedMarked n hn =>
      have hnot : ¬ LeavesHop field [n, relayMark] :=
        not_leavesHop_of_marked _ _ (by simp) (by simp [StartsCounted]) (hsub _ (by simp))
      simp [HopCase.hops, Hops.remaining, hnot]
  | remaining n m rest hn hm =>
      -- The hops that are done fall short of those asked for by `m`.
      have hleft : (HopCase.hops (isMarked field)
          (.remaining (digitValue n) (digitValue m))).remaining = true ↔ 0 < digitValue m := by
        rw [Hops.remaining, decide_eq_true_eq]
        simp only [HopCase.hops]
        omega
      have hpos : 0 < digitValue m ↔ IsHopDigit 1 m := by
        rcases hm with ⟨hlow, hhigh⟩
        simp only [digitValue, IsHopDigit]
        omega
      have hcounted : StartsCounted 0 (n :: hopDash :: m :: rest) := ⟨n, m, rest, rfl, hn, hm⟩
      rw [hleft, hpos]
      constructor
      · intro hone
        exact Or.inr (Or.inl ⟨n, m, rest, rfl, hn, hone⟩)
      · intro hgiven
        rcases hgiven with hnil | ⟨n', m', rest', heq, -, hone⟩ | ⟨-, -, -, hnot⟩
        · simp at hnil
        · simp only [List.cons.injEq, true_and] at heq
          rw [heq.2.1]
          exact hone
        · exact absurd hcounted hnot
  | badRemainder n rest hn hrest =>
      refine (remaining_single_iff field).trans (leavesHop_iff_of_unclear _ _ ?_ ?_ ?_).symm
      · simp
      · simp
      · intro hgiven
        rcases hgiven with ⟨n', m, rest', heq, -, hm⟩
        simp only [List.cons.injEq, true_and] at heq
        exact hrest m (by simp [heq.2]) hm
  | noDash n c rest hn hdash hmark =>
      refine (remaining_single_iff field).trans (leavesHop_iff_of_unclear _ _ ?_ ?_ ?_).symm
      · simp
      · simp
      · intro hgiven
        rcases hgiven with ⟨n', m, rest', heq, -, -⟩
        simp only [List.cons.injEq] at heq
        exact hdash heq.2.1
  | notDigit c rest hc hmark =>
      refine (remaining_single_iff field).trans (leavesHop_iff_of_unclear _ _ ?_ ?_ ?_).symm
      · simp
      · intro n heq
        rwa [← (List.cons.inj heq).1]
      · intro hgiven
        rcases hgiven with ⟨n, m, rest', heq, hn, -⟩
        rw [(List.cons.inj heq).1] at hc
        exact hc hn

/-- No field has more hops done than were asked for, however it is read. -/
theorem completed_le_requested (marked : Bool) (case : HopCase) :
    (case.hops marked).completed ≤ (case.hops marked).requested := by
  have hmarked : (marked.toNat : Int) ≤ 1 := by
    cases marked <;> decide
  cases case with
  | remaining n m =>
      simp only [HopCase.hops]
      omega
  | notDigit => exact hmarked
  | noDash => exact hmarked
  | badRemainder => exact hmarked
  | _ => simp [HopCase.hops]

/-- A field has a hop left when a keyword begins it and what stands behind the
    keyword leaves a hop. -/
theorem remaining_fieldHops_iff (sets : KeywordScopes) (hsets : sets.Sound) (field : String) :
    (fieldHops sets field).remaining = true ↔
      ∃ entry t, firstKey? sets (Text.utf8 field.toList) = some entry ∧
        Text.utf8 field.toList = Text.utf8 entry.2.toList ++ t ∧
        LeavesHop (Text.utf8 field.toList) t := by
  unfold fieldHops Hops.ofField HopCase.ofField
  cases hkey : firstKey? sets (Text.utf8 field.toList) with
  | none =>
      -- Without a keyword a field shows traces only.
      rw [if_pos ((keyLength_eq_zero_iff sets hsets field).2 hkey)]
      simp [HopCase.hops, Hops.remaining]
  | some entry =>
      have hlength : keyLength sets field ≠ 0 := by
        intro hzero
        rw [(keyLength_eq_zero_iff sets hsets field).1 hzero] at hkey
        simp at hkey
      have hdrop := drop_keyLength sets hsets field entry hkey
      rw [if_neg hlength, remaining_iff_of_suffixRow _ _ (fun b hb => List.mem_of_mem_drop hb) _
        (suffixRow_ofSuffix _)]
      constructor
      · intro hleaves
        exact ⟨entry, _, rfl, hdrop, hleaves⟩
      · intro hgiven
        rcases hgiven with ⟨entry', t, hentry, ht, hleaves⟩
        rcases Option.some.inj hentry with rfl
        rw [List.append_cancel_left (ht.symm.trans hdrop)] at hleaves
        exact hleaves

/-- The totals of several fields show a hop left exactly when one of the fields
    does, or the counters did before. No field shows more hops as done than it
    asks for, so none can take a hop from another. -/
theorem remaining_foldl_iff {α : Type} (hops : α → Hops)
    (hle : ∀ x, (hops x).completed ≤ (hops x).requested) (fields : List α) (h : Hops)
    (hh : h.completed ≤ h.requested) :
    (fields.foldl (fun h x => h + hops x) h).remaining = true ↔
      h.remaining = true ∨ ∃ x ∈ fields, (hops x).remaining = true := by
  induction fields generalizing h with
  | nil => simp
  | cons x fields ih =>
      have hx := hle x
      have hsum : (h + hops x).completed ≤ (h + hops x).requested := by
        simp only [Hops.completed_add, Hops.requested_add]
        omega
      have hfirst : (h + hops x).remaining = true ↔
          h.remaining = true ∨ (hops x).remaining = true := by
        simp only [Hops.remaining, Hops.completed_add, Hops.requested_add, decide_eq_true_eq]
        omega
      rw [List.foldl_cons, ih (h + hops x) hsum, hfirst]
      simp only [List.mem_cons, exists_eq_or_imp, or_assoc]

/-- A path has a hop left exactly when one of its fields has. -/
theorem accepted_accountIn_iff (sets : KeywordScopes) (segment : String) :
    (accountIn sets segment).accepted = true ↔
      ∃ field ∈ (ViaPath.ofSegment segment).fields, (fieldHops sets field).remaining = true := by
  have hle : ∀ field, (fieldHops sets field).completed ≤ (fieldHops sets field).requested :=
    fun field => completed_le_requested _ _
  have hzero : (0 : Hops).remaining = false := by decide
  rw [PathAccount.accepted, accountIn, remaining_foldl_iff _ hle _ 0 (by simp), hzero]
  simp

/-- The piece at a place of a path has a hop left: reading gets as far as this
    piece, it is short enough to count, a keyword begins it, and what stands
    behind the first keyword that does leaves a hop. -/
def UnspentAt (sets : KeywordScopes) (pieces : List (List Char)) (j : Nat) : Prop :=
  ∃ piece entry t, pieces[j]? = some piece ∧
    (∀ k ≤ j, ∀ q, pieces[k]? = some q → q ≠ [] ∧ q.head? ≠ some 'q') ∧
    Text.byteLength piece ≤ ViaPath.maxFieldLength ∧
    firstKey? sets (Text.utf8 piece) = some entry ∧
    Text.utf8 piece = Text.utf8 entry.2.toList ++ t ∧ LeavesHop (Text.utf8 piece) t

/-- A path has a hop left exactly when one of its pieces has. -/
theorem accepted_accountIn_iff_unspentAt (sets : KeywordScopes) (hsets : sets.Sound)
    (segment : String) :
    (accountIn sets segment).accepted = true ↔
      ∃ j, UnspentAt sets (ViaPath.pieces segment) j := by
  rw [accepted_accountIn_iff]
  constructor
  · intro hgiven
    rcases hgiven with ⟨field, hfield, hhops⟩
    rcases (ViaPath.mem_fields_iff segment field).1 hfield with ⟨j, piece, hj, hall, hshort, rfl⟩
    rcases (remaining_fieldHops_iff sets hsets _).1 hhops with ⟨entry, t, hkey, ht, hleaves⟩
    rw [String.toList_ofList] at hkey ht hleaves
    exact ⟨j, piece, entry, t, hj, hall, hshort, hkey, ht, hleaves⟩
  · intro hgiven
    rcases hgiven with ⟨j, piece, entry, t, hj, hall, hshort, hkey, ht, hleaves⟩
    refine ⟨String.ofList piece,
      (ViaPath.mem_fields_iff segment _).2 ⟨j, piece, hj, hall, hshort, rfl⟩,
      (remaining_fieldHops_iff sets hsets _).2 ⟨entry, t, ?_⟩⟩
    rw [String.toList_ofList]
    exact ⟨hkey, ht, hleaves⟩

end AprsRelay
