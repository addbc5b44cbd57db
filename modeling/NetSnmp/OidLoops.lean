import Mathlib.Data.List.Basic
import NetSnmp.Machine
import NetSnmp.OidCompare

/-!
# The loops that compare object identifiers

The comparison routines of `snmp_api.c` with their loop counters. The lengths are of type `size_t`,
the counters are `int`s.
-/

namespace NetSnmp

namespace OidLoops

/-- The loop over two names: the counter at the first difference, and how the subidentifiers compare
there. -/
def firstDifference : (len : Nat) → (name1 name2 : Oid) → Option (Nat × Int)
  | len + 1, subid1 :: name1, subid2 :: name2 =>
      if subid1 ≠ subid2 then some (len, if subid1 < subid2 then -1 else 1)
      else firstDifference len name1 name2
  | _, _, _ => none

/-- The passes of `while (len-- > 0)`, for an `int` that was set to a length. -/
def passes (length : Nat) : Nat := (toCInt length).toNat

def compareLengths (len1 len2 : Nat) : Int :=
  if len1 < len2 then -1 else if len2 < len1 then 1 else 0

def snmpOidNcompare (name1 name2 : Oid) (maxLen : Nat) : Int :=
  let minLen := min (min name1.length name2.length) maxLen
  match firstDifference (passes minLen) name1 name2 with
  | some (_, sign) => sign
  | none => if minLen ≠ maxLen then compareLengths name1.length name2.length else 0

def snmpOidCompare (name1 name2 : Oid) : Int :=
  match firstDifference (passes (min name1.length name2.length)) name1 name2 with
  | some (_, sign) => sign
  | none => compareLengths name1.length name2.length

/-- `netsnmp_oid_compare_ll`, with the offset. At the end of the loop the counter is one less than
zero, or than what it was from the start. -/
def netsnmpOidCompareLl (name1 name2 : Oid) : Int × Nat :=
  let initlen := toCInt (min name1.length name2.length : Nat)
  match firstDifference initlen.toNat name1 name2 with
  | some (len, sign) => (sign, (initlen - len).toNat)
  | none =>
      (compareLengths name1.length name2.length, (initlen - (min initlen 0 - 1)).toNat)

def netsnmpOidEquals (name1 name2 : Oid) : Int :=
  if name1.length ≠ name2.length then 1
  else if name1.length = 0 then 0
  else if (firstDifference (passes name1.length) name1 name2).isSome then 1
  else 0

variable {name1 name2 : Oid} {len : Nat}

theorem passes_eq (short : len < 2 ^ 31) : passes len = len := by
  rw [passes, toCInt_eq_self short, Int.toNat_natCast]

theorem firstDifference_take (len : Nat) (name1 name2 : Oid)
    (inside : len ≤ min name1.length name2.length) :
    (match firstDifference len name1 name2 with
      | some (_, sign) => sign
      | none => 0) = lexCompare (name1.take len) (name2.take len) := by
  induction len generalizing name1 name2 with
  | zero => simp [firstDifference]
  | succ len ih =>
      cases name1 with
      | nil => simp at inside
      | cons subid1 name1 =>
          cases name2 with
          | nil => simp at inside
          | cons subid2 name2 =>
              rw [List.take_succ_cons, List.take_succ_cons, lexCompare]
              by_cases differ : subid1 ≠ subid2
              · rw [firstDifference, if_pos differ, if_pos differ]
              · rw [firstDifference, if_neg differ, if_neg differ]
                apply ih
                simpa using inside

theorem firstDifference_sign {difference : Nat × Int}
    (found : firstDifference len name1 name2 = some difference) : difference.2 ≠ 0 := by
  induction len generalizing name1 name2 with
  | zero => simp [firstDifference] at found
  | succ len ih =>
      unfold firstDifference at found
      split at found
      next subid1 rest1 subid2 rest2 length_eq =>
        cases length_eq
        split at found
        · cases found
          split
          · exact Int.neg_ne_zero.mpr Int.one_ne_zero
          · exact Int.one_ne_zero
        · exact ih found
      next => nomatch found

theorem firstDifference_eq_none_iff (inside : len ≤ min name1.length name2.length) :
    firstDifference len name1 name2 = none ↔ name1.take len = name2.take len := by
  have order := firstDifference_take len name1 name2 inside
  rw [← lexCompare_eq_zero_iff, ← order]
  cases found : firstDifference len name1 name2 with
  | none => simp
  | some difference => simpa using firstDifference_sign found

theorem firstDifference_append (front : Oid) {subid1 subid2 : Nat} (differ : subid1 ≠ subid2)
    (rest1 rest2 : Oid) (left : Nat) :
    firstDifference (front.length + 1 + left) (front ++ subid1 :: rest1)
      (front ++ subid2 :: rest2) = some (left, if subid1 < subid2 then -1 else 1) := by
  induction front with
  | nil =>
      rw [List.length_nil, Nat.zero_add, Nat.add_comm, List.nil_append, List.nil_append,
        firstDifference, if_pos differ]
  | cons subid front ih =>
      rw [List.length_cons, show front.length + 1 + 1 + left = front.length + 1 + left + 1 by omega,
        List.cons_append, List.cons_append, firstDifference, if_neg (not_not_intro rfl), ih]

theorem lexCompare_of_take_eq (name1 name2 : Oid)
    (same : name1.take (min name1.length name2.length) =
      name2.take (min name1.length name2.length)) :
    lexCompare name1 name2 = compareLengths name1.length name2.length := by
  induction name1 generalizing name2 with
  | nil => cases name2 <;> simp [lexCompare, compareLengths]
  | cons subid1 name1 ih =>
      cases name2 with
      | nil => simp [lexCompare, compareLengths]
      | cons subid2 name2 =>
          simp only [List.length_cons, Nat.succ_min_succ, List.take_succ_cons,
            List.cons.injEq] at same
          rcases same with ⟨rfl, same⟩
          rw [lexCompare_cons_self, ih name2 same]
          simp [compareLengths]

theorem lexCompare_of_take_ne (len : Nat) (name1 name2 : Oid)
    (inside : len ≤ min name1.length name2.length) (differ : name1.take len ≠ name2.take len) :
    lexCompare name1 name2 = lexCompare (name1.take len) (name2.take len) := by
  induction len generalizing name1 name2 with
  | zero => simp at differ
  | succ len ih =>
      cases name1 with
      | nil => simp at inside
      | cons subid1 name1 =>
          cases name2 with
          | nil => simp at inside
          | cons subid2 name2 =>
              rw [List.take_succ_cons, List.take_succ_cons] at differ ⊢
              by_cases same : subid1 = subid2
              · subst same
                rw [lexCompare_cons_self, lexCompare_cons_self]
                apply ih
                · simpa using inside
                · simpa using differ
              · simp [lexCompare, same]

theorem firstDifference_eq_lexCompare (name1 name2 : Oid) :
    (match firstDifference (min name1.length name2.length) name1 name2 with
      | some (_, sign) => sign
      | none => compareLengths name1.length name2.length) = lexCompare name1 name2 := by
  have inside := le_refl (min name1.length name2.length)
  have order := firstDifference_take _ name1 name2 inside
  have none_iff := firstDifference_eq_none_iff inside
  cases found : firstDifference (min name1.length name2.length) name1 name2 with
  | none => exact (lexCompare_of_take_eq name1 name2 (none_iff.mp found)).symm
  | some difference =>
      rw [found] at order none_iff
      have differ := mt none_iff.mpr (Option.some_ne_none _)
      rw [lexCompare_of_take_ne _ name1 name2 inside differ]
      exact order

theorem firstDifference_takes {count : Nat} (inside : len ≤ count) (name1 name2 : Oid) :
    firstDifference len (name1.take count) (name2.take count) =
      firstDifference len name1 name2 := by
  induction len generalizing count name1 name2 with
  | zero => simp [firstDifference]
  | succ len ih =>
      cases count with
      | zero => exact absurd inside (Nat.not_succ_le_zero len)
      | succ count =>
          cases name1 with
          | nil => simp [firstDifference]
          | cons subid1 name1 =>
              cases name2 with
              | nil => simp [firstDifference]
              | cons subid2 name2 =>
                  rw [List.take_succ_cons, List.take_succ_cons, firstDifference, firstDifference,
                    ih (Nat.le_of_succ_le_succ inside)]

theorem snmpOidCompare_eq (short : min name1.length name2.length < 2 ^ 31) :
    snmpOidCompare name1 name2 = NetSnmp.snmpOidCompare name1 name2 := by
  rw [snmpOidCompare, passes_eq short]
  exact firstDifference_eq_lexCompare name1 name2

theorem netsnmpOidCompareLl_eq (short : min name1.length name2.length < 2 ^ 31) :
    (netsnmpOidCompareLl name1 name2).1 = NetSnmp.snmpOidCompare name1 name2 := by
  rw [← snmpOidCompare_eq short, netsnmpOidCompareLl, snmpOidCompare, passes]
  cases firstDifference (toCInt (min name1.length name2.length : Nat)).toNat name1 name2 <;> rfl

theorem netsnmpOidCompareLl_offset {front rest1 rest2 : Oid} {subid1 subid2 : Nat}
    (differ : subid1 ≠ subid2)
    (short : min (front ++ subid1 :: rest1).length (front ++ subid2 :: rest2).length < 2 ^ 31) :
    (netsnmpOidCompareLl (front ++ subid1 :: rest1) (front ++ subid2 :: rest2)).2 =
      front.length + 1 := by
  have count_eq : min (front ++ subid1 :: rest1).length (front ++ subid2 :: rest2).length =
      front.length + 1 + min rest1.length rest2.length := by
    simp only [List.length_append, List.length_cons]
    omega
  rw [count_eq] at short
  rw [netsnmpOidCompareLl, count_eq, toCInt_eq_self short]
  simp only [Int.toNat_natCast, firstDifference_append front differ]
  omega

theorem snmpOidNcompare_eq (maxLen : Nat)
    (short : min (min name1.length name2.length) maxLen < 2 ^ 31) :
    snmpOidNcompare name1 name2 maxLen =
      lexCompare (name1.take maxLen) (name2.take maxLen) := by
  have order := firstDifference_eq_lexCompare (name1.take maxLen) (name2.take maxLen)
  have count_eq : min (name1.take maxLen).length (name2.take maxLen).length =
      min (min name1.length name2.length) maxLen := by
    rw [List.length_take, List.length_take]
    omega
  rw [count_eq, firstDifference_takes (Nat.min_le_right _ _), List.length_take,
    List.length_take] at order
  simp only [snmpOidNcompare, passes_eq short]
  rw [← order]
  cases firstDifference (min (min name1.length name2.length) maxLen) name1 name2 with
  | some difference => rfl
  | none =>
      simp only [compareLengths]
      split_ifs <;> omega

theorem netsnmpOidEquals_eq_zero_iff (short : min name1.length name2.length < 2 ^ 31) :
    netsnmpOidEquals name1 name2 = 0 ↔ name1 = name2 := by
  rw [netsnmpOidEquals]
  by_cases sameLength : name1.length = name2.length
  · rw [if_neg (not_not_intro sameLength)]
    rw [sameLength, Nat.min_self] at short
    have inside : name1.length ≤ min name1.length name2.length := by
      rw [sameLength, Nat.min_self]
    have none_iff := firstDifference_eq_none_iff inside
    rw [List.take_length, sameLength, List.take_length] at none_iff
    split_ifs with zero some
    · rw [List.length_eq_zero_iff] at zero
      rw [zero] at sameLength ⊢
      exact iff_of_true rfl (List.length_eq_zero_iff.mp sameLength.symm).symm
    · rw [sameLength, passes_eq short] at some
      refine iff_of_false (by decide) fun same => ?_
      rw [none_iff.mpr same] at some
      nomatch some
    · rw [sameLength, passes_eq short] at some
      exact iff_of_true rfl (none_iff.mp (Option.not_isSome_iff_eq_none.mp some))
  · rw [if_pos sameLength]
    exact iff_of_false (by decide) fun same => sameLength (congrArg List.length same)

/-- For the names within a set: `snmp_oid_compare` is a strict total order, the lexicographic one,
and the other routines give what it does. -/
structure ComparesNames (within : Oid → Prop) : Prop where
  equal : ∀ name1 name2, within name1 → within name2 →
    (snmpOidCompare name1 name2 = 0 ↔ name1 = name2)
  less : ∀ name1 name2, within name1 → within name2 →
    (snmpOidCompare name1 name2 < 0 ↔ name1 < name2)
  converse : ∀ name1 name2, within name1 → within name2 →
    snmpOidCompare name2 name1 = -snmpOidCompare name1 name2
  transitive : ∀ name1 name2 name3, within name1 → within name2 → within name3 →
    snmpOidCompare name1 name2 < 0 → snmpOidCompare name2 name3 < 0 →
      snmpOidCompare name1 name3 < 0
  sign : ∀ name1 name2, within name1 → within name2 →
    (netsnmpOidCompareLl name1 name2).1 = snmpOidCompare name1 name2
  offset : ∀ (front rest1 rest2 : Oid) (subid1 subid2 : Nat), subid1 ≠ subid2 →
    within (front ++ subid1 :: rest1) → within (front ++ subid2 :: rest2) →
      (netsnmpOidCompareLl (front ++ subid1 :: rest1) (front ++ subid2 :: rest2)).2 =
        1 + front.length
  bounded : ∀ name1 name2 maxLen, within name1 → within name2 →
    snmpOidNcompare name1 name2 maxLen =
      snmpOidCompare (name1.take maxLen) (name2.take maxLen)
  equals : ∀ name1 name2, within name1 → within name2 →
    (netsnmpOidEquals name1 name2 = 0 ↔ snmpOidCompare name1 name2 = 0)

theorem lexCompare_converse (name1 name2 : Oid) :
    lexCompare name2 name1 = -lexCompare name1 name2 := by
  rcases lt_trichotomy name1 name2 with lt | rfl | gt
  · rw [lexCompare_of_lt lt, lexCompare_of_gt lt, neg_neg]
  · rw [lexCompare_self, neg_zero]
  · rw [lexCompare_of_lt gt, lexCompare_of_gt gt]

theorem comparesNames_short : ComparesNames fun name => name.length < 2 ^ 31 := by
  have short {name1 name2 : Oid} (short1 : name1.length < 2 ^ 31) :
      min name1.length name2.length < 2 ^ 31 := lt_of_le_of_lt (Nat.min_le_left _ _) short1
  constructor
  · intro name1 name2 short1 _
    rw [snmpOidCompare_eq (short short1)]
    exact lexCompare_eq_zero_iff
  · intro name1 name2 short1 _
    rw [snmpOidCompare_eq (short short1)]
    exact lexCompare_neg_iff
  · intro name1 name2 short1 short2
    rw [snmpOidCompare_eq (short short1), snmpOidCompare_eq (short short2)]
    exact lexCompare_converse name1 name2
  · intro name1 name2 name3 short1 short2 _ less12 less23
    rw [snmpOidCompare_eq (short short1)] at less12 ⊢
    rw [snmpOidCompare_eq (short short2)] at less23
    apply lexCompare_neg_iff.mpr
    exact lt_trans (lexCompare_neg_iff.mp less12) (lexCompare_neg_iff.mp less23)
  · intro name1 name2 short1 _
    rw [snmpOidCompare_eq (short short1), netsnmpOidCompareLl_eq (short short1)]
  · intro front rest1 rest2 subid1 subid2 differ short1 _
    rw [netsnmpOidCompareLl_offset differ (short short1), Nat.add_comm]
  · intro name1 name2 maxLen short1 _
    have inside : min (min name1.length name2.length) maxLen < 2 ^ 31 :=
      lt_of_le_of_lt (Nat.min_le_left _ _) (short short1)
    have inside' : (name1.take maxLen).length < 2 ^ 31 :=
      lt_of_le_of_lt (List.length_take_le' _ _) short1
    rw [snmpOidNcompare_eq maxLen inside, snmpOidCompare_eq (short inside')]
    rfl
  · intro name1 name2 short1 _
    rw [netsnmpOidEquals_eq_zero_iff (short short1), snmpOidCompare_eq (short short1)]
    exact lexCompare_eq_zero_iff.symm

theorem passes_large : passes (2 ^ 31) = 0 := by decide

theorem firstDifference_zero (name1 name2 : Oid) : firstDifference 0 name1 name2 = none := by
  simp [firstDifference]

theorem snmpOidCompare_large {name1 name2 : Oid} (length1 : name1.length = 2 ^ 31)
    (length2 : name2.length = 2 ^ 31) : snmpOidCompare name1 name2 = 0 := by
  rw [snmpOidCompare, length1, length2, Nat.min_self, passes_large, firstDifference_zero]
  simp [compareLengths]

theorem replicate_ne {count : Nat} (some : count ≠ 0) :
    List.replicate count 0 ≠ (List.replicate count 1 : Oid) := by
  intro same
  rcases (List.replicate_inj.mp same).2 with none | wrong
  · exact some none
  · exact absurd wrong (by decide)

/-- The comparisons are right for the names of at most so many subidentifiers exactly if an `int`
can hold this number. -/
theorem comparesNames_iff (bound : Nat) :
    ComparesNames (fun name => name.length ≤ bound) ↔ bound < 2 ^ 31 := by
  constructor
  · intro compares
    by_contra large
    have within : ∀ subid : Nat, (List.replicate (2 ^ 31) subid).length ≤ bound := by
      intro subid
      rw [List.length_replicate]
      exact Nat.le_of_not_lt large
    have zero := @snmpOidCompare_large (List.replicate (2 ^ 31) 0) (List.replicate (2 ^ 31) 1)
      List.length_replicate List.length_replicate
    exact replicate_ne (by decide) ((compares.equal _ _ (within 0) (within 1)).mp zero)
  · intro small
    have inside {name : Oid} (within : name.length ≤ bound) : name.length < 2 ^ 31 :=
      lt_of_le_of_lt within small
    have compares := comparesNames_short
    exact ⟨fun name1 name2 within1 within2 =>
        compares.equal name1 name2 (inside within1) (inside within2),
      fun name1 name2 within1 within2 =>
        compares.less name1 name2 (inside within1) (inside within2),
      fun name1 name2 within1 within2 =>
        compares.converse name1 name2 (inside within1) (inside within2),
      fun name1 name2 name3 within1 within2 within3 =>
        compares.transitive name1 name2 name3 (inside within1) (inside within2) (inside within3),
      fun name1 name2 within1 within2 =>
        compares.sign name1 name2 (inside within1) (inside within2),
      fun front rest1 rest2 subid1 subid2 differ within1 within2 =>
        compares.offset front rest1 rest2 subid1 subid2 differ (inside within1) (inside within2),
      fun name1 name2 maxLen within1 within2 =>
        compares.bounded name1 name2 maxLen (inside within1) (inside within2),
      fun name1 name2 within1 within2 =>
        compares.equals name1 name2 (inside within1) (inside within2)⟩

theorem not_comparesNames : ¬ ComparesNames fun _ => True := by
  intro compares
  have zero := @snmpOidCompare_large (List.replicate (2 ^ 31) 0) (List.replicate (2 ^ 31) 1)
    List.length_replicate List.length_replicate
  exact replicate_ne (by decide) ((compares.equal _ _ trivial trivial).mp zero)

end OidLoops

end NetSnmp
