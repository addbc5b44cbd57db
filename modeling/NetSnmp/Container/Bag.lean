import Mathlib.Data.Multiset.MapFold
import Mathlib.Data.Multiset.UnionInter
import NetSnmp.Container.BinarySearch

/-!
# Binary-array containers as multisets

What the calls do to the multiset of the elements, and what the lookups return of
it, over all sequences of calls.
-/

namespace NetSnmp

variable {α κ : Type}

/-- A multiset of elements, and whether several of them may have the same key. -/
structure Bag (α : Type) where
  elements : Multiset α
  allowDuplicates : Bool

/-- A call as an operation on a multiset.  Elements that are named by an index stand at this place
at the time of the call. -/
inductive Bag.Step (key : α → κ) (place : Nat → Option α) :
    BinaryArrayOp α → Bag α → Bag α → Prop
  | insert {entry : α} {bag : Bag α}
      (isNew : bag.allowDuplicates = true ∨ ∀ other ∈ bag.elements, key other ≠ key entry) :
      Step key place (.insert entry) bag { bag with elements := entry ::ₘ bag.elements }
  | insertRefused {entry other : α} {bag : Bag α} (single : bag.allowDuplicates = false)
      (mem : other ∈ bag.elements) (same : key other = key entry) :
      Step key place (.insert entry) bag bag
  | insertBefore {index : Nat} {entry : α} {bag : Bag α} (inside : index ≤ bag.elements.card) :
      Step key place (.insertBefore index entry) bag
        { bag with elements := entry ::ₘ bag.elements }
  | insertBeforeRefused {index : Nat} {entry : α} {bag : Bag α}
      (outside : bag.elements.card < index) : Step key place (.insertBefore index entry) bag bag
  | remove {k entry : α} {elements : Multiset α} {allowDuplicates : Bool}
      (same : key entry = key k) :
      Step key place (.remove k) ⟨entry ::ₘ elements, allowDuplicates⟩ ⟨elements, allowDuplicates⟩
  | removeAbsent {k : α} {bag : Bag α} (absent : ∀ other ∈ bag.elements, key other ≠ key k) :
      Step key place (.remove k) bag bag
  | removeAt {index : Nat} {entry : α} {elements : Multiset α} {allowDuplicates : Bool}
      (there : place index = some entry) :
      Step key place (.removeAt index) ⟨entry ::ₘ elements, allowDuplicates⟩
        ⟨elements, allowDuplicates⟩
  | removeAtEmpty {index : Nat} {bag : Bag α} (empty : bag.elements = 0) :
      Step key place (.removeAt index) bag bag
  | options {flags : Nat} {bag : Bag α} :
      Step key place (.options flags) bag
        { bag with allowDuplicates :=
            if flags &&& 3 = flags then flags.testBit 0 else bag.allowDuplicates }
  | find {k : Option α} {bag : Bag α} : Step key place (.find k) bag bag
  | findNext {k : Option α} {bag : Bag α} : Step key place (.findNext k) bag bag
  | forEach {bag : Bag α} : Step key place .forEach bag bag
  | clear {bag : Bag α} : Step key place .clear bag { bag with elements := 0 }

def DistinctKeys (key : α → κ) (elements : Multiset α) : Prop := (elements.map key).Nodup

theorem Bag.Step.distinctKeys {place : Nat → Option α} {op : BinaryArrayOp α} {b b' : Bag α}
    (step : Bag.Step key place op b b') (distinct : DistinctKeys key b.elements)
    (single : b.allowDuplicates = false)
    (fresh : ∀ index entry, op = .insertBefore index entry →
      ∀ other ∈ b.elements, key other ≠ key entry) : DistinctKeys key b'.elements := by
  have cons_distinct {entry : α} (isNew : ∀ other ∈ b.elements, key other ≠ key entry) :
      DistinctKeys key (entry ::ₘ b.elements) := by
    rw [DistinctKeys, Multiset.map_cons, Multiset.nodup_cons]
    refine ⟨?_, distinct⟩
    intro mem
    rcases Multiset.mem_map.mp mem with ⟨other, otherMem, same⟩
    exact isNew other otherMem same
  cases step with
  | insert isNew =>
      rcases isNew with absurdity | isNew
      · exact absurd (single.symm.trans absurdity) (by simp)
      · exact cons_distinct isNew
  | insertBefore inside => exact cons_distinct (fresh _ _ rfl)
  | remove same =>
      rw [DistinctKeys, Multiset.map_cons, Multiset.nodup_cons] at distinct
      exact distinct.2
  | removeAt there =>
      rw [DistinctKeys, Multiset.map_cons, Multiset.nodup_cons] at distinct
      exact distinct.2
  | clear => simp [DistinctKeys]
  | _ => exact distinct

namespace BinaryArray

def bag (c : BinaryArray α) : Bag α := ⟨c.data, c.allowDuplicates⟩

section

variable [LinearOrder κ] {compare : α → α → Int} {qsort : List α → List α} {key : α → κ}
  {c c' : BinaryArray α}

theorem bag_sortArray (sorts : Sorts qsort key) : (sortArray qsort c).bag = c.bag := by
  have perm := perm_sortArray (c := c) sorts
  have flag : (sortArray qsort c).allowDuplicates = c.allowDuplicates := by
    rw [sortArray]
    split
    · rfl
    · split <;> rfl
  rw [bag, bag, flag, Multiset.coe_eq_coe.mpr perm]

theorem unsorted_sortArray : (sortArray qsort c).unsorted = c.unsorted := by
  rw [sortArray]
  split
  · rfl
  · split <;> rfl

theorem allowDuplicates_sortArray :
    (sortArray qsort c).allowDuplicates = c.allowDuplicates := by
  rw [sortArray]
  split
  · rfl
  · split <;> rfl

theorem inOrder_sortArray (sorts : Sorts qsort key) (inOrder : InOrder key c) :
    InOrder key (sortArray qsort c) := by
  intro sorted _
  rw [unsorted_sortArray] at sorted
  exact sorted_sortArray sorts inOrder sorted

theorem binarySearch_fst (val : α) (exact : Bool) (some_data : c.data.length ≠ 0) :
    (binarySearch compare qsort val c exact).1 = sortArray qsort c := by
  rw [binarySearch, if_neg some_data]
  split
  · rename_i unsorted
    rw [sortArray_of_unsorted unsorted]
    split <;> rfl
  · rfl

theorem get_fst (compare : α → α → Int) (qsort : List α → List α) (c : BinaryArray α)
    (k : Option α) (exact : Bool) :
    (get compare qsort c k exact).1 = c ∨ (get compare qsort c k exact).1 = sortArray qsort c := by
  rw [get]
  split
  · exact .inl rfl
  · right
    cases k with
    | none => rfl
    | some k =>
        have searched : (binarySearch compare qsort k (sortArray qsort c) exact).1 =
            sortArray qsort c := by
          by_cases empty : (sortArray qsort c).data.length = 0
          · rw [binarySearch, if_pos empty]
          · rw [binarySearch_fst k exact empty, sortArray_sortArray]
        simp only [apply_ite Prod.fst, searched, ite_self]

theorem find_isExactly (compares : Compares compare key) (sorts : Sorts qsort key)
    (inOrder : InOrder key c) (small : c.data.length < 2 ^ 31) (val : α) :
    ∃ answer, (find compare qsort c (some val)).2 = some answer ∧
      IsExactly key c.data (key val) answer := by
  have perm := perm_sortArray (c := c) sorts
  have length_eq := length_sortArray (c := c) sorts
  by_cases empty : c.data.length = 0
  · refine ⟨none, by rw [find, get, if_pos empty], ?_⟩
    rw [List.length_eq_zero_iff.mp empty]
    intro entry mem
    exact absurd mem (by simp)
  · have empty' : (sortArray qsort c).data.length ≠ 0 := by rwa [length_eq]
    rw [find, get, if_neg empty]
    simp only [binarySearch, if_neg empty', Bool.not_true, Bool.false_and, Bool.false_eq_true,
      if_false, sortArray_sortArray, unsorted_sortArray]
    cases unsorted : c.unsorted with
    | true =>
        rw [sortArray_of_unsorted unsorted, if_pos rfl, linearSearch, unsorted]
        rcases linearSearchLoop_spec val 0 compares (show 0 + c.data.length < 2 ^ 31 by omega)
          with ⟨i, inside, same, index_eq⟩ | ⟨absent, index_eq⟩
        · refine ⟨some c.data[i], ?_, List.getElem_mem inside, same⟩
          simp only [Bool.not_true, Bool.false_eq_true, if_false, index_eq]
          rw [if_neg (by omega), if_neg (by omega)]
          simp [inside]
        · refine ⟨none, ?_, absent⟩
          simp only [Bool.not_true, Bool.false_eq_true, if_false, index_eq]
          rfl
    | false =>
        have sorted := sorted_sortArray sorts inOrder unsorted
        simp only [Bool.false_eq_true, if_false]
        rcases searchSorted_exact val compares sorted (List.length_pos_iff.mp (by omega))
          (by omega) with ⟨i, inside, same, found_eq⟩ | ⟨pos, splits, found_eq⟩
        · refine ⟨some (sortArray qsort c).data[i], ?_, perm.mem_iff.mp (List.getElem_mem inside),
            same⟩
          rw [found_eq]
          simp only
          rw [if_neg (by omega), if_neg (by omega)]
          simp [inside]
        · refine ⟨none, by rw [found_eq]; rfl, ?_⟩
          intro entry mem
          exact splits.ne entry (perm.mem_iff.mpr mem)

theorem isNext_congr {list list' : List α} (perm : list.Perm list') {k : κ} {next : Option α} :
    IsNext key list k next ↔ IsNext key list' k next := by
  cases next with
  | none => simp only [IsNext, perm.mem_iff]
  | some next => simp only [IsNext, perm.mem_iff]

theorem isNext_skipDuplicates (compares : Compares compare key) {data : List α}
    (sorted : SortedBy key data) {val : α} {pos : Nat} (le : pos ≤ data.length)
    (before : ∀ entry ∈ data.take pos, key entry ≤ key val)
    (behind : ∀ entry ∈ data.drop pos, key val ≤ key entry) :
    IsNext key data (key val) (skipDuplicates compare val (data.drop pos)) := by
  have next := (splitsAfter_duplicates compares sorted le before behind).isNext sorted
  rwa [← List.drop_drop, ← skipDuplicates_eq] at next

theorem isNext_of_distinct {data : List α} (sorted : SortedBy key data)
    (distinct : (data.map key).Nodup) {i : Nat} (inside : i < data.length) :
    IsNext key data (key data[i]) (data.drop (i + 1)).head? := by
  rcases splits_of_getElem sorted inside with ⟨before, behind⟩
  have splits : SplitsAfter key data (key data[i]) (i + 1) := by
    refine ⟨inside, before, ?_⟩
    intro entry mem
    apply lt_of_le_of_ne (behind entry mem)
    intro same
    rcases List.mem_drop_iff_getElem.mp mem with ⟨j, lt, rfl⟩
    have inside' : i < (data.map key).length := by simpa using inside
    have lt' : i + 1 + j < (data.map key).length := by
      rw [List.length_map]
      omega
    have same' : (data.map key)[i] = (data.map key)[i + 1 + j] := by simpa using same
    have index_eq := (List.Nodup.getElem_inj_iff distinct).mp same'
    omega
  exact splits.isNext sorted

theorem findNext_isNext (compares : Compares compare key) (sorts : Sorts qsort key)
    (inOrder : InOrder key c) (small : c.data.length < 2 ^ 31) (sorted : c.unsorted = false)
    (passed : c.allowDuplicates = true ∨ DistinctKeys key c.data) (val : α) :
    ∃ answer, (findNext compare qsort c (some val)).2 = some answer ∧
      IsNext key c.data (key val) answer := by
  have perm := perm_sortArray (c := c) sorts
  have length_eq := length_sortArray (c := c) sorts
  by_cases empty : c.data.length = 0
  · refine ⟨none, by rw [findNext, get, if_pos empty], ?_⟩
    rw [List.length_eq_zero_iff.mp empty]
    intro entry mem
    exact absurd mem (by simp)
  · have empty' : (sortArray qsort c).data.length ≠ 0 := by rwa [length_eq]
    have inSorted := sorted_sortArray sorts inOrder sorted
    have small' : (sortArray qsort c).data.length < 2 ^ 31 := by rwa [length_eq]
    have spec := searchSorted_next val compares inSorted
      (List.length_pos_iff.mp (by omega)) small'
    have distinct' : c.allowDuplicates = false → ((sortArray qsort c).data.map key).Nodup := by
      intro single
      rcases passed with absurdity | distinct
      · rw [single] at absurdity
        exact absurd absurdity (by simp)
      · exact (perm.map key).nodup_iff.mpr distinct
    rw [findNext, get, if_neg empty]
    simp only [binarySearch, if_neg empty', sortArray_sortArray, unsorted_sortArray, sorted,
      allowDuplicates_sortArray, Bool.false_eq_true, if_false, Bool.not_false, Bool.true_and]
    simp only [← isNext_congr perm]
    generalize (sortArray qsort c).data = data at *
    rcases spec with ⟨i, inside, same, index_eq⟩ | ⟨pos, splits, index_eq⟩
    · rcases splits_of_getElem inSorted inside with ⟨before, behind⟩
      rw [same] at before behind
      have passing := isNext_skipDuplicates compares inSorted
        (show i + 1 ≤ data.length from inside) before behind
      rw [index_eq]
      by_cases last : i + 1 = data.length
      · refine ⟨none, by simp [last], ?_⟩
        rw [last, List.drop_length] at passing
        exact passing
      · rw [if_neg last, if_neg (by omega), if_neg (by omega), Int.toNat_natCast]
        cases duplicates : c.allowDuplicates with
        | true => exact ⟨_, rfl, passing⟩
        | false =>
            have next := isNext_of_distinct inSorted (distinct' duplicates) inside
            rw [same] at next
            refine ⟨(data.drop (i + 1)).head?, ?_, next⟩
            have inside' : i + 1 < data.length := by omega
            simp [List.head?_drop, inside']
    · have splitsAfter := splitsAfter_of_splits splits
      have next := splitsAfter.isNext inSorted
      have passing := isNext_skipDuplicates compares inSorted splits.le splitsAfter.before
        fun entry mem => le_of_lt (splits.behind entry mem)
      rw [index_eq]
      by_cases last : pos = data.length
      · refine ⟨none, by simp [last], ?_⟩
        rw [last, List.drop_length] at next
        exact next
      · have le := splits.le
        rw [if_neg last, if_neg (by omega), if_neg (by omega), Int.toNat_natCast]
        cases c.allowDuplicates with
        | true => exact ⟨_, rfl, passing⟩
        | false =>
            refine ⟨(data.drop pos).head?, ?_, next⟩
            have inside : pos < data.length := by omega
            simp [List.head?_drop, inside]

theorem findNext_unsorted (unsorted : c.unsorted = true) (val : α) :
    findNext compare qsort c (some val) = (c, some none) := by
  rw [findNext, get]
  split
  · rfl
  · rename_i some_data
    simp only [sortArray_of_unsorted unsorted, binarySearch, if_neg some_data, unsorted]
    rfl

theorem sorted_insertIdx {data : List α} {entry : α} {pos : Nat} (sorted : SortedBy key data)
    (splits : SplitsAfter key data (key entry) pos) : SortedBy key (data.insertIdx pos entry) := by
  have insertIdx_eq : ∀ (data : List α) (pos : Nat), pos ≤ data.length →
      data.insertIdx pos entry = data.take pos ++ entry :: data.drop pos := by
    intro data pos le
    induction data generalizing pos with
    | nil =>
        rcases Nat.le_zero.mp le with rfl
        rfl
    | cons first rest ih =>
        cases pos with
        | zero => rfl
        | succ pos => simp [ih pos (by simpa using le)]
  rw [insertIdx_eq data pos splits.le]
  rw [← List.take_append_drop pos data] at sorted
  rcases List.pairwise_append.mp sorted with ⟨sortedFront, sortedBack, le⟩
  apply List.pairwise_append.mpr
  refine ⟨sortedFront, List.pairwise_cons.mpr ⟨?_, sortedBack⟩, ?_⟩
  · intro other mem
    exact le_of_lt (splits.behind other mem)
  · intro first firstMem second secondMem
    rcases List.mem_cons.mp secondMem with rfl | behind
    · exact splits.before first firstMem
    · exact le first firstMem second behind

theorem bag_insertIdx {entry : α} {pos : Nat} {dirty : Bool} (le : pos ≤ c.data.length) :
    bag { c with data := c.data.insertIdx pos entry, dirty } =
      { c.bag with elements := entry ::ₘ c.bag.elements } := by
  rw [bag, bag]
  congr 1
  exact Multiset.coe_eq_coe.mpr (List.perm_insertIdx entry c.data le)

theorem insertFound_eq (compares : Compares compare key) (sorted : SortedBy key c.data)
    {entry : α} {found : Found} (isFound : FoundExactly key c.data (key entry) found)
    (allowed : c.allowDuplicates = true ∨ found.index < 0) :
    ∃ pos, insertFound compare c entry found =
        some (0, { c with data := c.data.insertIdx pos entry }) ∧
      SplitsAfter key c.data (key entry) pos := by
  rcases isFound with ⟨i, inside, same, rfl⟩ | ⟨pos, splits, rfl⟩
  · have duplicates : c.allowDuplicates = true := by
      rcases allowed with duplicates | negative
      · exact duplicates
      · exact absurd negative (by simp)
    rcases splits_of_getElem sorted inside with ⟨before, behind⟩
    rw [same] at before behind
    have splits := splitsAfter_duplicates compares sorted (show i + 1 ≤ c.data.length from inside)
      before behind
    refine ⟨_, ?_, splits⟩
    have le := splits.le
    simp [insertFound, insertBefore, duplicates, not_lt_of_ge le]
  · have splitsAfter := splitsAfter_of_splits splits
    refine ⟨pos, ?_, splitsAfter⟩
    have le := splits.le
    simp [insertFound, insertBefore, not_lt_of_ge le]

theorem append_unsorted (key : α → κ) (unsorted : c.unsorted = true) (entry : α) :
    (c.insertBefore c.data.length entry true).2.bag =
        { c.bag with elements := entry ::ₘ c.bag.elements } ∧
      InOrder key (c.insertBefore c.data.length entry true).2 := by
  rw [insertBefore, if_neg (lt_irrefl _)]
  refine ⟨bag_insertIdx le_rfl, ?_⟩
  intro sorted
  exact absurd (unsorted.symm.trans sorted) (by simp)

theorem binarySearch_exact (compares : Compares compare key) (sorts : Sorts qsort key)
    (inOrder : InOrder key c) (small : c.data.length < 2 ^ 31) (sorted : c.unsorted = false)
    (some_data : c.data.length ≠ 0) (val : α) :
    ∃ found, binarySearch compare qsort val c true = (sortArray qsort c, found) ∧
      FoundExactly key (sortArray qsort c).data (key val) found := by
  have length_eq := length_sortArray (c := c) sorts
  refine ⟨_, ?_, searchSorted_exact _ compares (sorted_sortArray sorts inOrder sorted)
    (List.length_pos_iff.mp (by omega)) (by omega)⟩
  rw [binarySearch, if_neg some_data, if_neg (by simp [sorted])]

theorem insertFound_step (compares : Compares compare key) (sorted : SortedBy key c.data)
    {entry : α} {found : Found} (isFound : FoundExactly key c.data (key entry) found)
    (allowed : c.allowDuplicates = true ∨ found.index < 0) (place : Nat → Option α) :
    ∃ rc c', insertFound compare c entry found = some (rc, c') ∧
      Bag.Step key place (.insert entry) c.bag c'.bag ∧ InOrder key c' := by
  rcases insertFound_eq compares sorted isFound allowed with ⟨pos, inserted, splits⟩
  refine ⟨_, _, inserted, ?_, fun _ _ => sorted_insertIdx sorted splits⟩
  rw [bag_insertIdx splits.le]
  apply Bag.Step.insert
  rcases allowed with duplicates | negative
  · exact .inl duplicates
  · right
    rcases isFound with ⟨i, inside, same, rfl⟩ | ⟨pos, splits', rfl⟩
    · exact absurd negative (by simp)
    · intro other mem
      exact splits'.ne other (Multiset.mem_coe.mp mem)

theorem insert_step (compares : Compares compare key) (sorts : Sorts qsort key)
    (inOrder : InOrder key c) (small : c.data.length < 2 ^ 31) (entry : α)
    (place : Nat → Option α) :
    ∃ rc c', insert compare qsort c entry = some (rc, c') ∧
      Bag.Step key place (.insert entry) c.bag c'.bag ∧ InOrder key c' := by
  have bag_eq := bag_sortArray (c := c) sorts
  rw [insert]
  cases unsorted : c.unsorted with
  | true =>
      have appended := append_unsorted key unsorted entry
      split
      · rename_i single
        rw [Bool.and_eq_true, Bool.not_eq_true', decide_eq_true_eq] at single
        simp only [binarySearch, if_neg single.2, unsorted, linearSearch, if_true, Bool.not_true,
          Bool.false_eq_true, if_false]
        rcases linearSearchLoop_spec entry 0 compares (show 0 + c.data.length < 2 ^ 31 by omega)
          with ⟨i, inside, same, index_eq⟩ | ⟨absent, index_eq⟩
        · rw [index_eq, if_pos (by omega)]
          exact ⟨_, _, rfl, .insertRefused single.1 (Multiset.mem_coe.mpr (List.getElem_mem inside))
            same, inOrder⟩
        · rw [index_eq, if_neg (by omega)]
          refine ⟨_, (c.insertBefore c.data.length entry true).2, rfl, ?_, appended.2⟩
          rw [appended.1]
          exact .insert (.inr fun other mem => absent other (Multiset.mem_coe.mp mem))
      · rename_i notSingle
        rw [if_pos rfl]
        refine ⟨_, (c.insertBefore c.data.length entry true).2, rfl, ?_, appended.2⟩
        rw [appended.1]
        apply Bag.Step.insert
        cases duplicates : c.allowDuplicates with
        | true => exact .inl duplicates
        | false =>
            right
            have empty : c.data = [] := by simpa [duplicates] using notSingle
            intro other mem
            rw [bag, empty] at mem
            exact absurd mem (by simp)
  | false =>
      have sorted := sorted_sortArray sorts inOrder unsorted
      have inOrder' := inOrder_sortArray sorts inOrder
      split
      · rename_i single
        rw [Bool.and_eq_true, Bool.not_eq_true', decide_eq_true_eq] at single
        rcases binarySearch_exact compares sorts inOrder small unsorted single.2 entry with
          ⟨found, searched, isFound⟩
        rw [searched]
        simp only [unsorted_sortArray, unsorted, Bool.false_eq_true, if_false]
        by_cases present : 0 ≤ found.index
        · rw [if_pos present]
          refine ⟨_, _, rfl, ?_, inOrder'⟩
          rcases isFound with ⟨i, inside, same, rfl⟩ | ⟨pos, splits, rfl⟩
          · rw [← bag_eq]
            refine .insertRefused ?_ (Multiset.mem_coe.mpr (List.getElem_mem inside)) same
            rw [bag, allowDuplicates_sortArray]
            exact single.1
          · exact absurd present (by simp)
        · rw [if_neg present, ← bag_eq]
          have step := insertFound_step compares sorted isFound (.inr (by omega)) place
          rcases isFound with ⟨i, inside, same, rfl⟩ | ⟨pos, splits, rfl⟩
          · exact absurd present (by simp)
          · rw [if_neg (by simp)]
            exact step
      · rename_i notSingle
        rw [if_neg (by simp)]
        split
        · rename_i empty
          have data_eq := List.length_eq_zero_iff.mp empty
          refine insertFound_step compares ?_ (.inr ⟨0, ⟨Nat.zero_le _, ?_, ?_⟩, rfl⟩)
            (.inr (by simp)) place
          · rw [data_eq]
            exact List.Pairwise.nil
          · simp
          · rw [data_eq]
            simp
        · rename_i some_data
          have duplicates : c.allowDuplicates = true := by
            simpa [some_data, List.length_eq_zero_iff.not.mp some_data] using notSingle
          rcases binarySearch_exact compares sorts inOrder small unsorted some_data entry with
            ⟨found, searched, isFound⟩
          rw [searched, ← bag_eq]
          refine insertFound_step compares sorted isFound (.inl ?_) place
          rw [allowDuplicates_sortArray, duplicates]

theorem removeAt_eq (inOrder : InOrder key c) {index : Nat} (inside : index < c.data.length) :
    removeAt c index = some (0, some c.data[index], { c with data := c.data.eraseIdx index }) ∧
      c.bag = ⟨c.data[index] ::ₘ (c.data.eraseIdx index : Multiset α), c.allowDuplicates⟩ ∧
      InOrder key { c with data := c.data.eraseIdx index } := by
  refine ⟨?_, ?_, ?_⟩
  · rw [removeAt, if_neg (by omega), List.getElem?_eq_getElem inside, Option.map_some]
  · rw [bag]
    congr 1
    exact Multiset.coe_eq_coe.mpr (List.getElem_cons_eraseIdx_perm inside).symm
  · intro sorted clean
    exact (inOrder sorted clean).sublist (List.eraseIdx_sublist _ _)

theorem remove_step (compares : Compares compare key) (sorts : Sorts qsort key)
    (inOrder : InOrder key c) (small : c.data.length < 2 ^ 31) (k : α) (place : Nat → Option α) :
    ∃ result, remove compare qsort c k = some result ∧
      Bag.Step key place (.remove k) c.bag result.2.2.bag ∧ InOrder key result.2.2 := by
  have bag_eq := bag_sortArray (c := c) sorts
  have inOrder' := inOrder_sortArray sorts inOrder
  have length_eq := length_sortArray (c := c) sorts
  rw [remove]
  by_cases empty : c.data.length = 0
  · rw [if_pos empty]
    refine ⟨_, rfl, .removeAbsent ?_, inOrder⟩
    intro other mem
    rw [bag, List.length_eq_zero_iff.mp empty] at mem
    exact absurd mem (by simp)
  · rw [if_neg empty]
    -- what is left of the container when an element with the key is found or not
    have found_step {i : Nat} (inside : i < (sortArray qsort c).data.length)
        (same : key (sortArray qsort c).data[i] = key k) :
        ∃ result, (sortArray qsort c).removeAt (toSizeT (i : Int)) = some result ∧
          Bag.Step key place (.remove k) c.bag result.2.2.bag ∧ InOrder key result.2.2 := by
      rcases removeAt_eq inOrder' inside with ⟨removed, bag_eq', inOrder''⟩
      rw [toSizeT_eq_self (by omega), removed]
      refine ⟨_, rfl, ?_, inOrder''⟩
      rw [← bag_eq, bag_eq']
      exact .remove same
    have absent_step (absent : ∀ entry ∈ (sortArray qsort c).data, key entry ≠ key k) :
        Bag.Step key place (.remove k) c.bag (sortArray qsort c).bag := by
      rw [← bag_eq]
      exact .removeAbsent fun other mem => absent other (Multiset.mem_coe.mp mem)
    cases unsorted : c.unsorted with
    | true =>
        rw [sortArray_of_unsorted unsorted] at found_step absent_step ⊢
        simp only [binarySearch, if_neg empty, unsorted, linearSearch, if_true, Bool.not_true,
          Bool.false_eq_true, if_false]
        rcases linearSearchLoop_spec k 0 compares (show 0 + c.data.length < 2 ^ 31 by omega)
          with ⟨i, inside, same, index_eq⟩ | ⟨absent, index_eq⟩
        · rw [Nat.zero_add] at index_eq
          rw [index_eq, if_neg (by omega)]
          exact found_step inside same
        · rw [index_eq, if_pos rfl]
          exact ⟨_, rfl, absent_step absent, inOrder⟩
    | false =>
        rcases binarySearch_exact compares sorts inOrder' (by omega)
          (unsorted_sortArray.trans unsorted) (by omega) k with ⟨found, searched, isFound⟩
        rw [sortArray_sortArray] at searched isFound
        simp only [searched]
        rcases isFound with ⟨i, inside, same, rfl⟩ | ⟨pos, splits, rfl⟩
        · simp only
          rw [if_neg (by omega)]
          exact found_step inside same
        · rw [if_pos rfl]
          exact ⟨_, rfl, absent_step splits.ne, inOrder'⟩

theorem optionsSet_step (sorts : Sorts qsort key) (inOrder : InOrder key c) (flags : Nat)
    (place : Nat → Option α) :
    Bag.Step key place (.options flags) c.bag (optionsSet qsort c flags).2.bag ∧
      InOrder key (optionsSet qsort c flags).2 := by
  have bag_step : (optionsSet qsort c flags).2.bag =
      { c.bag with allowDuplicates :=
          if flags &&& 3 = flags then flags.testBit 0 else c.bag.allowDuplicates } := by
    rw [optionsSet]
    split
    · simp only
      split
      · rw [bag_sortArray sorts]
        rfl
      · rfl
    · rfl
  refine ⟨bag_step ▸ .options, ?_⟩
  rw [optionsSet]
  split
  · simp only
    split
    · -- the array is sorted when it is no longer left unsorted
      rename_i sorting
      intro _ _
      simp only
      rw [Bool.and_eq_true, Bool.not_eq_true'] at sorting
      rw [sortArray_eq sorting.2]
      exact sorts.sorted c.data
    · rename_i notSorting
      intro sorted clean
      simp only at sorted
      have sorted' : c.unsorted = false := by simpa [sorted] using notSorting
      exact inOrder sorted' clean
  · exact inOrder

theorem step_step (compares : Compares compare key) (sorts : Sorts qsort key)
    (inOrder : InOrder key c) (small : c.data.length < 2 ^ 31) (op : BinaryArrayOp α)
    (valid : ∀ index, op = .removeAt index → index < c.data.length) :
    ∃ c', step compare qsort c op = some c' ∧
      Bag.Step key (fun index => c.data[index]?) op c.bag c'.bag ∧ InOrder key c' := by
  have bag_eq := bag_sortArray (c := c) sorts
  have inOrder' := inOrder_sortArray sorts inOrder
  cases op with
  | insert entry =>
      rcases insert_step compares sorts inOrder small entry fun index => c.data[index]? with
        ⟨rc, c', inserted, stepped, inOrder''⟩
      exact ⟨c', by rw [step, inserted, Option.map_some], stepped, inOrder''⟩
  | insertBefore index entry =>
      refine ⟨_, rfl, ?_⟩
      rw [insertBefore]
      split
      · rename_i outside
        exact ⟨.insertBeforeRefused outside, inOrder⟩
      · rename_i inside
        refine ⟨?_, fun _ absurdity => absurd absurdity (by simp)⟩
        rw [bag_insertIdx (not_lt.mp inside)]
        exact .insertBefore (not_lt.mp inside)
  | remove k =>
      rcases remove_step compares sorts inOrder small k fun index => c.data[index]? with
        ⟨result, removed, stepped, inOrder''⟩
      exact ⟨_, by rw [step, removed, Option.map_some], stepped, inOrder''⟩
  | removeAt index =>
      have inside := valid index rfl
      rcases removeAt_eq inOrder inside with ⟨removed, bag_eq', inOrder''⟩
      refine ⟨_, by rw [step, removed, Option.map_some], ?_, inOrder''⟩
      rw [bag_eq']
      exact .removeAt (List.getElem?_eq_getElem inside)
  | options flags =>
      rcases optionsSet_step sorts inOrder flags fun index => c.data[index]? with
        ⟨stepped, inOrder''⟩
      exact ⟨_, rfl, stepped, inOrder''⟩
  | find k =>
      refine ⟨_, rfl, ?_⟩
      rcases get_fst compare qsort c k true with same | sorted
      · rw [find, same]
        exact ⟨.find, inOrder⟩
      · rw [find, sorted, bag_eq]
        exact ⟨.find, inOrder'⟩
  | findNext k =>
      refine ⟨_, rfl, ?_⟩
      rcases get_fst compare qsort c k false with same | sorted
      · rw [findNext, same]
        exact ⟨.findNext, inOrder⟩
      · rw [findNext, sorted, bag_eq]
        exact ⟨.findNext, inOrder'⟩
  | forEach =>
      refine ⟨_, rfl, ?_, inOrder'⟩
      rw [bag_eq]
      exact .forEach
  | clear =>
      refine ⟨_, rfl, .clear, ?_⟩
      intro _ _
      exact List.Pairwise.nil

/-- The calls of a run, and the container that they lead to from an empty one. -/
inductive Run (compare : α → α → Int) (qsort : List α → List α) :
    List (BinaryArrayOp α) → BinaryArray α → Prop
  | empty : Run compare qsort [] {}
  | call {ops : List (BinaryArrayOp α)} {c c' : BinaryArray α} (op : BinaryArrayOp α)
      (run : Run compare qsort ops c) (small : c.data.length < 2 ^ 31)
      (valid : ∀ index, op = .removeAt index → index < c.data.length)
      (stepped : step compare qsort c op = some c') : Run compare qsort (ops ++ [op]) c'

/-- The same calls on a multiset, next to those on the container. -/
inductive Follows (compare : α → α → Int) (qsort : List α → List α) (key : α → κ) :
    List (BinaryArrayOp α) → BinaryArray α → Bag α → Prop
  | empty : Follows compare qsort key [] {} ⟨0, false⟩
  | call {ops : List (BinaryArrayOp α)} {c c' : BinaryArray α} {bag bag' : Bag α}
      {op : BinaryArrayOp α} (follows : Follows compare qsort key ops c bag)
      (stepped : step compare qsort c op = some c')
      (bagStepped : Bag.Step key (fun index => c.data[index]?) op bag bag') :
      Follows compare qsort key (ops ++ [op]) c' bag'

theorem Run.follows {ops : List (BinaryArrayOp α)} (compares : Compares compare key)
    (sorts : Sorts qsort key) (run : Run compare qsort ops c) :
    Follows compare qsort key ops c c.bag ∧ InOrder key c := by
  induction run with
  | empty => exact ⟨.empty, fun _ _ => List.Pairwise.nil⟩
  | call op run small valid stepped ih =>
      rcases step_step compares sorts ih.2 small op valid with ⟨c', stepped', bagStepped, inOrder⟩
      rcases Option.some.inj (stepped.symm.trans stepped') with rfl
      exact ⟨.call ih.1 stepped bagStepped, inOrder⟩

/-- A walk that asks for the next element again and again. -/
def walk (compare : α → α → Int) (qsort : List α → List α) : (steps : Nat) → BinaryArray α →
    (last : Option α) → List α
  | 0, _, _ => []
  | steps + 1, c, last =>
      match findNext compare qsort c last with
      | (c, some (some entry)) => entry :: walk compare qsort steps c (some entry)
      | _ => []

/-- The keys of the visited elements are those that fulfil a condition, in order. -/
structure Visits (key : α → κ) (data : List α) (wanted : κ → Prop) (visited : List α) : Prop where
  increasing : (visited.map key).Pairwise (· < ·)
  mem_iff : ∀ k, k ∈ visited.map key ↔ k ∈ data.map key ∧ wanted k

theorem Visits.nil {data : List α} {last : κ} (isNext : IsNext key data last none) :
    Visits key data (last < ·) [] := by
  refine ⟨List.Pairwise.nil, ?_⟩
  intro k
  constructor
  · intro mem
    exact absurd mem (by simp)
  · rintro ⟨mem, lt⟩
    rcases List.mem_map.mp mem with ⟨entry, entryMem, rfl⟩
    exact absurd lt (isNext entry entryMem)

theorem Visits.cons {data : List α} {wanted : κ → Prop} {entry : α} {rest : List α}
    (visits : Visits key data (key entry < ·) rest) (mem : entry ∈ data)
    (isWanted : wanted (key entry)) (upward : ∀ k, key entry < k → wanted k)
    (least : ∀ other ∈ data, wanted (key other) → key entry ≤ key other) :
    Visits key data wanted (entry :: rest) := by
  constructor
  · rw [List.map_cons]
    refine List.pairwise_cons.mpr ⟨?_, visits.increasing⟩
    intro k kMem
    exact ((visits.mem_iff k).mp kMem).2
  · intro k
    rw [List.map_cons, List.mem_cons, visits.mem_iff]
    constructor
    · rintro (rfl | ⟨kMem, lt⟩)
      · exact ⟨List.mem_map_of_mem mem, isWanted⟩
      · exact ⟨kMem, upward k lt⟩
    · rintro ⟨kMem, kWanted⟩
      rcases List.mem_map.mp kMem with ⟨other, otherMem, rfl⟩
      rcases eq_or_lt_of_le (least other otherMem kWanted) with same | lt
      · exact .inl same.symm
      · exact .inr ⟨kMem, lt⟩

theorem walk_from (compares : Compares compare key) (sorts : Sorts qsort key)
    (inOrder : InOrder key c) (small : c.data.length < 2 ^ 31) (sorted : c.unsorted = false)
    (clean : c.dirty = false) (passed : c.allowDuplicates = true ∨ DistinctKeys key c.data)
    (last : α) {left : Nat}
    (left_le : (c.data.filter fun entry => key last < key entry).length ≤ left) :
    ∃ visited, Visits key c.data (key last < ·) visited ∧
      ∀ steps, left < steps → walk compare qsort steps c (some last) = visited := by
  have next (last : α) : ∃ answer, findNext compare qsort c (some last) = (c, some answer) ∧
      IsNext key c.data (key last) answer := by
    rcases findNext_isNext compares sorts inOrder small sorted passed last with
      ⟨answer, answered, isNext⟩
    refine ⟨answer, Prod.ext ?_ answered, isNext⟩
    rcases get_fst compare qsort c (some last) false with same | same
    · exact same
    · exact same.trans (sortArray_of_clean clean)
  induction left generalizing last with
  | zero =>
      rcases next last with ⟨answer, answered, isNext⟩
      have none_left := List.filter_eq_nil_iff.mp
        (List.length_eq_zero_iff.mp (Nat.le_zero.mp left_le))
      cases answer with
      | some entry => exact absurd (decide_eq_true isNext.1.2) (none_left entry isNext.1.1)
      | none =>
          refine ⟨[], .nil isNext, ?_⟩
          intro steps enough
          cases steps with
          | zero => rfl
          | succ steps => simp only [walk, answered]
  | succ left ih =>
      rcases next last with ⟨answer, answered, isNext⟩
      cases answer with
      | none =>
          refine ⟨[], .nil isNext, ?_⟩
          intro steps enough
          cases steps with
          | zero => rfl
          | succ steps => simp only [walk, answered]
      | some entry =>
          rcases isNext with ⟨⟨mem, lt⟩, least⟩
          -- this element is not among those that are left behind it
          have fewer : (c.data.filter fun other => key entry < key other).length ≤ left := by
            have filter_eq : (c.data.filter fun other => key entry < key other) =
                (c.data.filter fun other => key last < key other).filter
                  fun other => key entry < key other := by
              rw [List.filter_filter]
              apply List.filter_congr
              intro other _
              by_cases gt : key entry < key other
              · simp [gt, lt_trans lt gt]
              · simp [gt]
            have shorter := List.length_filter_lt_length_iff_exists
              (l := c.data.filter fun other => key last < key other)
              (p := fun other => decide (key entry < key other))
            have less := shorter.mpr ⟨entry, List.mem_filter.mpr ⟨mem, decide_eq_true lt⟩, by simp⟩
            rw [filter_eq]
            omega
          rcases ih entry fewer with ⟨rest, visits, walked⟩
          refine ⟨entry :: rest, visits.cons mem lt (fun k gt => lt_trans lt gt) least, ?_⟩
          intro steps enough
          cases steps with
          | zero => exact absurd enough (by simp)
          | succ steps => simp only [walk, answered, walked steps (by omega)]

theorem walk_visits (compares : Compares compare key) (sorts : Sorts qsort key)
    (inOrder : InOrder key c) (small : c.data.length < 2 ^ 31) (sorted : c.unsorted = false)
    (passed : c.allowDuplicates = true ∨ DistinctKeys key c.data) :
    ∃ visited, Visits key c.data (fun _ => True) visited ∧
      ∀ steps, c.data.length < steps → walk compare qsort steps c none = visited := by
  have perm := perm_sortArray (c := c) sorts
  have length_eq := perm.length_eq
  have inOrder' := inOrder_sortArray sorts inOrder
  have inSorted := sorted_sortArray sorts inOrder sorted
  have clean : (sortArray qsort c).dirty = false := by rw [sortArray_eq sorted]
  have passed' : (sortArray qsort c).allowDuplicates = true ∨
      DistinctKeys key (sortArray qsort c).data := by
    rw [allowDuplicates_sortArray, Multiset.coe_eq_coe.mpr perm]
    exact passed
  cases data_eq : (sortArray qsort c).data with
  | nil =>
      have empty : c.data = [] := (data_eq ▸ perm).symm.eq_nil
      refine ⟨[], ⟨List.Pairwise.nil, by simp [empty]⟩, ?_⟩
      intro steps enough
      cases steps with
      | zero => rfl
      | succ steps => simp [walk, findNext, get, empty]
  | cons first rest =>
      have some_data : c.data.length ≠ 0 := by
        rw [← length_eq, data_eq]
        simp
      have firstMem : first ∈ (sortArray qsort c).data := by simp [data_eq]
      have answered : findNext compare qsort c none = (sortArray qsort c, some (some first)) := by
        rw [findNext, get, if_neg some_data]
        simp [data_eq]
      have fewer : ((sortArray qsort c).data.filter fun other => key first < key other).length ≤
          c.data.length - 1 := by
        have shorter := List.length_filter_lt_length_iff_exists (l := (sortArray qsort c).data)
          (p := fun other => decide (key first < key other))
        have less := shorter.mpr ⟨first, firstMem, by simp⟩
        omega
      rcases walk_from compares sorts inOrder' (by omega) (unsorted_sortArray.trans sorted) clean
        passed' first fewer with ⟨visited, visits, walked⟩
      have least : ∀ other ∈ (sortArray qsort c).data, True → key first ≤ key other := by
        intro other mem _
        rw [data_eq] at mem inSorted
        rcases List.mem_cons.mp mem with rfl | behind
        · exact le_rfl
        · exact (List.pairwise_cons.mp inSorted).1 other behind
      have visits' := visits.cons firstMem trivial (fun _ _ => trivial) least
      refine ⟨first :: visited, ⟨visits'.increasing, ?_⟩, ?_⟩
      · intro k
        rw [visits'.mem_iff, (perm.map key).mem_iff]
      · intro steps enough
        cases steps with
        | zero => exact absurd enough (by simp)
        | succ steps => simp only [walk, answered, walked steps (by omega)]

/-- The calls of a run do to the content of a container what they do to a multiset; its array is in
order when it says so, and the lookups answer for the multiset. -/
theorem run_behaves {ops : List (BinaryArrayOp α)} (compares : Compares compare key)
    (sorts : Sorts qsort key) (run : Run compare qsort ops c) (small : c.data.length < 2 ^ 31) :
    Follows compare qsort key ops c c.bag ∧
      (∀ op, (∀ index, op = .removeAt index → index < c.data.length) →
        (step compare qsort c op).isSome) ∧
      (∀ op c', c.allowDuplicates = false → DistinctKeys key c.bag.elements →
        (∀ index entry, op = .insertBefore index entry →
          ∀ other ∈ c.bag.elements, key other ≠ key entry) →
        (∀ index, op = .removeAt index → index < c.data.length) →
        step compare qsort c op = some c' → DistinctKeys key c'.bag.elements) ∧
      (c.unsorted = false → c.dirty = false → SortedBy key c.data) ∧
      (∀ val, ∃ answer, (find compare qsort c (some val)).2 = some answer ∧
        IsExactly key c.data (key val) answer) ∧
      (c.unsorted = false → (c.allowDuplicates = true ∨ DistinctKeys key c.bag.elements) →
        (∀ val, ∃ answer, (findNext compare qsort c (some val)).2 = some answer ∧
          IsNext key c.data (key val) answer) ∧
        ∃ visited, Visits key c.data (fun _ => True) visited ∧
          ∀ steps, c.data.length < steps → walk compare qsort steps c none = visited) ∧
      (c.unsorted = true → ∀ val, findNext compare qsort c (some val) = (c, some none)) := by
  rcases run.follows compares sorts with ⟨follows, inOrder⟩
  refine ⟨follows, ?_, ?_, inOrder, ?_, ?_, ?_⟩
  · intro op valid
    rcases step_step compares sorts inOrder small op valid with ⟨c', stepped, -, -⟩
    rw [stepped]
    rfl
  · intro op c' single distinct fresh valid stepped
    rcases step_step compares sorts inOrder small op valid with ⟨c'', stepped', bagStepped, -⟩
    rcases Option.some.inj (stepped.symm.trans stepped') with rfl
    exact bagStepped.distinctKeys distinct single fresh
  · exact find_isExactly compares sorts inOrder small
  · intro sorted passed
    exact ⟨findNext_isNext compares sorts inOrder small sorted passed,
      walk_visits compares sorts inOrder small sorted passed⟩
  · exact fun unsorted => findNext_unsorted unsorted

def compareNumbers (lhs rhs : Nat) : Int := lhs - rhs

theorem compares_compareNumbers : Compares compareNumbers id := by
  constructor
  · intro lhs rhs
    simp only [compareNumbers, id]
    omega
  · intro lhs rhs
    simp only [compareNumbers, id]
    omega

def sortNumbers (list : List Nat) : List Nat := list.mergeSort

theorem sorts_sortNumbers : Sorts sortNumbers id := by
  constructor
  · exact fun list => List.mergeSort_perm list _
  · intro list
    have sorted := @List.pairwise_mergeSort Nat (fun a b => decide (a ≤ b)) (by simp; omega)
      (by simp; omega) list
    exact sorted.imp of_decide_eq_true

def unsortedNumbers : BinaryArray Nat :=
  { data := [1, 2], dirty := true, unsorted := true }

theorem run_unsortedNumbers :
    Run compareNumbers sortNumbers [.options 2, .insert 1, .insert 2] unsortedNumbers := by
  have start : Run compareNumbers sortNumbers [] {} := .empty
  have options := Run.call (.options 2) start (by decide) (by simp) rfl
  have first := Run.call (.insert 1) options (by decide) (by simp) rfl
  exact Run.call (.insert 2) first (by decide) (by simp) rfl

theorem run_behaves_unsortedNumbers :
    Follows compareNumbers sortNumbers id [.options 2, .insert 1, .insert 2] unsortedNumbers
        unsortedNumbers.bag ∧
      (unsortedNumbers.unsorted = true →
        ∀ val, findNext compareNumbers sortNumbers unsortedNumbers (some val) =
          (unsortedNumbers, some none)) := by
  have behaves := run_behaves compares_compareNumbers sorts_sortNumbers run_unsortedNumbers
    (by decide)
  exact ⟨behaves.1, behaves.2.2.2.2.2.2⟩

/-- `insert_before` does not look for the key, and an unsorted container has no next elements. -/
theorem not_distinct_or_next :
    ¬ ((∀ (ops : List (BinaryArrayOp Nat)) (c : BinaryArray Nat),
          Run compareNumbers sortNumbers ops c → (∀ flags, .options flags ∉ ops) →
          DistinctKeys id c.bag.elements) ∨
        ∀ (ops : List (BinaryArrayOp Nat)) (c : BinaryArray Nat),
          Run compareNumbers sortNumbers ops c → ∀ val, ∃ answer,
            (findNext compareNumbers sortNumbers c (some val)).2 = some answer ∧
              IsNext id c.data (id val) answer) := by
  rintro (distinct | next)
  · have start : Run compareNumbers sortNumbers [] {} := .empty
    have first := Run.call (.insertBefore 0 1) start (by decide) (by simp) rfl
    have second := Run.call (.insertBefore 0 1) first (by decide) (by simp) rfl
    have absurdity : ([1, 1] : List Nat).Nodup := distinct _ _ second (by simp)
    exact absurd absurdity (by decide)
  · rcases next _ _ run_unsortedNumbers 1 with ⟨answer, answered, isNext⟩
    have none_eq : some none = some answer := answered
    rcases Option.some.inj none_eq with rfl
    exact isNext 2 (by decide) (by decide)

end

end BinaryArray

end NetSnmp
