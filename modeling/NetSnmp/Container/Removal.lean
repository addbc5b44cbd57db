import Mathlib.Data.List.Sort
import NetSnmp.Container.Bag

/-!
# Removals from a binary array

The removals with the counter of changes, which iterators compare with their own:
what a call returns, and what it leaves of the container.
-/

namespace NetSnmp

variable {α : Type}

structure SyncedArray (α : Type) where
  array : BinaryArray α
  sync : UInt64 := 0
  deriving DecidableEq

namespace SyncedArray

open BinaryArray (Found)

def Pending (c : SyncedArray α) : Prop := c.array.unsorted = false ∧ c.array.dirty = true

instance (c : SyncedArray α) : Decidable c.Pending := inferInstanceAs (Decidable (_ ∧ _))

section

variable (compare : α → α → Int) (qsort : List α → List α)

def sortArray (c : SyncedArray α) : SyncedArray α where
  array := BinaryArray.sortArray qsort c.array
  sync := if c.Pending then c.sync + 1 else c.sync

def binarySearch (val : α) (c : SyncedArray α) (exact : Bool) : SyncedArray α × Found :=
  let searched := BinaryArray.binarySearch compare qsort val c.array exact
  (⟨searched.1, if c.array.data.length = 0 then c.sync else (sortArray qsort c).sync⟩, searched.2)

/-- `netsnmp_binary_array_remove_at` -/
def removeAt (c : SyncedArray α) (index : Nat) : Option (Int × Option α × SyncedArray α) :=
  if c.array.data.length = 0 then some (-1, none, c)
  else
    (c.array.removeAt index).map fun (rc, save, array) =>
      (rc, save, ⟨array, if index ≠ array.data.length then c.sync + 1 else c.sync⟩)

/-- `netsnmp_binary_array_remove` -/
def remove (c : SyncedArray α) (key : α) : Option (Int × Option α × SyncedArray α) :=
  if c.array.data.length = 0 then some (0, none, c)
  else
    let c := sortArray qsort c
    let (c, found) := binarySearch compare qsort key c true
    if found.index = -1 then some (-1, none, c) else c.removeAt (toSizeT found.index)

end

variable {compare : α → α → Int} {qsort : List α → List α} {c c' : SyncedArray α}

theorem removeAt_array (c : SyncedArray α) (index : Nat) :
    (c.removeAt index).map (fun (rc, save, c') => (rc, save, c'.array)) =
      c.array.removeAt index := by
  rw [removeAt, BinaryArray.removeAt]
  split
  · rfl
  · rw [Option.map_map, Option.map_map]
    rfl

theorem remove_array (c : SyncedArray α) (key : α) :
    (c.remove compare qsort key).map (fun (rc, save, c') => (rc, save, c'.array)) =
      c.array.remove compare qsort key := by
  rw [remove, BinaryArray.remove]
  by_cases empty : c.array.data.length = 0
  · rw [if_pos empty, if_pos empty]
    rfl
  · have searched : BinaryArray.binarySearch compare qsort key
        (BinaryArray.sortArray qsort c.array) true =
        ((binarySearch compare qsort key (sortArray qsort c) true).1.array,
          (binarySearch compare qsort key (sortArray qsort c) true).2) := rfl
    rw [if_neg empty, if_neg empty]
    simp only [searched]
    split
    · rfl
    · exact removeAt_array _ _

/-- One element is removed, and the order of the others is kept. -/
structure TakesOut (index : Nat) (c c' : SyncedArray α) : Prop where
  inside : index < c.array.data.length
  data_eq : c'.array.data = c.array.data.eraseIdx index
  count_eq : c'.array.data.length + 1 = c.array.data.length

theorem removeAt_inside {index : Nat} (inside : index < c.array.data.length) :
    c.removeAt index = some (0, some c.array.data[index],
      ⟨{ c.array with data := c.array.data.eraseIdx index },
        if index + 1 ≠ c.array.data.length then c.sync + 1 else c.sync⟩) := by
  have last_iff : index ≠ (c.array.data.eraseIdx index).length ↔
      index + 1 ≠ c.array.data.length := by
    rw [List.length_eraseIdx_of_lt inside]
    omega
  rw [removeAt, if_neg (by omega), BinaryArray.removeAt, if_neg (by omega),
    List.getElem?_eq_getElem inside]
  simp only [Option.map_some, last_iff]

theorem takesOut_of_removeAt {index : Nat} {rc : Int} {save : Option α}
    (some_data : c.array.data ≠ []) (removed : c.removeAt index = some (rc, save, c')) :
    rc = 0 ∧ TakesOut index c c' := by
  have pos := List.length_pos_iff.mpr some_data
  by_cases inside : index < c.array.data.length
  · rw [removeAt_inside inside] at removed
    rcases Option.some.inj removed with ⟨⟩
    refine ⟨rfl, inside, rfl, ?_⟩
    rw [List.length_eraseIdx_of_lt inside]
    omega
  · rw [removeAt, if_neg (by omega), BinaryArray.removeAt, if_neg (by omega),
      List.getElem?_eq_none (by omega)] at removed
    exact absurd removed (by simp)

theorem linearSearchLoop_of_absent {val : α} {data : List α}
    (absent : ∀ entry ∈ data, compare entry val ≠ 0) (pos : Nat) :
    BinaryArray.linearSearchLoop compare val pos data = -1 := by
  induction data generalizing pos with
  | nil => rfl
  | cons entry rest ih =>
      rw [BinaryArray.linearSearchLoop, if_neg (absent entry List.mem_cons_self)]
      exact ih (fun other mem => absent other (List.mem_cons_of_mem _ mem)) (pos + 1)

theorem binarySearchLoop_of_absent {val : α} {data : List α}
    (absent : ∀ entry ∈ data, compare entry val ≠ 0) {len first middle : Nat} {result : Int}
    (inside : first + len ≤ data.length) (compared : 0 < len ∨ result ≠ 0) :
    (BinaryArray.binarySearchLoop compare val data len first middle result inside).2.2 ≠ 0 := by
  fun_induction BinaryArray.binarySearchLoop compare val data len first middle result inside with
  | case1 len first _ _ inside positive half middle result neg ih => exact ih (.inr (ne_of_lt neg))
  | case2 len first _ _ inside positive half middle result notNeg zero =>
      exact absurd zero (absent _ (List.get_mem _ _))
  | case3 len first _ _ inside positive half middle result notNeg notZero ih =>
      exact ih (.inr notZero)
  | case4 len first middle result inside empty => exact compared.resolve_left empty

theorem searchSorted_of_absent {val : α} {data : List α} (some_data : data ≠ [])
    (absent : ∀ entry ∈ data, compare entry val ≠ 0) :
    (BinaryArray.searchSorted compare val data true).index = -1 := by
  have notZero := @binarySearchLoop_of_absent α compare val data absent data.length 0 0 0 (by simp)
    (.inl (List.length_pos_iff.mpr some_data))
  unfold BinaryArray.searchSorted
  generalize BinaryArray.binarySearchLoop compare val data data.length 0 0 0 _ = ended at notZero ⊢
  rcases ended with ⟨first, middle, result⟩
  by_cases inside : first < data.length
  · have differs : (if first ≠ middle then compare (data.get ⟨first, inside⟩) val else result) ≠
        0 := by
      split
      · exact absent _ (List.get_mem _ _)
      · exact notZero
    simp only [dif_pos inside, if_neg differs, if_true]
  · simp only [dif_neg inside]

theorem linearSearch_of_absent {val : α} {array : BinaryArray α}
    (absent : ∀ entry ∈ array.data, compare entry val ≠ 0) :
    BinaryArray.linearSearch compare val array = -1 := by
  rw [BinaryArray.linearSearch]
  split
  · rfl
  · exact linearSearchLoop_of_absent absent 0

theorem not_pending_sortArray (c : SyncedArray α) : ¬ (sortArray qsort c).Pending := by
  rintro ⟨sorted, dirty⟩
  rw [sortArray, BinaryArray.unsorted_sortArray] at sorted
  rw [sortArray, BinaryArray.sortArray_eq sorted] at dirty
  exact absurd dirty (by simp)

theorem sortArray_of_not_pending (idle : ¬ c.Pending) : sortArray qsort c = c := by
  rw [sortArray, if_neg idle]
  cases unsorted : c.array.unsorted with
  | true => rw [BinaryArray.sortArray_of_unsorted unsorted]
  | false =>
      have clean : c.array.dirty = false := by simpa [Pending, unsorted] using idle
      rw [BinaryArray.sortArray_of_clean clean]

theorem binarySearch_of_not_pending (val : α) (idle : ¬ c.Pending) :
    ∃ found, binarySearch compare qsort val c true = (c, found) ∧
      ((∀ entry ∈ c.array.data, compare entry val ≠ 0) → found.index = -1) := by
  have sorted := @sortArray_of_not_pending _ qsort _ idle
  have array_eq : BinaryArray.sortArray qsort c.array = c.array := congrArg array sorted
  rw [binarySearch, sorted, ite_self]
  refine ⟨_, Prod.ext ?_ rfl, ?_⟩
  · by_cases empty : c.array.data.length = 0
    · rw [BinaryArray.binarySearch, if_pos empty]
    · rw [BinaryArray.binarySearch_fst val true empty, array_eq]
  · intro absent
    rw [BinaryArray.binarySearch]
    by_cases empty : c.array.data.length = 0
    · rw [if_pos empty]
    · rw [if_neg empty]
      split
      · exact linearSearch_of_absent absent
      · rw [array_eq]
        exact searchSorted_of_absent (List.length_pos_iff.mp (Nat.pos_of_ne_zero empty)) absent

/-- How the removals report: what they remove, and that nothing was removed. -/
structure ReportsRemoval (compare : α → α → Int) (qsort : List α → List α) (c : SyncedArray α) :
    Prop where
  removeAt_empty : c.array.data = [] → ∀ index, c.removeAt index = some (-1, none, c)
  removeAt_inside : ∀ index, (inside : index < c.array.data.length) →
    ∃ c', c.removeAt index = some (0, some c.array.data[index], c') ∧ TakesOut index c c'
  /-- The array is sorted first, which is a change. -/
  remove_absent : c.array.data ≠ [] → ∀ key, (∀ entry ∈ c.array.data, compare entry key ≠ 0) →
    remove compare qsort c key = some (-1, none, sortArray qsort c)
  remove_success : c.array.data ≠ [] → ∀ key save c',
    remove compare qsort c key = some (0, save, c') → ∃ index, TakesOut index (sortArray qsort c) c'
  sort_perm : (sortArray qsort c).array.data.Perm c.array.data
  sort_idle : ¬ c.Pending → sortArray qsort c = c
  sort_sync : c.Pending → (sortArray qsort c).sync = c.sync + 1

theorem perm_sortArray (perm : ∀ list, (qsort list).Perm list) (c : SyncedArray α) :
    (sortArray qsort c).array.data.Perm c.array.data := by
  rw [sortArray, BinaryArray.sortArray]
  split
  · exact List.Perm.refl _
  · split
    · exact perm c.array.data
    · exact List.Perm.refl _

theorem removals_report (perm : ∀ list, (qsort list).Perm list) (c : SyncedArray α) :
    ReportsRemoval compare qsort c := by
  have sort_perm := perm_sortArray perm c
  have remove_eq (some_data : c.array.data ≠ []) (key : α) : remove compare qsort c key =
      let (c, found) := binarySearch compare qsort key (sortArray qsort c) true
      if found.index = -1 then some (-1, none, c) else c.removeAt (toSizeT found.index) := by
    rw [remove, if_neg (Nat.ne_of_gt (List.length_pos_iff.mpr some_data))]
  refine ⟨?_, ?_, ?_, ?_, sort_perm, sortArray_of_not_pending, fun pending => if_pos pending⟩
  · intro empty index
    rw [removeAt, if_pos (List.length_eq_zero_iff.mpr empty)]
  · intro index inside
    refine ⟨_, SyncedArray.removeAt_inside inside, ?_⟩
    have some_data := List.length_pos_iff.mp (Nat.zero_lt_of_lt inside)
    exact (takesOut_of_removeAt some_data (SyncedArray.removeAt_inside inside)).2
  · intro some_data key absent
    have absent' : ∀ entry ∈ (sortArray qsort c).array.data, compare entry key ≠ 0 := by
      intro entry mem
      exact absent entry (sort_perm.mem_iff.mp mem)
    rcases @binarySearch_of_not_pending _ compare qsort _ key (not_pending_sortArray c) with
      ⟨found, searched, notFound⟩
    rw [remove_eq some_data, searched]
    exact if_pos (notFound absent')
  · intro some_data key save c' removed
    rcases @binarySearch_of_not_pending _ compare qsort _ key (not_pending_sortArray c) with
      ⟨found, searched, -⟩
    rw [remove_eq some_data, searched] at removed
    by_cases absent : found.index = -1
    · simp only [if_pos absent] at removed
      exact absurd removed (by simp)
    · simp only [if_neg absent] at removed
      have some_data' : (sortArray qsort c).array.data ≠ [] := by
        intro empty
        rw [empty] at sort_perm
        exact some_data (List.nil_perm.mp sort_perm)
      exact ⟨_, (takesOut_of_removeAt some_data' removed).2⟩

def insertNumbers (list : List Nat) : List Nat := list.insertionSort (· ≤ ·)

def pendingNumbers : SyncedArray Nat where
  array := { data := [3, 1], dirty := true }

theorem removals_report_numbers :
    (∀ list, (insertNumbers list).Perm list) ∧
      ReportsRemoval BinaryArray.compareNumbers insertNumbers pendingNumbers :=
  ⟨fun list => List.perm_insertionSort _ list,
    removals_report (fun list => List.perm_insertionSort _ list) pendingNumbers⟩

/-- Of an unsorted array, a key that is not there changes the order and the counter; an index behind
the elements is an access outside of the array; and an empty array reports success. -/
theorem not_failure_unchanged :
    remove BinaryArray.compareNumbers insertNumbers pendingNumbers 2 =
        some (-1, none, ⟨{ data := [1, 3] }, 1⟩) ∧
      removeAt ⟨{ data := [1, 3] }, 0⟩ 2 = none ∧
      remove BinaryArray.compareNumbers insertNumbers ⟨{}, 0⟩ 2 = some (0, none, ⟨{}, 0⟩) ∧
      ¬ ∀ (c : SyncedArray Nat) (key : Nat),
        (∀ entry ∈ c.array.data, BinaryArray.compareNumbers entry key ≠ 0) →
          ∃ rc save, rc ≠ 0 ∧
            remove BinaryArray.compareNumbers insertNumbers c key = some (rc, save, c) := by
  have removed : remove BinaryArray.compareNumbers insertNumbers pendingNumbers 2 =
      some (-1, none, ⟨{ data := [1, 3] }, 1⟩) := by decide +kernel
  refine ⟨removed, by decide, by decide, ?_⟩
  intro unchanged
  rcases unchanged pendingNumbers 2 (by decide) with ⟨rc, save, -, removed'⟩
  rw [removed] at removed'
  have same : (1 : UInt64) = 0 :=
    congrArg (fun result => result.2.2.sync) (Option.some.inj removed')
  exact absurd same (by decide)

end SyncedArray

end NetSnmp
