import NetSnmp.Container.BinaryArray
import NetSnmp.TableWalk

/-!
# Searches in a binary array

What the searches return for a container whose elements are in the order of their
keys, and for one that is not sorted.
-/

namespace NetSnmp

variable {α κ : Type} [LinearOrder κ]

/-- The function of a container that compares its elements, or a key with an element, goes by
keys. -/
structure Compares (compare : α → α → Int) (key : α → κ) : Prop where
  neg_iff : ∀ lhs rhs, compare lhs rhs < 0 ↔ key lhs < key rhs
  zero_iff : ∀ lhs rhs, compare lhs rhs = 0 ↔ key lhs = key rhs

theorem Compares.pos_iff {compare : α → α → Int} {key : α → κ} (compares : Compares compare key)
    (lhs rhs : α) : 0 < compare lhs rhs ↔ key rhs < key lhs := by
  have neg := compares.neg_iff lhs rhs
  have zero := compares.zero_iff lhs rhs
  constructor
  · intro pos
    rcases lt_trichotomy (key lhs) (key rhs) with lt | same | gt
    · exact absurd (neg.mpr lt) (by omega)
    · exact absurd (zero.mpr same) (by omega)
    · exact gt
  · intro gt
    have notNeg := neg.not.mpr (not_lt_of_gt gt)
    have notZero := zero.not.mpr (ne_of_gt gt)
    omega

/-- What is relied on of `qsort`. -/
structure Sorts (qsort : List α → List α) (key : α → κ) : Prop where
  perm : ∀ list, (qsort list).Perm list
  sorted : ∀ list, SortedBy key (qsort list)

/-- The elements in front of a position have smaller keys, those from it on greater ones. -/
structure Splits (key : α → κ) (data : List α) (k : κ) (pos : Nat) : Prop where
  le : pos ≤ data.length
  before : ∀ entry ∈ data.take pos, key entry < k
  behind : ∀ entry ∈ data.drop pos, k < key entry

theorem Splits.ne {key : α → κ} {data : List α} {k : κ} {pos : Nat}
    (splits : Splits key data k pos) : ∀ entry ∈ data, key entry ≠ k := by
  intro entry mem
  rw [← List.take_append_drop pos data] at mem
  rcases List.mem_append.mp mem with inFront | inBack
  · exact ne_of_lt (splits.before entry inFront)
  · exact ne_of_gt (splits.behind entry inBack)

namespace BinaryArray

section

variable {compare : α → α → Int} {key : α → κ} {data : List α} {val : α}

theorem splits_iff_getElem {pos : Nat} (le : pos ≤ data.length) :
    Splits key data (key val) pos ↔
      (∀ i, (inside : i < data.length) → i < pos → key data[i] < key val) ∧
        ∀ i, (inside : i < data.length) → pos ≤ i → key val < key data[i] := by
  constructor
  · intro splits
    constructor
    · intro i inside lt
      exact splits.before _ (List.mem_take_iff_getElem.mpr ⟨i, by omega, rfl⟩)
    · intro i inside ge
      apply splits.behind
      rw [List.mem_drop_iff_getElem]
      exact ⟨i - pos, by omega, by congr 1; omega⟩
  · rintro ⟨before, behind⟩
    refine ⟨le, ?_, ?_⟩
    · intro entry mem
      rcases List.mem_take_iff_getElem.mp mem with ⟨i, lt, rfl⟩
      exact before i (by omega) (by omega)
    · intro entry mem
      rcases List.mem_drop_iff_getElem.mp mem with ⟨i, lt, rfl⟩
      exact behind (pos + i) (by omega) (by omega)

theorem key_getElem_le (sorted : SortedBy key data) {i j : Nat} (le : i ≤ j)
    (inside : j < data.length) : key data[i] ≤ key data[j] := by
  rcases Nat.lt_or_eq_of_le le with lt | rfl
  · exact List.pairwise_iff_getElem.mp sorted i j (by omega) inside lt
  · exact le_rfl

theorem binarySearchLoop_spec (val : α) (compares : Compares compare key)
    (sorted : SortedBy key data)
    {len first middle : Nat} {result : Int} (inside : first + len ≤ data.length)
    (before : ∀ i, (inside : i < data.length) → i < first → key data[i] < key val)
    (behind : ∀ i, (inside : i < data.length) → first + len ≤ i → key val < key data[i])
    (compared : len < data.length →
      ∃ inside : middle < data.length, result = compare data[middle] val) :
    match binarySearchLoop compare val data len first middle result inside with
    | (first, middle, result) =>
        (∃ inside : first < data.length, first = middle ∧ result = 0 ∧ key data[first] = key val) ∨
          (Splits key data (key val) first ∧ (data ≠ [] →
            ∃ inside : middle < data.length, result = compare data[middle] val)) := by
  fun_induction binarySearchLoop compare val data len first middle result inside with
  | case1 len first _ _ inside positive half middle result neg ih =>
      apply ih
      · intro i inside' lt
        have le := key_getElem_le sorted (show i ≤ middle by omega) (by omega)
        exact lt_of_le_of_lt le ((compares.neg_iff _ _).mp neg)
      · intro i inside' ge
        exact behind i inside' (by omega)
      · exact fun _ => ⟨by omega, rfl⟩
  | case2 len first _ _ inside positive half middle result notNeg zero =>
      exact .inl ⟨by omega, rfl, zero, (compares.zero_iff _ _).mp zero⟩
  | case3 len first _ _ inside positive half middle result notNeg notZero ih =>
      apply ih
      · intro i inside' lt
        exact before i inside' lt
      · intro i inside' ge
        have le := key_getElem_le sorted (show middle ≤ i by omega) inside'
        have pos : 0 < result := by omega
        exact lt_of_lt_of_le ((compares.pos_iff _ _).mp pos) le
      · exact fun _ => ⟨by omega, rfl⟩
  | case4 len first middle result inside empty =>
      refine .inr ⟨(splits_iff_getElem (by omega)).mpr ⟨before, ?_⟩, ?_⟩
      · intro i inside' ge
        exact behind i inside' (by omega)
      · intro some_data
        have pos := List.length_pos_iff.mpr some_data
        exact compared (by omega)

/-- What an exact search finds in a list: the position of an element with the key, and the one
behind it, or where one is to be inserted. -/
def FoundExactly (key : α → κ) (data : List α) (k : κ) (found : Found) : Prop :=
  (∃ i, ∃ inside : i < data.length, key data[i] = k ∧ found = ⟨i, some (i + 1)⟩) ∨
    ∃ pos, Splits key data k pos ∧ found = ⟨-1, some pos⟩

/-- What a search for the next element finds: an element with the key, and the position behind it
if there is one, or the position of the first greater element. -/
def FoundNext (key : α → κ) (data : List α) (k : κ) (index : Int) : Prop :=
  (∃ i, ∃ inside : i < data.length, key data[i] = k ∧
      index = if i + 1 = data.length then -1 else ((i + 1 : Nat) : Int)) ∨
    ∃ pos, Splits key data k pos ∧ index = if pos = data.length then -1 else (pos : Int)

variable {qsort : List α → List α} {c : BinaryArray α}

theorem sortArray_of_unsorted (unsorted : c.unsorted = true) : sortArray qsort c = c := by
  rw [sortArray, if_pos unsorted]

theorem sortArray_eq (sorted : c.unsorted = false) :
    sortArray qsort c =
      { c with data := if c.dirty then qsort c.data else c.data, dirty := false } := by
  rcases c with ⟨data, dirty, allowDuplicates, unsorted⟩
  simp only at sorted
  subst sorted
  cases dirty <;> rfl

/-- The elements are in order unless the container is unsorted or dirty. -/
def InOrder (key : α → κ) (c : BinaryArray α) : Prop :=
  c.unsorted = false → c.dirty = false → SortedBy key c.data

theorem sorted_sortArray (sorts : Sorts qsort key) (inOrder : InOrder key c)
    (sorted : c.unsorted = false) : SortedBy key (sortArray qsort c).data := by
  rw [sortArray_eq sorted]
  cases dirty : c.dirty with
  | true => exact sorts.sorted c.data
  | false => exact inOrder sorted dirty

theorem perm_sortArray (sorts : Sorts qsort key) : (sortArray qsort c).data.Perm c.data := by
  rw [sortArray]
  split
  · exact List.Perm.refl _
  · split
    · exact sorts.perm c.data
    · exact List.Perm.refl _

theorem length_sortArray (sorts : Sorts qsort key) :
    (sortArray qsort c).data.length = c.data.length := (perm_sortArray sorts).length_eq

theorem sortArray_of_clean (clean : c.dirty = false) : sortArray qsort c = c := by
  rw [sortArray, clean]
  split <;> rfl

theorem sortArray_sortArray : sortArray qsort (sortArray qsort c) = sortArray qsort c := by
  cases unsorted : c.unsorted with
  | true => rw [sortArray_of_unsorted unsorted, sortArray_of_unsorted unsorted]
  | false =>
      apply sortArray_of_clean
      rw [sortArray_eq unsorted]

theorem binarySearchLoop_result (val : α) (compares : Compares compare key)
    (sorted : SortedBy key data)
    (some_data : data ≠ []) :
    match binarySearchLoop compare val data data.length 0 0 0 (by simp) with
    | (first, middle, result) =>
        (∃ inside : first < data.length, key data[first] = key val ∧
          (if first ≠ middle then compare data[first] val else result) = 0) ∨
        Splits key data (key val) first ∧ ∀ inside : first < data.length,
          0 < (if first ≠ middle then compare data[first] val else result) := by
  have spec := binarySearchLoop_spec val compares sorted
    (show 0 + data.length ≤ data.length by simp) (by omega) (by omega)
    (show data.length < data.length → ∃ inside : 0 < data.length, 0 = compare data[0] val from
      fun absurdity => absurd absurdity (lt_irrefl _))
  generalize binarySearchLoop compare val data data.length 0 0 0 _ = ended at spec ⊢
  rcases ended with ⟨first, middle, result⟩
  rcases spec with ⟨inside, rfl, zero, same⟩ | ⟨splits, compared⟩
  · left
    exact ⟨inside, same, by simpa using zero⟩
  · right
    refine ⟨splits, fun inside => ?_⟩
    have gt := ((splits_iff_getElem splits.le).mp splits).2 first inside le_rfl
    have pos := (compares.pos_iff _ _).mpr gt
    split
    · exact pos
    · rename_i here
      rcases compared some_data with ⟨inside', result_eq⟩
      have same := not_not.mp here
      subst same
      rw [result_eq]
      exact pos

theorem searchSorted_exact (val : α) (compares : Compares compare key) (sorted : SortedBy key data)
    (some_data : data ≠ []) (small : data.length < 2 ^ 31) :
    FoundExactly key data (key val) (searchSorted compare val data true) := by
  have spec := binarySearchLoop_result val compares sorted some_data
  unfold searchSorted
  generalize binarySearchLoop compare val data data.length 0 0 0 _ = ended at spec ⊢
  rcases ended with ⟨first, middle, result⟩
  simp only [List.get_eq_getElem, if_true] at spec ⊢
  rcases spec with ⟨inside, same, zero⟩ | ⟨splits, greater⟩
  · left
    refine ⟨first, inside, same, ?_⟩
    rw [dif_pos inside, if_pos zero, toCInt_eq_self (by omega)]
  · right
    by_cases inside : first < data.length
    · have pos := greater inside
      refine ⟨first, splits, ?_⟩
      rw [dif_pos inside, if_neg (by omega), if_pos pos]
    · have le := splits.le
      have atEnd : first = data.length := by omega
      refine ⟨first, splits, ?_⟩
      rw [dif_neg inside, atEnd]

theorem searchSorted_next (val : α) (compares : Compares compare key) (sorted : SortedBy key data)
    (some_data : data ≠ []) (small : data.length < 2 ^ 31) :
    FoundNext key data (key val) (searchSorted compare val data false).index := by
  have spec := binarySearchLoop_result val compares sorted some_data
  unfold searchSorted
  generalize binarySearchLoop compare val data data.length 0 0 0 _ = ended at spec ⊢
  rcases ended with ⟨first, middle, result⟩
  simp only [List.get_eq_getElem, Bool.false_eq_true, if_false] at spec ⊢
  rcases spec with ⟨inside, same, zero⟩ | ⟨splits, greater⟩
  · left
    refine ⟨first, inside, same, ?_⟩
    rw [dif_pos inside, if_pos zero]
    split
    · rfl
    · exact toCInt_eq_self (by omega)
  · right
    refine ⟨first, splits, ?_⟩
    by_cases inside : first < data.length
    · have pos := greater inside
      rw [dif_pos inside, if_neg (by omega), if_neg (by omega)]
      exact toCInt_eq_self (by omega)
    · have le := splits.le
      rw [dif_neg inside, if_pos (by omega)]

theorem linearSearchLoop_spec (val : α) (pos : Nat) (compares : Compares compare key)
    (small : pos + data.length < 2 ^ 31) :
    (∃ i, ∃ inside : i < data.length, key data[i] = key val ∧
        linearSearchLoop compare val pos data = ((pos + i : Nat) : Int)) ∨
      ((∀ entry ∈ data, key entry ≠ key val) ∧ linearSearchLoop compare val pos data = -1) := by
  induction data generalizing pos with
  | nil => exact .inr ⟨by simp, rfl⟩
  | cons entry rest ih =>
      rw [List.length_cons] at small
      rw [linearSearchLoop]
      by_cases zero : compare entry val = 0
      · left
        refine ⟨0, by simp, (compares.zero_iff _ _).mp zero, ?_⟩
        rw [if_pos zero, toCInt_eq_self (by omega), Nat.add_zero]
      · rw [if_neg zero]
        rcases ih (pos + 1) (by omega) with ⟨i, inside, same, index_eq⟩ | ⟨absent, index_eq⟩
        · left
          refine ⟨i + 1, by simpa using inside, by simpa using same, ?_⟩
          rw [index_eq]
          congr 1
          omega
        · right
          refine ⟨?_, index_eq⟩
          intro other mem
          rcases List.mem_cons.mp mem with rfl | behind
          · exact fun same => zero ((compares.zero_iff _ _).mpr same)
          · exact absent other behind

/-- The elements in front of a position have keys up to this one, those from it on greater ones. -/
structure SplitsAfter (key : α → κ) (data : List α) (k : κ) (pos : Nat) : Prop where
  le : pos ≤ data.length
  before : ∀ entry ∈ data.take pos, key entry ≤ k
  behind : ∀ entry ∈ data.drop pos, k < key entry

theorem splitsAfter_of_splits {k : κ} {pos : Nat} (splits : Splits key data k pos) :
    SplitsAfter key data k pos :=
  ⟨splits.le, fun entry mem => le_of_lt (splits.before entry mem), splits.behind⟩

theorem duplicates_spec (compares : Compares compare key) (sorted : SortedBy key data)
    (ge : ∀ entry ∈ data, key val ≤ key entry) :
    SplitsAfter key data (key val) (duplicates compare val data) := by
  induction data with
  | nil => exact ⟨le_rfl, by simp, by simp⟩
  | cons entry rest ih =>
      rcases List.pairwise_cons.mp sorted with ⟨entry_le, sortedRest⟩
      rw [duplicates]
      split
      · rename_i zero
        have splits := ih sortedRest fun other mem => ge other (List.mem_cons_of_mem _ mem)
        refine ⟨?_, ?_, ?_⟩
        · simpa using splits.le
        · intro other mem
          rw [List.take_succ_cons] at mem
          rcases List.mem_cons.mp mem with rfl | later
          · exact le_of_eq ((compares.zero_iff _ _).mp zero)
          · exact splits.before other later
        · intro other mem
          rw [List.drop_succ_cons] at mem
          exact splits.behind other mem
      · rename_i notZero
        refine ⟨Nat.zero_le _, by simp, ?_⟩
        have ne := (compares.zero_iff entry val).not.mp notZero
        have lt := lt_of_le_of_ne (ge entry List.mem_cons_self) (Ne.symm ne)
        intro other mem
        rcases List.mem_cons.mp mem with rfl | later
        · exact lt
        · exact lt_of_lt_of_le lt (entry_le other later)

theorem splitsAfter_duplicates (compares : Compares compare key) (sorted : SortedBy key data)
    {pos : Nat} (le : pos ≤ data.length) (before : ∀ entry ∈ data.take pos, key entry ≤ key val)
    (behind : ∀ entry ∈ data.drop pos, key val ≤ key entry) :
    SplitsAfter key data (key val) (pos + duplicates compare val (data.drop pos)) := by
  have sortedBehind : SortedBy key (data.drop pos) := sorted.sublist (List.drop_sublist _ _)
  have splits := duplicates_spec compares sortedBehind behind
  have inside := splits.le
  rw [List.length_drop] at inside
  refine ⟨by omega, ?_, ?_⟩
  · intro entry mem
    rw [List.take_add] at mem
    rcases List.mem_append.mp mem with inFront | inBack
    · exact before entry inFront
    · exact splits.before entry inBack
  · intro entry mem
    rw [← List.drop_drop] at mem
    exact splits.behind entry mem

theorem SplitsAfter.isNext {k : κ} {pos : Nat} (splits : SplitsAfter key data k pos)
    (sorted : SortedBy key data) : IsNext key data k (data.drop pos).head? := by
  have sortedBehind : SortedBy key (data.drop pos) := sorted.sublist (List.drop_sublist _ _)
  have mem_iff (entry : α) : entry ∈ data ↔ entry ∈ data.take pos ∨ entry ∈ data.drop pos := by
    rw [← List.mem_append, List.take_append_drop]
  cases behind_eq : data.drop pos with
  | nil =>
      intro entry mem
      rcases (mem_iff entry).mp mem with inFront | inBack
      · exact not_lt_of_ge (splits.before entry inFront)
      · rw [behind_eq] at inBack
        exact absurd inBack (by simp)
  | cons first rest =>
      have firstMem : first ∈ data.drop pos := by simp [behind_eq]
      refine ⟨⟨(mem_iff first).mpr (.inr firstMem), splits.behind first firstMem⟩, ?_⟩
      intro entry mem lt
      rcases (mem_iff entry).mp mem with inFront | inBack
      · exact absurd lt (not_lt_of_ge (splits.before entry inFront))
      · rw [behind_eq] at inBack sortedBehind
        rcases List.mem_cons.mp inBack with rfl | later
        · exact le_rfl
        · exact (List.pairwise_cons.mp sortedBehind).1 entry later

theorem skipDuplicates_eq (val : α) (list : List α) :
    skipDuplicates compare val list = (list.drop (duplicates compare val list)).head? := by
  induction list with
  | nil => rfl
  | cons entry rest ih =>
      rw [skipDuplicates, duplicates]
      split
      · rw [ih, List.drop_succ_cons]
      · rfl

theorem splits_of_getElem (sorted : SortedBy key data) {i : Nat} (inside : i < data.length) :
    (∀ entry ∈ data.take (i + 1), key entry ≤ key data[i]) ∧
      ∀ entry ∈ data.drop (i + 1), key data[i] ≤ key entry := by
  constructor
  · intro entry mem
    rcases List.mem_take_iff_getElem.mp mem with ⟨j, lt, rfl⟩
    exact key_getElem_le sorted (by omega) inside
  · intro entry mem
    rcases List.mem_drop_iff_getElem.mp mem with ⟨j, lt, rfl⟩
    exact key_getElem_le sorted (by omega) (by omega)

end

end BinaryArray

end NetSnmp
