import NetSnmp.Container.Bag

/-!
# Subsets of a binary array

The elements that a comparison by prefix finds equal to a key stand together in a
sorted array; they are returned as a copy.
-/

namespace NetSnmp

variable {α κ : Type}

def intMax : Int := 2147483647

namespace BinaryArray

section

variable (ncompare : α → α → Int) (qsort : List α → List α)

theorem halves_inside {size len first : Nat} (inside : first + len ≤ size) (positive : 0 < len) :
    first + len / 2 < size ∧ first + len / 2 + 1 + (len - len / 2 - 1) ≤ size ∧
      first + len / 2 ≤ size := by
  omega

/-- The loop of `binary_search_for_start`: `first` at its end. -/
def startLoop (val : α) (data : List α) (len first : Nat) (inside : first + len ≤ data.length) :
    Nat :=
  if positive : 0 < len then
    let half := len / 2
    let middle := first + half
    if ncompare (data.get ⟨middle, (halves_inside inside positive).1⟩) val < 0 then
      startLoop val data (len - half - 1) (middle + 1) (halves_inside inside positive).2.1
    else startLoop val data half first (halves_inside inside positive).2.2
  else first
termination_by len

def binarySearchForStart (val : α) (c : BinaryArray α) : BinaryArray α × Int :=
  if c.data.length = 0 then (c, -1)
  else
    let c := sortArray qsort c
    let first := startLoop ncompare val c.data c.data.length 0 (by simp)
    match c.data[first]? with
    | some entry => if ncompare entry val ≠ 0 then (c, -1) else (c, toCInt first)
    | none => (c, -1)

/-- The loop of `netsnmp_binary_array_get_subset`: `end`, with the elements behind it. -/
def subsetEnd (key : α) : List α → (last : Int) → Int
  | [], last => last
  | entry :: rest, last =>
      if 0 ≠ ncompare entry key then last
      else if intMax - 1 ≤ last then last
      else subsetEnd key rest (last + 1)

/-- `netsnmp_binary_array_get_subset`: the container, the subset or none for a null pointer, and
what `len` points to. -/
def getSubset (c : BinaryArray α) (key : α) (len : Int) : BinaryArray α × Option (List α) × Int :=
  if c.data.length = 0 then (c, none, len)
  else
    let (c, start) := binarySearchForStart ncompare qsort key (sortArray qsort c)
    if start < 0 ∨ intMax - 1 ≤ start then (c, none, len)
    else
      let len := subsetEnd ncompare key (c.data.drop (start.toNat + 1)) start - start + 1
      if len ≤ 0 ∨ intMax / 8 < len then (c, none, len)
      else (c, some ((c.data.drop start.toNat).take len.toNat), len)

end

/-- The comparison by prefix goes with the order of the elements, so that those that are equal to a
key stand together. -/
structure ComparesPrefix [LinearOrder κ] (ncompare : α → α → Int) (key : α → κ) : Prop where
  neg_of_le : ∀ {lhs rhs} val, key lhs ≤ key rhs → ncompare rhs val < 0 → ncompare lhs val < 0
  pos_of_le : ∀ {lhs rhs} val, key lhs ≤ key rhs → 0 < ncompare lhs val → 0 < ncompare rhs val

/-- The parts of an array whose elements are less than, equal to and greater than a key. -/
structure Parts (ncompare : α → α → Int) (val : α) (data front run back : List α) : Prop where
  data_eq : data = front ++ (run ++ back)
  front_neg : ∀ entry ∈ front, ncompare entry val < 0
  run_zero : ∀ entry ∈ run, ncompare entry val = 0
  back_pos : ∀ entry ∈ back, 0 < ncompare entry val

section

variable {ncompare : α → α → Int} {qsort : List α → List α} {c : BinaryArray α} {val : α}
  {data front run back : List α}

theorem exists_parts [LinearOrder κ] {key : α → κ} (compares : ComparesPrefix ncompare key)
    (val : α) (sorted : SortedBy key data) :
    ∃ front run back, Parts ncompare val data front run back := by
  induction data with
  | nil => exact ⟨[], [], [], rfl, by simp, by simp, by simp⟩
  | cons entry rest ih =>
      rcases List.pairwise_cons.mp sorted with ⟨least, sortedRest⟩
      rcases ih sortedRest with ⟨front, run, back, rfl, front_neg, run_zero, back_pos⟩
      have no_front (notNeg : ¬ ncompare entry val < 0) : front = [] := by
        rcases List.eq_nil_or_concat' front with empty | ⟨front, last, rfl⟩
        · exact empty
        · have neg := front_neg last (by simp)
          exact absurd (compares.neg_of_le val (least last (by simp)) neg) notNeg
      rcases lt_trichotomy (ncompare entry val) 0 with neg | zero | pos
      · refine ⟨entry :: front, run, back, rfl, ?_, run_zero, back_pos⟩
        exact List.forall_mem_cons.mpr ⟨neg, front_neg⟩
      · obtain rfl := no_front (by omega)
        refine ⟨[], entry :: run, back, rfl, by simp, ?_, back_pos⟩
        exact List.forall_mem_cons.mpr ⟨zero, run_zero⟩
      · obtain rfl := no_front (by omega)
        have greater : ∀ other ∈ run ++ back, 0 < ncompare other val := by
          intro other mem
          exact compares.pos_of_le val (least other (by simpa using mem)) pos
        refine ⟨[], [], entry :: (run ++ back), rfl, by simp, by simp, ?_⟩
        exact List.forall_mem_cons.mpr ⟨pos, greater⟩

theorem Parts.filter_eq (parts : Parts ncompare val data front run back) :
    data.filter (fun entry => ncompare entry val = 0) = run := by
  have front_none : front.filter (fun entry => ncompare entry val = 0) = [] := by
    apply List.filter_eq_nil_iff.mpr
    intro entry mem
    have neg := parts.front_neg entry mem
    simp only [decide_eq_true_eq]
    omega
  have back_none : back.filter (fun entry => ncompare entry val = 0) = [] := by
    apply List.filter_eq_nil_iff.mpr
    intro entry mem
    have pos := parts.back_pos entry mem
    simp only [decide_eq_true_eq]
    omega
  have run_all : run.filter (fun entry => ncompare entry val = 0) = run := by
    apply List.filter_eq_self.mpr
    intro entry mem
    simp [parts.run_zero entry mem]
  rw [parts.data_eq, List.filter_append, List.filter_append, front_none, back_none, run_all,
    List.nil_append, List.append_nil]

theorem Parts.filter_neg_eq (parts : Parts ncompare val data front run back) :
    data.filter (fun entry => ncompare entry val < 0) = front := by
  have front_all : front.filter (fun entry => ncompare entry val < 0) = front := by
    apply List.filter_eq_self.mpr
    intro entry mem
    simp [parts.front_neg entry mem]
  have others_none : (run ++ back).filter (fun entry => ncompare entry val < 0) = [] := by
    apply List.filter_eq_nil_iff.mpr
    intro entry mem
    simp only [decide_eq_true_eq]
    rcases List.mem_append.mp mem with inRun | inBack
    · have zero := parts.run_zero entry inRun
      omega
    · have pos := parts.back_pos entry inBack
      omega
  rw [parts.data_eq, List.filter_append, front_all, others_none, List.append_nil]

theorem startLoop_eq {len first pos : Nat} {inside : first + len ≤ data.length}
    (before : ∀ i, (inside : i < data.length) → i < pos → ncompare data[i] val < 0)
    (behind : ∀ i, (inside : i < data.length) → pos ≤ i → ¬ ncompare data[i] val < 0)
    (le : first ≤ pos) (ge : pos ≤ first + len) :
    startLoop ncompare val data len first inside = pos := by
  fun_induction startLoop ncompare val data len first inside with
  | case1 len first inside positive half middle neg ih =>
      have less : middle < pos := by
        by_contra notLess
        exact behind middle (by omega) (by omega) neg
      exact ih less (by omega)
  | case2 len first inside positive half middle notNeg ih =>
      have le_middle : pos ≤ middle := by
        by_contra less
        exact notNeg (before middle (by omega) (by omega))
      exact ih le le_middle
  | case3 len first inside empty => omega

theorem Parts.startLoop_eq (parts : Parts ncompare val data front run back) :
    startLoop ncompare val data data.length 0 (by simp) = front.length := by
  have length_eq := congrArg List.length parts.data_eq
  rw [List.length_append] at length_eq
  apply BinaryArray.startLoop_eq
  · intro i inside less
    have entry_eq : data[i] = front[i] := by
      simp only [parts.data_eq, List.getElem_append_left less]
    rw [entry_eq]
    exact parts.front_neg _ (List.getElem_mem less)
  · intro i inside ge
    have inside' : i - front.length < (run ++ back).length := by omega
    have entry_eq : data[i] = (run ++ back)[i - front.length] := by
      simp only [parts.data_eq, List.getElem_append_right ge]
    rw [entry_eq]
    rcases List.mem_append.mp (List.getElem_mem inside') with inRun | inBack
    · have zero := parts.run_zero _ inRun
      omega
    · have pos := parts.back_pos _ inBack
      omega
  · exact Nat.zero_le _
  · omega

theorem subsetEnd_eq (run_zero : ∀ entry ∈ run, ncompare entry val = 0)
    (back_pos : ∀ entry ∈ back, 0 < ncompare entry val) {last : Int} (le : last ≤ intMax - 1) :
    subsetEnd ncompare val (run ++ back) last = min (last + run.length) (intMax - 1) := by
  induction run generalizing last with
  | nil =>
      rw [List.nil_append, List.length_nil, Nat.cast_zero, Int.add_zero, min_eq_left le]
      cases back with
      | nil => rfl
      | cons entry back =>
          have pos := back_pos entry List.mem_cons_self
          rw [subsetEnd, if_pos (by omega)]
  | cons entry run ih =>
      rw [List.cons_append, subsetEnd, run_zero entry List.mem_cons_self, if_neg (by simp)]
      by_cases atLimit : intMax - 1 ≤ last
      · rw [if_pos atLimit, min_eq_right (by omega)]
        omega
      · rw [if_neg atLimit, ih (fun other mem => run_zero other (List.mem_cons_of_mem _ mem))
          (by omega), List.length_cons]
        congr 1
        omega

theorem binarySearchForStart_eq (parts : Parts ncompare val c.data front run back)
    (sorted : sortArray qsort c = c) :
    binarySearchForStart ncompare qsort val c =
      (c, if run = [] then -1 else toCInt front.length) := by
  rw [binarySearchForStart]
  by_cases empty : c.data.length = 0
  · have nothing : front ++ (run ++ back) = [] := by
      rw [← parts.data_eq]
      exact List.length_eq_zero_iff.mp empty
    rw [if_pos empty, if_pos (List.append_eq_nil_iff.mp (List.append_eq_nil_iff.mp nothing).2).1]
  · rw [if_neg empty]
    simp only [sorted, parts.startLoop_eq]
    have found : c.data[front.length]? = (run ++ back)[0]? := by
      simp only [parts.data_eq, List.getElem?_append_right le_rfl, Nat.sub_self]
    rw [found]
    cases run with
    | nil =>
        rw [List.nil_append, if_pos rfl]
        cases back with
        | nil => rfl
        | cons entry back =>
            have pos := parts.back_pos entry List.mem_cons_self
            exact if_pos (by omega)
    | cons entry run =>
        have zero := parts.run_zero entry List.mem_cons_self
        rw [if_neg (List.cons_ne_nil _ _)]
        exact if_neg (not_not.mpr zero)

/-- What is returned as the subset when `pos` elements are less than the key. -/
structure ReturnsSubset (pos : Nat) (equal : List α) (len : Int)
    (returned : Option (List α) × Int) : Prop where
  null : equal = [] ∨ intMax - 1 ≤ pos → returned = (none, len)
  tooMany : equal ≠ [] → pos < intMax - 1 → intMax / 8 < min (equal.length : Int) (intMax - pos) →
    returned = (none, min (equal.length : Int) (intMax - pos))
  subset : equal ≠ [] → pos < intMax - 1 → min (equal.length : Int) (intMax - pos) ≤ intMax / 8 →
    returned = (some (equal.take (min (equal.length : Int) (intMax - pos)).toNat),
      min (equal.length : Int) (intMax - pos))

theorem returnsSubset_of_parts (parts : Parts ncompare val (sortArray qsort c).data front run back)
    (small : (sortArray qsort c).data.length ≤ 2 ^ 32) (some_data : c.data.length ≠ 0) (len : Int) :
    ReturnsSubset front.length run len (getSubset ncompare qsort c val len).2 := by
  have length_eq := congrArg List.length parts.data_eq
  rw [List.length_append, List.length_append] at length_eq
  rw [getSubset, if_neg some_data, binarySearchForStart_eq parts sortArray_sortArray]
  cases run with
  | nil =>
      simp only [if_true]
      refine ⟨fun _ => rfl, ?_, ?_⟩
      · exact fun absurdity => absurd rfl absurdity
      · exact fun absurdity => absurd rfl absurdity
  | cons entry run =>
      rw [List.length_cons] at length_eq
      rw [if_neg (List.cons_ne_nil _ _)]
      by_cases inRange : (front.length : Int) < intMax - 1
      · have start_eq : toCInt front.length = front.length :=
          toCInt_eq_self (by unfold intMax at inRange; omega)
        have rest_eq : (sortArray qsort c).data.drop (front.length + 1) = run ++ back := by
          rw [parts.data_eq, ← List.drop_drop, List.drop_left]
          rfl
        have last_eq := @subsetEnd_eq _ ncompare val run back
          (fun other mem => parts.run_zero other (List.mem_cons_of_mem _ mem)) parts.back_pos
          front.length (by omega)
        have count_eq : min ((front.length : Int) + run.length) (intMax - 1) - front.length + 1 =
            min ((entry :: run).length : Int) (intMax - front.length) := by
          rw [List.length_cons]
          push_cast
          omega
        simp only [start_eq, Int.toNat_natCast, rest_eq, last_eq, count_eq]
        rw [if_neg (by omega)]
        have pos : 0 < min ((entry :: run).length : Int) (intMax - front.length) := by
          rw [List.length_cons]
          push_cast
          omega
        have le_run : min ((entry :: run).length : Int) (intMax - front.length) ≤
            (entry :: run).length := min_le_left _ _
        refine ⟨?_, ?_, ?_⟩
        · rintro (absurdity | outside)
          · exact absurd absurdity (List.cons_ne_nil _ _)
          · exact absurd inRange (not_lt.mpr outside)
        · intro _ _ tooMany
          rw [if_pos (.inr tooMany)]
        · intro _ _ fits
          rw [if_neg (by omega), parts.data_eq, List.drop_left,
            List.take_append_of_le_length (by omega)]
      · have outside : toCInt front.length < 0 ∨ intMax - 1 ≤ toCInt front.length := by
          by_cases sign : front.length < 2 ^ 31
          · right
            rw [toCInt_eq_self sign]
            omega
          · left
            apply toCInt_neg
            omega
        simp only [if_pos outside]
        refine ⟨fun _ => rfl, ?_, ?_⟩
        · exact fun _ absurdity => absurd absurdity inRange
        · exact fun _ absurdity => absurd absurdity inRange

/-- The subset of a key is just the elements that are equal to it, in order, within the limits of an
`int`. -/
theorem getSubset_returns [LinearOrder κ] {key : α → κ} (sorts : Sorts qsort key)
    (compares : ComparesPrefix ncompare key) (inOrder : InOrder key c)
    (sorted : c.unsorted = false) (small : c.data.length ≤ 2 ^ 32) (val : α) (len : Int) :
    (sortArray qsort c).data.Perm c.data ∧ SortedBy key (sortArray qsort c).data ∧
      ReturnsSubset ((sortArray qsort c).data.filter fun entry => ncompare entry val < 0).length
        ((sortArray qsort c).data.filter fun entry => ncompare entry val = 0) len
        (getSubset ncompare qsort c val len).2 := by
  have perm := perm_sortArray (c := c) sorts
  have inSorted := sorted_sortArray sorts inOrder sorted
  refine ⟨perm, inSorted, ?_⟩
  rcases exists_parts compares val inSorted with ⟨front, run, back, parts⟩
  rw [parts.filter_eq, parts.filter_neg_eq]
  by_cases empty : c.data.length = 0
  · have nothing : front ++ (run ++ back) = [] := by
      rw [← parts.data_eq]
      exact List.length_eq_zero_iff.mp (perm.length_eq.trans empty)
    obtain rfl := (List.append_eq_nil_iff.mp (List.append_eq_nil_iff.mp nothing).2).1
    rw [getSubset, if_pos empty]
    refine ⟨fun _ => rfl, ?_, ?_⟩
    · exact fun absurdity => absurd rfl absurdity
    · exact fun absurdity => absurd rfl absurdity
  · exact returnsSubset_of_parts parts (by rw [perm.length_eq]; exact small) empty len

def compareTens (lhs rhs : Nat) : Int := (lhs / 10 : Nat) - (rhs / 10 : Nat)

theorem comparesPrefix_compareTens : ComparesPrefix compareTens id := by
  constructor
  · intro lhs rhs val le neg
    simp only [id, compareTens] at le neg ⊢
    omega
  · intro lhs rhs val le pos
    simp only [id, compareTens] at le pos ⊢
    omega

theorem getSubset_returns_twenties :
    (Sorts sortNumbers id ∧ ComparesPrefix compareTens id ∧
      InOrder id (⟨[7, 21, 25, 30], false, false, false⟩ : BinaryArray Nat)) ∧
      ReturnsSubset 1 [21, 25] 0
        (getSubset compareTens sortNumbers ⟨[7, 21, 25, 30], false, false, false⟩ 20 0).2 := by
  have inOrder : InOrder id (⟨[7, 21, 25, 30], false, false, false⟩ : BinaryArray Nat) := by
    intro _ _
    exact (by decide : [7, 21, 25, 30].Pairwise fun lhs rhs => lhs ≤ rhs)
  refine ⟨⟨sorts_sortNumbers, comparesPrefix_compareTens, inOrder⟩, ?_⟩
  exact
    (getSubset_returns sorts_sortNumbers comparesPrefix_compareTens inOrder rfl (by decide) 20 0).2.2

/-- Without an equal element the length stays what it was. -/
theorem not_getSubset_length_zero :
    ¬ ∀ (c : BinaryArray Nat) (val : Nat) (len : Int), c.unsorted = false → c.dirty = false →
      SortedBy id c.data → (∀ entry ∈ c.data, compareTens entry val ≠ 0) →
        (getSubset compareTens sortNumbers c val len).2 = (none, 0) := by
  intro all
  have returned := all ⟨[7], false, false, false⟩ 20 5 rfl rfl (by simp [SortedBy]) (by decide)
  exact absurd returned (by decide +kernel)

end

end BinaryArray

end NetSnmp
