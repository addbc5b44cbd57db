import NetSnmp.Agent.GetBulk

/-!
# The rows of a GETBULK response

When `_reorder_getbulk` turns the columns of results into rows that are named and cut as they
should be.
-/

namespace NetSnmp

def bulkNodes (n r rows : Nat) : List BulkNode :=
  (List.range n).map (fun k => (k, 0)) ++
    (List.range rows).flatMap fun j => (List.range r).map fun i => (n + i, j)

def GetbulkRequest.nameAt (request : GetbulkRequest) (k : Nat) : Option Oid :=
  request.variableList[k]?.map (·.name)

/-- The list consists of the variables that are not repeated and of rows, its `endOfMibView`
entries have the right names, and it is cut behind a full row of them only. -/
structure InRows (request : GetbulkRequest) (n r repeats rows : Nat) (after : BulkResults) :
    Prop where
  linked : LinkedTo after.next after.head (bulkNodes n r rows) none
  few : rows ≤ repeats
  firstNames : 0 < rows → ∀ i < r, (after.var (n + i, 0)).type = snmpEndofmibview →
    request.nameAt (n + i) = some (after.var (n + i, 0)).name
  nextNames : ∀ i < r, ∀ j, j + 1 < rows → (after.var (n + i, j + 1)).type = snmpEndofmibview →
    (after.var (n + i, j + 1)).name = (after.var (n + i, j)).name
  cut : rows < repeats → 0 < rows ∧
    ∀ i < r, (after.var (n + i, rows - 1)).type = snmpEndofmibview

/-- The response is in rows, and what is not an end has not been changed. -/
structure ReordersBulk (request : GetbulkRequest) (n r repeats : Nat)
    (var : BulkNode → VariableList) (after : BulkResults) : Prop where
  inRows : ∃ rows, InRows request n r repeats rows after
  nonRepeaters : ∀ k < n, after.var (k, 0) = var (k, 0)
  results : ∀ i < r, ∀ j < repeats, isEnd (var (n + i, j)) = false →
    after.var (n + i, j) = var (n + i, j)

/-- A result becomes an `endOfMibView` entry: it is one, or has no name and there is a name to
give it (the original request is copied up to its 10000th variable). -/
def EndsAt (var : BulkNode → VariableList) (n i j : Nat) : Prop :=
  (var (n + i, j)).type = snmpEndofmibview ∨
    ((var (n + i, j)).name = [] ∧ (0 < j ∨ i < 10000))

/-- A row is taken for a full row of `endOfMibView` by all its entries but the last one. -/
def TakenForEnd (var : BulkNode → VariableList) (n r j : Nat) : Prop :=
  EndsAt var n 0 j ∧ ∀ i, i + 1 < r → EndsAt var n i j

/-- Where a column ends at once, the variable of the request at its number has the name of its own
one; and in the first row that is taken for a full one the last column has ended too, unless it
is the last row anyway. -/
structure OrderlyBulk (request : GetbulkRequest) (n r repeats : Nat)
    (var : BulkNode → VariableList) : Prop where
  names : 0 < repeats → ∀ i < r, EndsAt var n i 0 →
    (if i < 10000 then request.nameAt i else some (var (n + i, 0)).name) = request.nameAt (n + i)
  last : ∀ j, j + 1 < repeats → 0 < r → TakenForEnd var n r j →
    (∀ j' < j, ¬ TakenForEnd var n r j') → EndsAt var n (r - 1) j

section Layout

variable {list : BulkList} {prev : Option BulkNode}

theorem collect_nonRepeaters (repeats n r first : Nat) (prev : Option BulkNode)
    (list : BulkList) :
    list.collect repeats n prev (List.range' first (n + r)) =
      list.collect repeats 0 (if n = 0 then prev else some (first + n - 1, 0))
        (List.range' (first + n) r) := by
  induction n generalizing first prev with
  | zero => simp
  | succ n ih =>
      rw [Nat.add_right_comm, List.range'_succ, BulkList.collect, ih]
      have place : first + 1 + n = first + (n + 1) := by omega
      by_cases none : n = 0
      · subst none
        simp
      · simp only [none, if_false, Nat.succ_ne_zero, place]

def columns (first r repeats : Nat) : List BulkNode :=
  (List.range' first r).flatMap fun k => (List.range repeats).map fun j => (k, j)

structure LaysOut (list list' : BulkList) (first r repeats : Nat) : Prop where
  head : list'.head = list.head
  vbcount : list'.vbcount = list.vbcount
  bulkcache : list'.bulkcache = list.bulkcache ++ columns first r repeats
  front : ∀ k < first, ∀ j, list'.next (k, j) = list.next (k, j)
  stop : 0 < r → list'.next (first + r - 1, repeats - 1) = none

theorem repeatVarbind_next_of_ne {repeats varbind k : Nat} (vbsave : Option BulkNode)
    (other : k ≠ varbind) (j : Nat) :
    (list.repeatVarbind repeats varbind vbsave).next (k, j) = list.next (k, j) := by
  have apart (i : Nat) : ((k, j) : BulkNode) ≠ (varbind, i) := by
    intro same
    exact other (congrArg Prod.fst same)
  simp only [BulkList.repeatVarbind]
  rw [Function.update_of_ne (apart _)]
  apply (foldl_update _ _ _).2
  · intro i _
    exact apart i
  · intro i j _ _ same
    exact congrArg Prod.snd same

theorem repeatVarbind_next_last (list : BulkList) (repeats varbind : Nat)
    (vbsave : Option BulkNode) :
    (list.repeatVarbind repeats varbind vbsave).next (varbind, repeats - 1) = vbsave :=
  Function.update_self _ _ _

theorem collect_repeaters {repeats : Nat} (positive : 0 < repeats) (first r : Nat)
    (prev : Option BulkNode) (list : BulkList) :
    LaysOut list (list.collect repeats 0 prev (List.range' first r)) first r repeats := by
  induction r generalizing first prev list with
  | zero =>
      constructor
      · rfl
      · rfl
      · simp [columns, BulkList.collect]
      · intro k _ j
        rfl
      · intro none
        cases none
  | succ r ih =>
      rw [List.range'_succ, BulkList.collect, if_pos positive]
      have rest := ih (first + 1) (some (first, 0)) (list.repeatVarbind repeats first
        ((List.range' (first + 1) r).head?.map fun vbsave => (vbsave, 0)))
      constructor
      · rw [rest.head]
        rfl
      · rw [rest.vbcount]
        rfl
      · rw [rest.bulkcache]
        simp [columns, BulkList.repeatVarbind, List.range'_succ]
      · intro k before j
        rw [rest.front k (by omega), repeatVarbind_next_of_ne _ (by omega)]
      · intro _
        by_cases last : r = 0
        · subst last
          have place : first + (0 + 1) - 1 = first := by omega
          rw [place, rest.front first (Nat.lt_succ_self first)]
          exact repeatVarbind_next_last _ _ _ _
        · have place : first + (r + 1) - 1 = first + 1 + r - 1 := by omega
          rw [place]
          exact rest.stop (by omega)

/-- The link that `prevNext` points to. -/
def BulkList.linkAt (list : BulkList) (prevNext : Option BulkNode) : Option BulkNode :=
  prevNext.elim list.head list.next

section Drop

variable {varbind : Nat}

theorem dropVarbind_linkAt (other : prev ≠ some (varbind, 0)) :
    (list.dropVarbind prev varbind).linkAt prev = list.next (varbind, 0) := by
  cases prev with
  | none => rfl
  | some node =>
      have apart : node ≠ (varbind, 0) := fun same => other (congrArg some same)
      simp only [BulkList.linkAt, BulkList.dropVarbind, Option.elim_some]
      rw [Function.update_of_ne apart, Function.update_self]

theorem dropVarbind_next {k : Nat} (behind : k ≠ varbind) (other : prev ≠ some (k, 0)) :
    (list.dropVarbind prev varbind).next (k, 0) = list.next (k, 0) := by
  have apart : ((k, 0) : BulkNode) ≠ (varbind, 0) := by
    intro same
    exact behind (congrArg Prod.fst same)
  cases prev with
  | none => exact Function.update_of_ne apart _ _
  | some node =>
      have apart' : ((k, 0) : BulkNode) ≠ node := fun same => other (congrArg some same.symm)
      simp only [BulkList.dropVarbind]
      rw [Function.update_of_ne apart, Function.update_of_ne apart']

theorem dropVarbind_head (inside : prev ≠ none) :
    (list.dropVarbind prev varbind).head = list.head := by
  cases prev with
  | none => exact absurd rfl inside
  | some node => rfl

theorem dropVarbind_vbcount : (list.dropVarbind prev varbind).vbcount = list.vbcount - 1 := by
  cases prev <;> rfl

end Drop

/-- Variables that are repeated 0 times are taken off the list, which then ends in front of
them. -/
structure DropsAll (list list' : BulkList) (prev : Option BulkNode) (first r : Nat) : Prop where
  vbcount : list'.vbcount = list.vbcount - r
  front : ∀ k < first, prev ≠ some (k, 0) → list'.next (k, 0) = list.next (k, 0)
  head : prev ≠ none → list'.head = list.head
  stop : list'.linkAt prev = none

theorem collect_drop (first r : Nat) (before : ∀ k, first ≤ k → prev ≠ some (k, 0))
    (links : ∀ k, first ≤ k → k < first + r →
      list.next (k, 0) = if k + 1 < first + r then some (k + 1, 0) else none)
    (ended : r = 0 → list.linkAt prev = none) :
    DropsAll list (list.collect 0 0 prev (List.range' first r)) prev first r := by
  induction r generalizing first list with
  | zero =>
      constructor
      · rfl
      · intro k _ _
        rfl
      · intro _
        rfl
      · exact ended rfl
  | succ r ih =>
      rw [List.range'_succ, BulkList.collect, if_neg (Nat.lt_irrefl 0)]
      have apart := before first (le_refl first)
      have links' : ∀ k, first + 1 ≤ k → k < first + 1 + r →
          (list.dropVarbind prev first).next (k, 0) =
            if k + 1 < first + 1 + r then some (k + 1, 0) else none := by
        intro k lower upper
        rw [dropVarbind_next (by omega) (before k (by omega)), links k (by omega) (by omega)]
        simp only [show first + (r + 1) = first + 1 + r by omega]
      have ended' : r = 0 → (list.dropVarbind prev first).linkAt prev = none := by
        intro last
        rw [dropVarbind_linkAt apart, links first (le_refl first) (by omega), if_neg (by omega)]
      have rest := ih (first + 1) (fun k inside => before k (by omega)) links' ended'
      constructor
      · rw [rest.vbcount, dropVarbind_vbcount]
        omega
      · intro k inside other
        rw [rest.front k (by omega) other, dropVarbind_next (by omega) other]
      · intro inside
        rw [rest.head inside, dropVarbind_head inside]
      · exact rest.stop

theorem getD_columns (first : Nat) {r repeats i j : Nat} (inside : i < r) (inside' : j < repeats)
    (default : BulkNode) :
    (columns first r repeats).getD (i * repeats + j) default = (first + i, j) := by
  induction r generalizing first i with
  | zero => cases inside
  | succ r ih =>
      have split : columns first (r + 1) repeats =
          (List.range repeats).map (fun j => (first, j)) ++ columns (first + 1) r repeats := by
        simp [columns, List.range'_succ]
      rw [split, List.getD_eq_getElem?_getD]
      cases i with
      | zero =>
          rw [List.getElem?_append_left (by simpa using inside')]
          simp [inside']
      | succ i =>
          have index : (i + 1) * repeats + j = repeats + (i * repeats + j) := by
            rw [Nat.succ_mul]
            omega
          rw [index, List.getElem?_append_right (by simp)]
          have rest := ih (first + 1) (Nat.lt_of_succ_lt_succ inside)
          rw [List.getD_eq_getElem?_getD] at rest
          simp only [List.length_map, List.length_range, Nat.add_sub_cancel_left, rest]
          rw [show first + 1 + i = first + (i + 1) by omega]

variable {config : GetbulkConfig} {request : GetbulkRequest}

theorem GetbulkRequest.length_eq (request : GetbulkRequest) :
    request.variableList.length = request.nonRepeaters + request.repeaters := by
  have := Nat.min_le_right request.errstat.toNat request.variableList.length
  simp only [GetbulkRequest.repeaters, GetbulkRequest.nonRepeaters]
  omega

structure LaidOut (list : BulkList) (n r repeats : Nat) : Prop where
  head : list.head = some (0, 0)
  vbcount : list.vbcount = n + r
  cached : ∀ i < r, ∀ j < repeats, list.cached (i * repeats + j) = (n + i, j)
  front : ∀ k < n, list.next (k, 0) = some (k + 1, 0)
  stop : list.next (n + r - 1, repeats - 1) = none

theorem createBulkList_eq (config : GetbulkConfig) (request : GetbulkRequest) :
    createBulkList config request =
      (receivedList (request.nonRepeaters + request.repeaters)).collect (request.repeats config) 0
        (if request.nonRepeaters = 0 then none else some (request.nonRepeaters - 1, 0))
        (List.range' request.nonRepeaters request.repeaters) := by
  rw [createBulkList, request.length_eq, List.range_eq_range', collect_nonRepeaters]
  simp only [Nat.zero_add]

theorem createBulkList_laidOut (repeating : 0 < request.repeaters)
    (repeated : 0 < request.repeats config) :
    LaidOut (createBulkList config request) request.nonRepeaters request.repeaters
      (request.repeats config) := by
  rw [createBulkList_eq]
  have laid := collect_repeaters repeated request.nonRepeaters request.repeaters
    (if request.nonRepeaters = 0 then none else some (request.nonRepeaters - 1, 0))
    (receivedList (request.nonRepeaters + request.repeaters))
  constructor
  · rw [laid.head]
    exact if_pos (by omega)
  · exact laid.vbcount
  · intro i inside j inside'
    rw [BulkList.cached, laid.bulkcache]
    exact getD_columns _ inside inside' _
  · intro k inside
    rw [laid.front k inside]
    exact if_pos (by omega)
  · exact laid.stop repeating

theorem createBulkList_plain (plain : request.repeaters = 0 ∨ request.repeats config = 0) :
    (createBulkList config request).vbcount = request.nonRepeaters ∧
      LinkedTo (createBulkList config request).next (createBulkList config request).head
        ((List.range request.nonRepeaters).map fun k => (k, 0)) none := by
  rw [createBulkList_eq]
  by_cases some : request.repeaters = 0
  · simp only [some, Nat.add_zero, List.range'_zero, BulkList.collect]
    refine ⟨rfl, ?_⟩
    exact linkedTo_range (fun k => (k, 0)) rfl fun i _ => rfl
  · have noRepeats : request.repeats config = 0 := plain.resolve_left some
    rw [noRepeats]
    have apart : ∀ k, request.nonRepeaters ≤ k →
        (if request.nonRepeaters = 0 then none
          else Option.some (request.nonRepeaters - 1, 0)) ≠ Option.some (k, 0) := by
      intro k behind same
      split_ifs at same with zero
      have := congrArg Prod.fst (Option.some.inj same)
      simp only at this
      omega
    have links : ∀ k, request.nonRepeaters ≤ k → k < request.nonRepeaters + request.repeaters →
        (receivedList (request.nonRepeaters + request.repeaters)).next (k, 0) =
          if k + 1 < request.nonRepeaters + request.repeaters then Option.some (k + 1, 0)
          else none := fun k _ _ => rfl
    have dropped := collect_drop request.nonRepeaters request.repeaters apart links
      (fun none => absurd none some)
    refine ⟨?_, ?_⟩
    · rw [dropped.vbcount]
      exact Nat.add_sub_cancel _ _
    · have stop := dropped.stop
      have front := dropped.front
      have head := dropped.head
      by_cases zero : request.nonRepeaters = 0
      · rw [if_pos zero] at stop ⊢
        simp only [zero, List.range_zero, List.map_nil] at stop ⊢
        exact stop
      · rw [if_neg zero] at stop front head ⊢
        rw [head (by simp)]
        have start : (receivedList (request.nonRepeaters + request.repeaters)).head =
            if 0 < request.nonRepeaters then Option.some (0, 0) else none := by
          rw [if_pos (by omega)]
          exact if_pos (by omega)
        apply linkedTo_range (fun k => (k, 0)) start
        intro k inside
        by_cases last : k + 1 < request.nonRepeaters
        · have other : Option.some ((request.nonRepeaters - 1, 0) : BulkNode) ≠
              Option.some (k, 0) := by
            intro same
            have := congrArg Prod.fst (Option.some.inj same)
            simp only at this
            omega
          rw [front k inside other, if_pos last]
          exact if_pos (by omega)
        · rw [if_neg last, show k = request.nonRepeaters - 1 by omega]
          exact stop

end Layout

section Contents

variable {list : BulkList} {orig : List VariableList} {var before : BulkNode → VariableList}
  {n r repeats : Nat}

def fixedFrom (prevName : Option Oid) (entry : VariableList) : VariableList :=
  if isEnd entry then
    match prevName with
    | some name => ⟨name, snmpEndofmibview, .string []⟩
    | none => entry
  else entry

def fixedAt (orig : List VariableList) (before : BulkNode → VariableList) (n i : Nat) :
    Nat → VariableList
  | 0 => fixedFrom (orig[i]?.map (·.name)) (before (n + i, 0))
  | j + 1 => fixedFrom (some (fixedAt orig before n i j).name) (before (n + i, j + 1))

theorem fixEntry_self (i : Nat) (prev : Option BulkNode) (curr : BulkNode) :
    fixEntry orig i var prev curr curr =
      fixedFrom (prev.elim (orig[i]?.map (·.name)) fun node => some (var node).name)
        (var curr) := by
  simp only [fixEntry, fixedFrom]
  split_ifs
  · cases prev.elim (orig[i]?.map (·.name)) fun node => some (var node).name with
    | none => rfl
    | some name => exact Function.update_self _ _ _
  · rfl

theorem fixEntry_of_ne (i : Nat) (prev : Option BulkNode) {curr node : BulkNode}
    (other : node ≠ curr) : fixEntry orig i var prev curr node = var node := by
  simp only [fixEntry]
  split_ifs
  · cases prev.elim (orig[i]?.map (·.name)) fun node => some (var node).name with
    | none => rfl
    | some name => exact Function.update_of_ne other _ _
  · rfl

/-- The entries of the columns in front of `columns`, and those in front of `rows` of that column,
are as they are left, all other variables as they were. -/
structure FixedUpTo (orig : List VariableList) (before : BulkNode → VariableList)
    (n repeats columns rows : Nat) (var : BulkNode → VariableList) : Prop where
  done : ∀ i < columns, ∀ j < repeats, var (n + i, j) = fixedAt orig before n i j
  started : ∀ j < rows, var (n + columns, j) = fixedAt orig before n columns j
  left : ∀ k j, (k < n ∨ n + columns < k ∨ (k = n + columns ∧ rows ≤ j)) →
    var (k, j) = before (k, j)

theorem FixedUpTo.entry {columns rows : Nat}
    (fixed : FixedUpTo orig before n repeats columns rows var) :
    FixedUpTo orig before n repeats columns (rows + 1)
      (fixEntry orig columns var (if rows = 0 then none else some (n + columns, rows - 1))
        (n + columns, rows)) := by
  have entry : var (n + columns, rows) = before (n + columns, rows) :=
    fixed.left _ _ (Or.inr (Or.inr ⟨rfl, le_refl rows⟩))
  constructor
  · intro i inside j inside'
    rw [fixEntry_of_ne _ _ (by simp; omega)]
    exact fixed.done i inside j inside'
  · intro j inside
    by_cases last : j = rows
    · subst last
      rw [fixEntry_self, entry]
      cases j with
      | zero => rfl
      | succ j =>
          rw [if_neg (Nat.succ_ne_zero j)]
          simp only [Option.elim_some, Nat.add_sub_cancel, fixed.started j (Nat.lt_succ_self j)]
          rfl
    · rw [fixEntry_of_ne _ _ (by simp; omega)]
      exact fixed.started j (by omega)
  · intro k j outside
    rw [fixEntry_of_ne _ _ (by simp; omega)]
    exact fixed.left k j (by omega)

theorem FixedUpTo.column {columns : Nat}
    (cached : ∀ j < repeats, list.cached (columns * repeats + j) = (n + columns, j))
    (fixed : FixedUpTo orig before n repeats columns 0 var) :
    FixedUpTo orig before n repeats (columns + 1) 0 (list.fixColumn orig repeats var columns) := by
  have run (rows : Nat) (inside : rows ≤ repeats) :
      ∃ var', (List.range rows).foldl
          (fun (state : (BulkNode → VariableList) × Option BulkNode) j =>
            (fixEntry orig columns state.1 state.2 (list.cached (columns * repeats + j)),
              some (list.cached (columns * repeats + j)))) (var, none) =
          (var', if rows = 0 then none else some (n + columns, rows - 1)) ∧
        FixedUpTo orig before n repeats columns rows var' := by
    induction rows with
    | zero => exact ⟨var, rfl, fixed⟩
    | succ rows ih =>
        rcases ih (by omega) with ⟨var', eq, fixed'⟩
        refine ⟨_, ?_, fixed'.entry⟩
        rw [List.range_succ, List.foldl_append, eq]
        simp only [List.foldl_cons, List.foldl_nil, cached rows (by omega), Nat.succ_ne_zero,
          if_false, Nat.add_sub_cancel]
  rcases run repeats (le_refl repeats) with ⟨var', eq, fixed'⟩
  have column : list.fixColumn orig repeats var columns = var' := congrArg Prod.fst eq
  rw [column]
  constructor
  · intro i inside j inside'
    by_cases last : i = columns
    · subst last
      exact fixed'.started j inside'
    · exact fixed'.done i (by omega) j inside'
  · intro j inside
    cases inside
  · intro k j outside
    by_cases last : k = n + columns
    · omega
    · exact fixed'.left k j (by omega)

theorem fixColumns (cached : ∀ i < r, ∀ j < repeats, list.cached (i * repeats + j) = (n + i, j))
    (before : BulkNode → VariableList) :
    FixedUpTo orig before n repeats r 0
      ((List.range r).foldl (list.fixColumn orig repeats) before) := by
  induction r with
  | zero =>
      constructor
      · intro i inside
        cases inside
      · intro j inside
        cases inside
      · intro k j _
        rfl
  | succ r ih =>
      rw [List.range_succ, List.foldl_append]
      exact (ih fun i inside => cached i (by omega)).column (cached r (Nat.lt_succ_self r))

end Contents

section Links

variable {list : BulkList} {next : BulkNode → Option BulkNode} {n r repeats : Nat}

theorem linkColumn_next (next : BulkNode → Option BulkNode) {i : Nat}
    (cached : ∀ j < repeats, list.cached (i * repeats + j) = (n + i, j))
    (cached' : ∀ j < repeats, list.cached ((i + 1) * repeats + j) = (n + (i + 1), j)) :
    (∀ j < repeats, list.linkColumn repeats next i (n + i, j) = some (n + (i + 1), j)) ∧
      ∀ k j, k ≠ n + i → list.linkColumn repeats next i (k, j) = next (k, j) := by
  have injective : ∀ j j', j < repeats → j' < repeats →
      list.cached (i * repeats + j) = list.cached (i * repeats + j') → j = j' := by
    intro j j' inside inside' same
    rw [cached j inside, cached j' inside'] at same
    exact congrArg Prod.snd same
  have updates := foldl_update (fun j => some (list.cached ((i + 1) * repeats + j)))
    injective next
  constructor
  · intro j inside
    have here := updates.1 j inside
    rw [cached j inside, cached' j inside] at here
    exact here
  · intro k j other
    apply updates.2
    intro j' inside same
    rw [cached j' inside] at same
    exact other (congrArg Prod.fst same)

theorem linkColumns_next (next : BulkNode → Option BulkNode) (columns : Nat)
    (cached : ∀ i < columns + 1, ∀ j < repeats, list.cached (i * repeats + j) = (n + i, j)) :
    (∀ i < columns, ∀ j < repeats, (List.range columns).foldl (list.linkColumn repeats) next
        (n + i, j) = some (n + (i + 1), j)) ∧
      ∀ k j, (k < n ∨ n + columns ≤ k) →
        (List.range columns).foldl (list.linkColumn repeats) next (k, j) = next (k, j) := by
  induction columns with
  | zero => exact ⟨fun i inside => absurd inside (Nat.not_lt_zero i), fun _ _ _ => rfl⟩
  | succ columns ih =>
      have ih := ih fun i inside => cached i (by omega)
      rw [List.range_succ, List.foldl_append, List.foldl_cons, List.foldl_nil]
      have column := linkColumn_next ((List.range columns).foldl (list.linkColumn repeats) next)
        (cached columns (by omega)) (cached (columns + 1) (by omega))
      constructor
      · intro i inside j inside'
        by_cases last : i = columns
        · subst last
          exact column.1 j inside'
        · rw [column.2 _ _ (by omega)]
          exact ih.1 i (by omega) j inside'
      · intro k j outside
        rw [column.2 _ _ (by omega)]
        exact ih.2 k j (by omega)

structure LinksRows (next next' : BulkNode → Option BulkNode) (n r repeats : Nat) : Prop where
  front : ∀ k < n, next' (k, 0) = next (k, 0)
  row : ∀ i, i + 1 < r → ∀ j < repeats, next' (n + i, j) = some (n + (i + 1), j)
  rowEnd : ∀ j, j + 1 < repeats → next' (n + (r - 1), j) = some (n, j + 1)
  stop : next' (n + (r - 1), repeats - 1) = next (n + (r - 1), repeats - 1)

theorem linkRows (positive : 0 < r)
    (cached : ∀ i < r, ∀ j < repeats, list.cached (i * repeats + j) = (n + i, j)) :
    LinksRows next (list.linkLast r repeats
      ((List.range (r - 1)).foldl (list.linkColumn repeats) next)) n r repeats := by
  have columns := linkColumns_next next (r - 1)
    fun i inside => cached i (by omega)
  have last : ∀ j < repeats, list.cached ((r - 1) * repeats + j) = (n + (r - 1), j) :=
    cached (r - 1) (by omega)
  have first : ∀ j < repeats, list.cached j = (n, j) := by
    intro j inside
    have here := cached 0 positive j inside
    rwa [Nat.zero_mul, Nat.zero_add] at here
  have injective : ∀ j j', j < repeats - 1 → j' < repeats - 1 →
      list.cached ((r - 1) * repeats + j) = list.cached ((r - 1) * repeats + j') → j = j' := by
    intro j j' inside inside' same
    rw [last j (by omega), last j' (by omega)] at same
    exact congrArg Prod.snd same
  have updates := foldl_update (fun j => some (list.cached (j + 1))) injective
    ((List.range (r - 1)).foldl (list.linkColumn repeats) next)
  have others (k j : Nat) (other : k ≠ n + (r - 1) ∨ repeats - 1 ≤ j) :
      list.linkLast r repeats ((List.range (r - 1)).foldl (list.linkColumn repeats) next) (k, j) =
        (List.range (r - 1)).foldl (list.linkColumn repeats) next (k, j) := by
    apply updates.2
    intro j' inside same
    rw [last j' (by omega)] at same
    have := congrArg Prod.fst same
    have := congrArg Prod.snd same
    simp only at *
    omega
  constructor
  · intro k inside
    rw [others k 0 (Or.inl (by omega)), columns.2 k 0 (Or.inl inside)]
  · intro i inside j inside'
    rw [others _ _ (Or.inl (by omega)), columns.1 i (by omega) j inside']
  · intro j inside
    have here := updates.1 j (by omega)
    rw [last j (by omega), first (j + 1) inside] at here
    exact here
  · rw [others _ _ (Or.inr (le_refl _)), columns.2 _ _ (Or.inr (le_refl _))]

theorem linkedTo_bulkNodes {rows : Nat} (positive : 0 < r) (some : 0 < rows)
    (front : ∀ k < n, next (k, 0) = Option.some (k + 1, 0))
    (row : ∀ i, i + 1 < r → ∀ j < rows, next (n + i, j) = Option.some (n + (i + 1), j))
    (rowEnd : ∀ j, j + 1 < rows → next (n + (r - 1), j) = Option.some (n, j + 1))
    (stop : next (n + (r - 1), rows - 1) = none) :
    LinkedTo next (Option.some (0, 0)) (bulkNodes n r rows) none := by
  have fronts : LinkedTo next (Option.some (0, 0)) ((List.range n).map fun k => (k, 0))
      (Option.some (n, 0)) := by
    apply linkedTo_range fun k => (k, 0)
    · split_ifs with more
      · rfl
      · rw [show n = 0 by omega]
    · intro k inside
      rw [front k inside]
      split_ifs with more
      · rfl
      · rw [show k + 1 = n by omega]
  have oneRow (j : Nat) (inside : j < rows) : LinkedTo next (Option.some (n, j))
      ((List.range r).map fun i => (n + i, j)) (next (n + (r - 1), j)) := by
    apply linkedTo_range fun i => (n + i, j)
    · rw [if_pos positive]
      rfl
    · intro i inside'
      by_cases last : i + 1 < r
      · rw [row i last j inside, if_pos last]
      · rw [if_neg last, show i = r - 1 by omega]
  have someRows (count : Nat) (inside : count < rows) : LinkedTo next (Option.some (n, 0))
      ((List.range count).flatMap fun j => (List.range r).map fun i => (n + i, j))
      (Option.some (n, count)) := by
    induction count with
    | zero => rfl
    | succ count ih =>
        rw [List.range_succ, List.flatMap_append, List.flatMap_singleton]
        apply (ih (by omega)).append
        rw [← rowEnd count inside]
        exact oneRow count (by omega)
  apply fronts.append
  rw [show rows = rows - 1 + 1 by omega, List.range_succ, List.flatMap_append,
    List.flatMap_singleton]
  apply (someRows (rows - 1) (by omega)).append
  rw [← stop]
  exact oneRow (rows - 1) (by omega)

end Links

section Cut

variable {results : BulkResults} {n r repeats : Nat}

/-- All entries of a row but the last one, and the first one, are `endOfMibView`. -/
def EndsRow (var : BulkNode → VariableList) (n r j : Nat) : Prop :=
  (var (n, j)).type = snmpEndofmibview ∧
    ∀ i, i + 1 < r → (var (n + i, j)).type = snmpEndofmibview

theorem rowEnd_eq {j : Nat}
    (row : ∀ i, i + 1 < r → results.next (n + i, j) = some (n + (i + 1), j)) (steps i : Nat)
    (length : i + steps + 1 = r) :
    (results.rowEnd steps (n + i, j) = some (n + (r - 1), j) ∧
        ∀ i', i ≤ i' → i' + 1 < r → (results.var (n + i', j)).type = snmpEndofmibview) ∨
      (results.rowEnd steps (n + i, j) = none ∧
        ¬ ∀ i', i ≤ i' → i' + 1 < r → (results.var (n + i', j)).type = snmpEndofmibview) := by
  induction steps generalizing i with
  | zero =>
      left
      constructor
      · rw [BulkResults.rowEnd, show i = r - 1 by omega]
      · intro i' lower upper
        omega
  | succ steps ih =>
      rw [BulkResults.rowEnd]
      by_cases ended : (results.var (n + i, j)).type = snmpEndofmibview
      · rw [if_neg (not_not_intro ended), row i (by omega), Option.bind_some]
        apply (ih (i + 1) (by omega)).imp
        · rintro ⟨eq, all⟩
          refine ⟨eq, ?_⟩
          intro i' lower upper
          by_cases here : i' = i
          · exact here ▸ ended
          · exact all i' (by omega) upper
        · rintro ⟨eq, notAll⟩
          refine ⟨eq, ?_⟩
          intro all
          exact notAll fun i' lower upper => all i' (by omega) upper
      · right
        rw [if_pos ended]
        refine ⟨rfl, ?_⟩
        intro all
        exact ended (all i (le_refl i) (by omega))

theorem cut_spec (positive : 0 < r)
    (cached : ∀ j < repeats, results.cached j = (n, j))
    (row : ∀ i, i + 1 < r → ∀ j < repeats, results.next (n + i, j) = some (n + (i + 1), j))
    (first count : Nat) (length : first + count = repeats) :
    (∃ j, first ≤ j ∧ j < repeats ∧ EndsRow results.var n r j ∧
        (∀ j', first ≤ j' → j' < j → ¬ EndsRow results.var n r j') ∧
        results.cut r (List.range' first count) =
          { results with next := Function.update results.next (n + (r - 1), j) none }) ∨
      ((∀ j, first ≤ j → j < repeats → ¬ EndsRow results.var n r j) ∧
        results.cut r (List.range' first count) = results) := by
  induction count generalizing first with
  | zero =>
      right
      constructor
      · intro j lower upper
        omega
      · rfl
  | succ count ih =>
      have here_eq := cached first (by omega)
      have walk := rowEnd_eq (fun i more => row i more first (by omega)) (r - 1) 0 (by omega)
      rw [Nat.add_zero] at walk
      by_cases here : EndsRow results.var n r first
      · left
        refine ⟨first, le_refl first, by omega, here, ?_, ?_⟩
        · intro j' lower upper
          omega
        · rw [List.range'_succ, BulkResults.cut, here_eq, if_pos here.1]
          rcases walk with ⟨eq, -⟩ | ⟨-, notAll⟩
          · rw [eq]
          · exact absurd (fun i' _ more => here.2 i' more) notAll
      · have skips : results.cut r (List.range' first (count + 1)) =
            results.cut r (List.range' (first + 1) count) := by
          rw [List.range'_succ, BulkResults.cut, here_eq]
          split_ifs with ended
          · rcases walk with ⟨-, all⟩ | ⟨eq, -⟩
            · exact absurd ⟨ended, fun i more => all i (Nat.zero_le i) more⟩ here
            · rw [eq]
          · rfl
        rw [skips]
        apply (ih (first + 1) (by omega)).imp
        · rintro ⟨j, lower, upper, ends, earlier, eq⟩
          refine ⟨j, by omega, upper, ends, ?_, eq⟩
          intro j' lower' upper'
          by_cases same : j' = first
          · exact same ▸ here
          · exact earlier j' (by omega) upper'
        · rintro ⟨none, eq⟩
          refine ⟨?_, eq⟩
          intro j lower upper
          by_cases same : j = first
          · exact same ▸ here
          · exact none j (by omega) upper

end Cut

section Response

variable {config : GetbulkConfig} {request : GetbulkRequest} {var : BulkNode → VariableList}
  {n r repeats i j : Nat}

theorem isEnd_iff {entry : VariableList} :
    isEnd entry = true ↔ entry.name = [] ∨ entry.type = snmpEndofmibview := by
  simp [isEnd]

theorem fixedFrom_type {prevName : Option Oid} {entry : VariableList} :
    (fixedFrom prevName entry).type = snmpEndofmibview ↔
      entry.type = snmpEndofmibview ∨ (entry.name = [] ∧ prevName.isSome = true) := by
  simp only [fixedFrom]
  split_ifs with ended
  · cases prevName with
    | none => simp
    | some name => simpa using (isEnd_iff.mp ended).symm
  · have notEnded := mt isEnd_iff.mpr ended
    rw [not_or] at notEnded
    simp [notEnded.1, notEnded.2]

theorem fixedFrom_name {prevName : Option Oid} {entry : VariableList}
    (ended : (fixedFrom prevName entry).type = snmpEndofmibview) :
    (fixedFrom prevName entry).name = prevName.getD entry.name := by
  have isEnded : isEnd entry = true := by
    rcases fixedFrom_type.mp ended with type | ⟨name, -⟩
    · exact isEnd_iff.mpr (Or.inr type)
    · exact isEnd_iff.mpr (Or.inl name)
  simp only [fixedFrom, if_pos isEnded]
  cases prevName <;> rfl

theorem copyVarlist_nameAt (request : GetbulkRequest) (i : Nat) :
    (copyVarlist request.variableList 10000)[i]?.map (·.name) =
      if i < 10000 then request.nameAt i else none := by
  rw [copyVarlist_eq_map, List.getElem?_map, List.getElem?_take]
  split_ifs
  · rw [GetbulkRequest.nameAt, Option.map_map]
    congr 1
    funext var
    exact snmpCloneVar_name var
  · rfl

theorem nameAt_isSome (inside : i < request.repeaters) : ∃ name, request.nameAt i = some name := by
  have short : i < request.variableList.length := by
    rw [request.length_eq]
    omega
  exact ⟨_, by rw [GetbulkRequest.nameAt, List.getElem?_eq_getElem short]; rfl⟩

theorem fixedAt_type (inside : i < request.repeaters) :
    (fixedAt (copyVarlist request.variableList 10000) var n i j).type = snmpEndofmibview ↔
      EndsAt var n i j := by
  cases j with
  | zero =>
      rcases nameAt_isSome inside with ⟨name, eq⟩
      rw [fixedAt, fixedFrom_type, copyVarlist_nameAt, EndsAt, eq]
      by_cases copied : i < 10000
      · simp [copied]
      · simp [copied]
  | succ j =>
      rw [fixedAt, fixedFrom_type, EndsAt]
      simp

theorem fixedAt_firstName (inside : i < request.repeaters)
    (ended : (fixedAt (copyVarlist request.variableList 10000) var n i 0).type =
      snmpEndofmibview) :
    some (fixedAt (copyVarlist request.variableList 10000) var n i 0).name =
      if i < 10000 then request.nameAt i else some (var (n + i, 0)).name := by
  rcases nameAt_isSome inside with ⟨name, eq⟩
  rw [fixedAt] at ended ⊢
  rw [fixedFrom_name ended, copyVarlist_nameAt, eq]
  split_ifs <;> rfl

theorem fixedAt_nextName {orig : List VariableList}
    (ended : (fixedAt orig var n i (j + 1)).type = snmpEndofmibview) :
    (fixedAt orig var n i (j + 1)).name = (fixedAt orig var n i j).name := by
  rw [fixedAt] at ended ⊢
  rw [fixedFrom_name ended]
  rfl

theorem fixedAt_of_not_isEnd {orig : List VariableList} (open' : isEnd (var (n + i, j)) = false) :
    fixedAt orig var n i j = var (n + i, j) := by
  cases j <;> simp [fixedAt, fixedFrom, open']

theorem getbulk_plain (plain : request.repeaters = 0 ∨ request.repeats config = 0) :
    getbulk config request var = { createBulkList config request with var := var } := by
  have vbcount : (createBulkList config request).vbcount = request.nonRepeaters :=
    (createBulkList_plain plain).1
  have few : request.nonRepeaters ≤ request.errstat.toNat := Nat.min_le_left _ _
  simp only [getbulk, reorderGetbulk, vbcount]
  split_ifs <;> first | rfl | omega

def bulkRowsOf (config : GetbulkConfig) (request : GetbulkRequest) (var : BulkNode → VariableList) :
    BulkResults :=
  let list := createBulkList config request
  { list with
    var := (List.range request.repeaters).foldl
      (list.fixColumn (copyVarlist request.variableList 10000) (request.repeats config)) var
    next := list.linkLast request.repeaters (request.repeats config)
      ((List.range (request.repeaters - 1)).foldl (list.linkColumn (request.repeats config))
        list.next) }

theorem getbulk_rows (repeating : 0 < request.repeaters) (repeated : 0 < request.repeats config) :
    getbulk config request var = (bulkRowsOf config request var).cut request.repeaters
      (List.range (request.repeats config)) := by
  have laid := createBulkList_laidOut repeating repeated
  have length := request.length_eq
  have few : request.nonRepeaters = request.errstat.toNat := by
    have : request.nonRepeaters = min request.errstat.toNat request.variableList.length := rfl
    omega
  have vbcount := laid.vbcount
  have less : max request.errstat 0 < ((createBulkList config request).vbcount : Int) := by omega
  have more : (createBulkList config request).vbcount ≠ 0 := by omega
  have n_eq : (max request.errstat 0).toNat = request.nonRepeaters := by omega
  have r_eq : (createBulkList config request).vbcount - request.nonRepeaters =
    request.repeaters := by omega
  simp only [getbulk, reorderGetbulk, if_neg more, if_pos less, n_eq, r_eq, if_neg repeating.ne']
  rfl

structure EndsAfter (config : GetbulkConfig) (request : GetbulkRequest)
    (var : BulkNode → VariableList) (rows : Nat) : Prop where
  some : 0 < rows
  few : rows ≤ request.repeats config
  linked : LinkedTo (getbulk config request var).next (getbulk config request var).head
    (bulkNodes request.nonRepeaters request.repeaters rows) none
  contents : (getbulk config request var).var = (bulkRowsOf config request var).var
  cut : rows < request.repeats config → EndsRow (getbulk config request var).var
    request.nonRepeaters request.repeaters (rows - 1)
  first : ∀ j < request.repeats config, EndsRow (getbulk config request var).var
    request.nonRepeaters request.repeaters j → rows ≤ j + 1

theorem exists_endsAfter (repeating : 0 < request.repeaters)
    (repeated : 0 < request.repeats config) : ∃ rows, EndsAfter config request var rows := by
  have laid := createBulkList_laidOut repeating repeated
  have links : LinksRows (createBulkList config request).next (bulkRowsOf config request var).next
      request.nonRepeaters request.repeaters (request.repeats config) :=
    linkRows repeating laid.cached
  have first : ∀ j < request.repeats config,
      (bulkRowsOf config request var).cached j = (request.nonRepeaters, j) := by
    intro j inside
    have here := laid.cached 0 repeating j inside
    rwa [Nat.zero_mul, Nat.zero_add] at here
  have head : (bulkRowsOf config request var).head = some (0, 0) := laid.head
  have front : ∀ k < request.nonRepeaters,
      (bulkRowsOf config request var).next (k, 0) = some (k + 1, 0) := by
    intro k inside
    rw [links.front k inside, laid.front k inside]
  have result : getbulk config request var = _ := getbulk_rows repeating repeated
  rw [List.range_eq_range'] at result
  rcases cut_spec repeating first links.row 0 (request.repeats config) (Nat.zero_add _) with
    ⟨j, -, inside, ends, earlier, eq⟩ | ⟨none, eq⟩
  · rw [eq] at result
    refine ⟨j + 1, ?_⟩
    constructor
    · exact Nat.succ_pos j
    · exact inside
    · have next_eq : (getbulk config request var).next = _ :=
        congrArg (fun after => after.next) result
      have head_eq : (getbulk config request var).head = some (0, 0) :=
        (congrArg (fun after => after.head) result).trans head
      rw [next_eq, head_eq]
      have last : ∀ k i, (k ≠ request.nonRepeaters + (request.repeaters - 1) ∨ i ≠ j) →
          Function.update (bulkRowsOf config request var).next
            (request.nonRepeaters + (request.repeaters - 1), j) none (k, i) =
          (bulkRowsOf config request var).next (k, i) := by
        intro k i other
        apply Function.update_of_ne
        intro same
        have := congrArg Prod.fst same
        have := congrArg Prod.snd same
        simp only at *
        omega
      apply linkedTo_bulkNodes repeating (Nat.succ_pos j)
      · intro k before
        exact (last k 0 (Or.inl (by omega))).trans (front k before)
      · intro i more j' inside'
        exact (last _ _ (Or.inl (by omega))).trans (links.row i more j' (by omega))
      · intro j' more
        exact (last _ _ (Or.inr (by omega))).trans (links.rowEnd j' (by omega))
      · exact Function.update_self _ _ _
    · rw [result]
    · intro _
      rw [result]
      exact ends
    · intro j' _ ends'
      rw [result] at ends'
      by_contra less
      exact earlier j' (Nat.zero_le _) (by omega) ends'
  · rw [eq] at result
    refine ⟨request.repeats config, ?_⟩
    constructor
    · exact repeated
    · exact le_refl _
    · rw [result, head]
      apply linkedTo_bulkNodes repeating repeated front links.row links.rowEnd
      rw [links.stop, ← Nat.add_sub_assoc repeating]
      exact laid.stop
    · rw [result]
    · intro less
      exact absurd less (lt_irrefl _)
    · intro j inside ends
      rw [result] at ends
      exact absurd ends (none j (Nat.zero_le _) inside)

theorem length_bulkNodes (n r rows : Nat) : (bulkNodes n r rows).length = n + rows * r := by
  simp [bulkNodes, List.length_flatMap]

theorem getbulk_var (repeating : 0 < request.repeaters) (repeated : 0 < request.repeats config)
    {rows : Nat} (ends : EndsAfter config request var rows) :
    FixedUpTo (copyVarlist request.variableList 10000) var request.nonRepeaters
      (request.repeats config) request.repeaters 0 (getbulk config request var).var := by
  rw [ends.contents]
  exact fixColumns (createBulkList_laidOut repeating repeated).cached var

section Rows

variable {rows : Nat} (repeating : 0 < request.repeaters)
  (repeated : 0 < request.repeats config) (ends : EndsAfter config request var rows)

include repeating repeated ends

theorem getbulk_type (inside : i < request.repeaters) (inside' : j < request.repeats config) :
    ((getbulk config request var).var (request.nonRepeaters + i, j)).type = snmpEndofmibview ↔
      EndsAt var request.nonRepeaters i j := by
  rw [(getbulk_var repeating repeated ends).done i inside j inside']
  exact fixedAt_type inside

theorem endsRow_iff (inside : j < request.repeats config) :
    EndsRow (getbulk config request var).var request.nonRepeaters request.repeaters j ↔
      TakenForEnd var request.nonRepeaters request.repeaters j := by
  have first := getbulk_type repeating repeated ends repeating inside
  rw [Nat.add_zero] at first
  rw [EndsRow, TakenForEnd, first]
  apply and_congr_right
  intro _
  apply forall_congr'
  intro i
  apply imp_congr_right
  intro more
  exact getbulk_type repeating repeated ends (by omega) inside

theorem OrderlyBulk.inRows (orderly : OrderlyBulk request request.nonRepeaters request.repeaters
      (request.repeats config) var) :
    InRows request request.nonRepeaters request.repeaters (request.repeats config) rows
      (getbulk config request var) := by
  have contents := getbulk_var repeating repeated ends
  have few := ends.few
  constructor
  · exact ends.linked
  · exact few
  · intro _ i inside type
    have ended := (getbulk_type repeating repeated ends inside repeated).mp type
    rw [contents.done i inside 0 repeated] at type ⊢
    rw [fixedAt_firstName inside type]
    exact (orderly.names repeated i inside ended).symm
  · intro i inside j more type
    rw [contents.done i inside (j + 1) (by omega)] at type ⊢
    rw [contents.done i inside j (by omega)]
    exact fixedAt_nextName type
  · intro less
    have some := ends.some
    refine ⟨some, ?_⟩
    have endsRow := ends.cut less
    have taken := (endsRow_iff repeating repeated ends (by omega)).mp endsRow
    have earlier : ∀ j' < rows - 1,
        ¬ TakenForEnd var request.nonRepeaters request.repeaters j' := by
      intro j' before taken'
      have := ends.first j' (by omega)
        ((endsRow_iff repeating repeated ends (by omega)).mpr taken')
      omega
    intro i inside
    by_cases last : i + 1 < request.repeaters
    · exact endsRow.2 i last
    · rw [show i = request.repeaters - 1 by omega]
      apply (getbulk_type repeating repeated ends (by omega) (by omega)).mpr
      exact orderly.last (rows - 1) (by omega) repeating taken earlier

theorem InRows.orderly {rows' : Nat}
    (inRows : InRows request request.nonRepeaters request.repeaters (request.repeats config) rows'
      (getbulk config request var)) :
    OrderlyBulk request request.nonRepeaters request.repeaters (request.repeats config) var := by
  -- the list is the one that is cut behind `rows` rows
  have same : rows' = rows := by
    have nodes := congrArg List.length (inRows.linked.unique ends.linked)
    rw [length_bulkNodes, length_bulkNodes] at nodes
    exact Nat.eq_of_mul_eq_mul_right repeating (Nat.add_left_cancel nodes)
  subst same
  have contents := getbulk_var repeating repeated ends
  constructor
  · intro _ i inside ended
    have type := (getbulk_type repeating repeated ends inside repeated).mpr ended
    have name := inRows.firstNames ends.some i inside type
    rw [contents.done i inside 0 repeated] at type name
    rw [name, fixedAt_firstName inside type]
  · intro j more _ taken earlier
    have endsRow := (endsRow_iff repeating repeated ends (by omega)).mpr taken
    have upper := ends.first j (by omega) endsRow
    have less : rows' < request.repeats config := by omega
    have some := ends.some
    have lower : j ≤ rows' - 1 := by
      by_contra before
      exact earlier (rows' - 1) (by omega)
        ((endsRow_iff repeating repeated ends (by omega)).mp (ends.cut less))
    have type := (inRows.cut less).2 (request.repeaters - 1) (by omega)
    rw [show rows' - 1 = j by omega] at type
    exact (getbulk_type repeating repeated ends (by omega) (by omega)).mp type

end Rows

/-- The response is in rows if and only if the columns that end at once have the name of the
variable of the request at their number, and the first row that is taken for a full one, unless it
is the last one, is full. -/
theorem getbulk_reordersBulk_iff (config : GetbulkConfig) (request : GetbulkRequest)
    (var : BulkNode → VariableList) :
    ReordersBulk request request.nonRepeaters request.repeaters (request.repeats config) var
        (getbulk config request var) ↔
      OrderlyBulk request request.nonRepeaters request.repeaters (request.repeats config) var := by
  by_cases plain : request.repeaters = 0 ∨ request.repeats config = 0
  · -- nothing is repeated
    have result : getbulk config request var = _ := getbulk_plain plain
    have linked := (createBulkList_plain plain).2
    have nodes : bulkNodes request.nonRepeaters request.repeaters 0 =
        (List.range request.nonRepeaters).map fun k => (k, 0) := by
      simp [bulkNodes]
    apply iff_of_true
    · rw [result]
      constructor
      · rcases plain with none | none
        · refine ⟨request.repeats config, ?_⟩
          constructor
          · have noEntries : (List.range (request.repeats config)).flatMap
                (fun _ => ([] : List BulkNode)) = [] :=
              List.flatMap_eq_nil_iff.mpr fun _ _ => rfl
            rw [none, bulkNodes]
            simpa [noEntries] using linked
          · exact le_refl _
          · intro _ i inside
            omega
          · intro i inside
            omega
          · intro less
            exact absurd less (lt_irrefl _)
        · refine ⟨0, ?_⟩
          constructor
          · rw [nodes]
            exact linked
          · exact Nat.zero_le _
          · intro some
            exact absurd some (lt_irrefl _)
          · intro i _ j less
            omega
          · intro less
            omega
      · intro k _
        rfl
      · intro i _ j _ _
        rfl
    · constructor
      · intro some i inside
        omega
      · intro j more some
        omega
  · have repeating : 0 < request.repeaters := by omega
    have repeated : 0 < request.repeats config := by omega
    have exists_rows : ∃ rows, EndsAfter config request var rows :=
      exists_endsAfter repeating repeated
    rcases exists_rows with ⟨rows, ends⟩
    have contents := getbulk_var repeating repeated ends
    constructor
    · intro reorders
      rcases reorders.inRows with ⟨rows', inRows⟩
      exact inRows.orderly repeating repeated ends
    · intro orderly
      constructor
      · exact ⟨rows, orderly.inRows repeating repeated ends⟩
      · intro k before
        exact contents.left k 0 (Or.inl before)
      · intro i inside j inside' open'
        rw [contents.done i inside j inside', fixedAt_of_not_isEnd open']

def lastVariableRequest : GetbulkRequest :=
  { variableList := [⟨[1, 3, 1], asnNull, .unset 0⟩, ⟨[1, 3, 2], asnNull, .unset 0⟩]
    errstat := 1
    errindex := 1 }

theorem not_getbulk_reordersBulk : ¬ ∀ (config : GetbulkConfig) (request : GetbulkRequest)
    (var : BulkNode → VariableList),
    ReordersBulk request request.nonRepeaters request.repeaters (request.repeats config) var
      (getbulk config request var) := by
  intro alwaysReorders
  have reorders := alwaysReorders {} lastVariableRequest
    fun _ => ⟨[1, 3, 2], snmpEndofmibview, .string []⟩
  rcases reorders.inRows with ⟨rows, inRows⟩
  have repeating : 0 < lastVariableRequest.repeaters := by decide
  have repeated : 0 < lastVariableRequest.repeats {} := by decide
  rcases exists_endsAfter repeating repeated with ⟨rows', ends⟩
  have orderly := inRows.orderly repeating repeated ends
  have name := orderly.names repeated 0 repeating (Or.inl rfl)
  exact absurd name (by decide)

end Response

end NetSnmp
