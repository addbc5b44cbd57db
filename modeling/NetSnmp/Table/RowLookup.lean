import NetSnmp.KeyedRows
import NetSnmp.Table.Iterator

/-!
# Looking up rows of an iterator

`netsnmp_iterator_row_get_byoid` and `netsnmp_iterator_row_next_byoid`. The test of both loops
whether a row is behind the instance is the one whether it is in front of it.
-/

namespace NetSnmp

variable {Ctx : Type}

/-- The index OID of a row, behind the two sub-identifiers of `dummy`. -/
def thisInst (order : ByteOrder) (row : IteratorRow Ctx) : Oid :=
  builtOid order maxOidLen [0, 0] row.indexes

/-- The loop of `netsnmp_iterator_row_get_byoid`. -/
def rowGetLoop (order : ByteOrder) (sorted : Bool) (inst : Oid) :
    List (IteratorRow Ctx) → Option Ctx
  | [] => none
  | row :: rows =>
      let n := snmpOidCompare inst ((thisInst order row).drop 2)
      if n = 0 then some row.context
      else if 0 < n ∧ sorted then none
      else rowGetLoop order sorted inst rows

def netsnmpIteratorRowGetByoid (order : ByteOrder) (sorted : Bool) (rows : List (IteratorRow Ctx))
    (inst : Oid) : Option Ctx :=
  if inst = [] then none else rowGetLoop order sorted inst rows

/-- The loop of `netsnmp_iterator_row_next_byoid`. -/
def rowNextLoop (order : ByteOrder) (sorted : Bool) (inst : Oid) :
    (bestInst : Option Oid) → List (IteratorRow Ctx) → Option Ctx
  | _, [] => none
  | bestInst, row :: rows =>
      let n := snmpOidCompare inst ((thisInst order row).drop 2)
      let better : Bool :=
        match bestInst with
        | none => true
        | some bestInst => decide (snmpOidCompare bestInst (thisInst order row) < 0)
      if 0 < n ∧ better then
        if sorted then some row.context
        else rowNextLoop order sorted inst (some (thisInst order row)) rows
      else rowNextLoop order sorted inst bestInst rows

def netsnmpIteratorRowNextByoid (order : ByteOrder) (sorted : Bool)
    (rows : List (IteratorRow Ctx)) (inst : Oid) : Option Ctx :=
  if inst = [] then rows.head?.map IteratorRow.context
  else rowNextLoop order sorted inst none rows

variable {order : ByteOrder} {sorted : Bool} {inst : Oid} {row : IteratorRow Ctx}
  {rows : List (IteratorRow Ctx)}

def IteratorRow.HasIndex (order : ByteOrder) (row : IteratorRow Ctx) : Prop :=
  (buildOidNoalloc order maxOidLen [0, 0] row.indexes).isSome

theorem IteratorRow.HasIndex.thisInst_eq (hasIndex : row.HasIndex order) :
    (thisInst order row).drop 2 = row.index order := by
  rcases Option.isSome_iff_exists.mp hasIndex with ⟨oid, built⟩
  rw [buildOidNoalloc, if_neg (by decide)] at built
  rw [thisInst, builtOid_eq built, appendSegments_eq built]
  rfl

theorem rowGetLoop_unsorted (hasIndex : ∀ row ∈ rows, row.HasIndex order) :
    rowGetLoop order false inst rows =
      (rows.find? (IteratorRow.index order · = inst)).map IteratorRow.context := by
  induction rows with
  | nil => rfl
  | cons row rows ih =>
      have ih' := ih fun other mem => hasIndex other (List.mem_cons_of_mem _ mem)
      rw [rowGetLoop, (hasIndex row List.mem_cons_self).thisInst_eq, List.find?_cons]
      by_cases here : row.index order = inst
      · have zero : snmpOidCompare inst (row.index order) = 0 :=
          snmpOidCompare_eq_zero_iff.mpr here.symm
        rw [if_pos zero]
        simp [here]
      · have nonzero : snmpOidCompare inst (row.index order) ≠ 0 := by
          intro zero
          exact here (snmpOidCompare_eq_zero_iff.mp zero).symm
        simpa [here, nonzero] using ih'

theorem rowGetLoop_behind (hasIndex : ∀ row ∈ rows, row.HasIndex order)
    (behind : ∀ row ∈ rows, inst < row.index order) : rowGetLoop order sorted inst rows = none := by
  induction rows with
  | nil => rfl
  | cons row rows ih =>
      have negative : snmpOidCompare inst (row.index order) < 0 :=
        snmpOidCompare_neg_iff.mpr (behind row List.mem_cons_self)
      rw [rowGetLoop, (hasIndex row List.mem_cons_self).thisInst_eq]
      rw [if_neg negative.ne, if_neg fun both => lt_asymm negative both.1]
      apply ih
      · intro other mem
        exact hasIndex other (List.mem_cons_of_mem _ mem)
      · intro other mem
        exact behind other (List.mem_cons_of_mem _ mem)

theorem rowGetLoop_sorted (hasIndex : ∀ other ∈ row :: rows, other.HasIndex order)
    (increasing : Increasing (IteratorRow.index order) (row :: rows)) :
    rowGetLoop order true inst (row :: rows) =
      if row.index order = inst then some row.context else none := by
  rcases List.pairwise_cons.mp increasing with ⟨first_lt, -⟩
  rw [rowGetLoop, (hasIndex row List.mem_cons_self).thisInst_eq]
  rcases lt_trichotomy (row.index order) inst with less | same | greater
  · have positive : 0 < snmpOidCompare inst (row.index order) := lexCompare_pos_iff.mpr less
    rw [if_neg positive.ne', if_pos ⟨positive, rfl⟩, if_neg less.ne]
  · rw [if_pos (snmpOidCompare_eq_zero_iff.mpr same.symm), if_pos same]
  · have negative := snmpOidCompare_neg_iff.mpr greater
    rw [if_neg negative.ne, if_neg fun both => lt_asymm negative both.1, if_neg greater.ne']
    apply rowGetLoop_behind
    · intro other mem
      exact hasIndex other (List.mem_cons_of_mem _ mem)
    · intro other mem
      exact greater.trans (first_lt other mem)

/-- The context of a row whose index OID is the instance, and none only if there is no such row. -/
def GetsRow (order : ByteOrder) (rows : List (IteratorRow Ctx)) (inst : Oid) (result : Option Ctx) :
    Prop :=
  ∃ answer, IsExactly (IteratorRow.index order) rows inst answer ∧
    result = answer.map IteratorRow.context

theorem not_getsRow_none (mem : row ∈ rows) (same : row.index order = inst) :
    ¬ GetsRow order rows inst none := by
  rintro ⟨answer, isExactly, result_eq⟩
  cases answer with
  | none => exact isExactly row mem same
  | some found => nomatch result_eq

theorem getsRow_unsorted_iff (hasIndex : ∀ row ∈ rows, row.HasIndex order) :
    GetsRow order rows inst (rowGetLoop order false inst rows) := by
  refine ⟨rows.find? (IteratorRow.index order · = inst), ?_, rowGetLoop_unsorted hasIndex⟩
  cases found : rows.find? (IteratorRow.index order · = inst) with
  | none =>
      intro row mem same
      exact List.find?_eq_none.mp found row mem (decide_eq_true same)
  | some row =>
      have same := List.find?_some found
      exact ⟨List.mem_of_find?_eq_some found, of_decide_eq_true same⟩

theorem getsRow_sorted_iff (hasIndex : ∀ row ∈ rows, row.HasIndex order)
    (increasing : Increasing (IteratorRow.index order) rows) :
    GetsRow order rows inst (rowGetLoop order true inst rows) ↔
      ∀ row ∈ rows.tail, row.index order ≠ inst := by
  cases rows with
  | nil => exact iff_of_true ⟨none, nofun, rfl⟩ nofun
  | cons first rows =>
      rcases List.pairwise_cons.mp increasing with ⟨first_lt, -⟩
      rw [rowGetLoop_sorted hasIndex increasing, List.tail_cons]
      by_cases here : first.index order = inst
      · rw [if_pos here]
        apply iff_of_true
        · exact ⟨some first, ⟨List.mem_cons_self, here⟩, rfl⟩
        · intro row mem same
          exact (first_lt row mem).ne (here.trans same.symm)
      · rw [if_neg here]
        constructor
        · intro gets row mem same
          exact not_getsRow_none (List.mem_cons_of_mem _ mem) same gets
        · intro absent
          refine ⟨none, ?_, rfl⟩
          intro row mem
          rcases List.mem_cons.mp mem with rfl | mem
          · exact here
          · exact absent row mem

theorem rowNextLoop_unsorted (bestInst : Option Oid) :
    rowNextLoop order false inst bestInst rows = none := by
  induction rows generalizing bestInst with
  | nil => rfl
  | cons row rows ih =>
      simp only [rowNextLoop, Bool.false_eq_true, if_false]
      generalize (match bestInst with
        | none => true
        | some bestInst => decide (snmpOidCompare bestInst (thisInst order row) < 0)) = better
      split
      · exact ih _
      · exact ih _

theorem rowNextLoop_sorted (hasIndex : ∀ row ∈ rows, row.HasIndex order) :
    rowNextLoop order true inst none rows =
      (rows.find? (IteratorRow.index order · < inst)).map IteratorRow.context := by
  induction rows with
  | nil => rfl
  | cons row rows ih =>
      have ih' := ih fun other mem => hasIndex other (List.mem_cons_of_mem _ mem)
      have front_iff : 0 < snmpOidCompare inst (row.index order) ↔ row.index order < inst :=
        lexCompare_pos_iff
      rw [rowNextLoop, (hasIndex row List.mem_cons_self).thisInst_eq, List.find?_cons]
      by_cases front : row.index order < inst
      · simp [front, front_iff.mpr front]
      · simpa [front, front_iff.not.mpr front] using ih'

/-- The context of the row with the least index OID behind the instance, and none only if there is
no such row. -/
def NextsRow (order : ByteOrder) (rows : List (IteratorRow Ctx)) (inst : Oid)
    (result : Option Ctx) : Prop :=
  ∃ answer, IsNext (IteratorRow.index order) rows inst answer ∧
    result = answer.map IteratorRow.context

theorem nextsRow_none_iff :
    NextsRow order rows inst none ↔ ∀ row ∈ rows, ¬ inst < row.index order := by
  constructor
  · rintro ⟨answer, isNext, result_eq⟩
    cases answer with
    | none => exact isNext
    | some found => nomatch result_eq
  · intro noneBehind
    exact ⟨none, noneBehind, rfl⟩

def FirstInFront (order : ByteOrder) (rows : List (IteratorRow Ctx)) (inst : Oid) : Prop :=
  ∃ first ∈ rows.head?, first.index order < inst

/-- There is a row behind the instance, and the next one has the context of the first row. -/
def SharesContext (order : ByteOrder) (rows : List (IteratorRow Ctx)) (inst : Oid) : Prop :=
  ∃ next, IsNext (IteratorRow.index order) rows inst (some next) ∧
    rows.head?.map IteratorRow.context = some next.context

theorem nextsRow_sorted_iff (hasIndex : ∀ row ∈ rows, row.HasIndex order)
    (increasing : Increasing (IteratorRow.index order) rows) :
    NextsRow order rows inst (rowNextLoop order true inst none rows) ↔
      (FirstInFront order rows inst ∧ SharesContext order rows inst) ∨
        (¬ FirstInFront order rows inst ∧ ∀ row ∈ rows, ¬ inst < row.index order) := by
  rw [rowNextLoop_sorted hasIndex]
  by_cases front : FirstInFront order rows inst
  · rw [or_iff_left fun both => both.1 front, and_iff_right front]
    rcases front with ⟨first, isFirst, less⟩
    rcases rows with _ | ⟨first', rows⟩
    · nomatch isFirst
    · have same : first' = first := Option.some.inj isFirst
      subst same
      have found : (first' :: rows).find? (IteratorRow.index order · < inst) = some first' := by
        simp [less]
      rw [found]
      constructor
      · rintro ⟨answer, isNext, result_eq⟩
        cases answer with
        | none => nomatch result_eq
        | some next => exact ⟨next, isNext, result_eq⟩
      · rintro ⟨next, isNext, result_eq⟩
        exact ⟨some next, isNext, result_eq⟩
  · rw [or_iff_right fun both => front both.1, and_iff_right front]
    have found : rows.find? (IteratorRow.index order · < inst) = none := by
      apply List.find?_eq_none.mpr
      intro row mem
      rw [decide_eq_true_iff]
      intro less
      rcases rows with _ | ⟨first, rows⟩
      · nomatch mem
      · rcases List.pairwise_cons.mp increasing with ⟨first_lt, -⟩
        apply front
        refine ⟨first, rfl, ?_⟩
        rcases List.mem_cons.mp mem with rfl | mem
        · exact less
        · exact (first_lt row mem).trans less
    rw [found]
    exact nextsRow_none_iff

/-- Rows of an iterator, whose index OIDs can be built. -/
structure Enumerates (order : ByteOrder) (sorted : Bool) (rows : List (IteratorRow Ctx)) :
    Prop where
  hasIndex : ∀ row ∈ rows, row.HasIndex order
  distinct : (rows.map (IteratorRow.index order)).Nodup
  increasing : sorted = true → Increasing (IteratorRow.index order) rows

structure LooksUp (order : ByteOrder) (sorted : Bool) (rows : List (IteratorRow Ctx))
    (inst : Oid) : Prop where
  get_iff : GetsRow order rows inst (netsnmpIteratorRowGetByoid order sorted rows inst) ↔
    (sorted = true → ∀ row ∈ rows.tail, row.index order ≠ inst)
  next_iff : NextsRow order rows inst (netsnmpIteratorRowNextByoid order sorted rows inst) ↔
    ((sorted = true ∧ FirstInFront order rows inst) ∧ SharesContext order rows inst) ∨
      (¬ (sorted = true ∧ FirstInFront order rows inst) ∧ ∀ row ∈ rows, ¬ inst < row.index order)

theorem iteratorRow_looksUp (order : ByteOrder) (sorted : Bool) (rows : List (IteratorRow Ctx))
    (inst : Oid) (enumerates : Enumerates order sorted rows) (long : inst ≠ []) :
    LooksUp order sorted rows inst := by
  have get_eq : netsnmpIteratorRowGetByoid order sorted rows inst =
      rowGetLoop order sorted inst rows := if_neg long
  have next_eq : netsnmpIteratorRowNextByoid order sorted rows inst =
      rowNextLoop order sorted inst none rows := if_neg long
  cases sorted with
  | false =>
      refine ⟨?_, ?_⟩
      · rw [get_eq]
        exact iff_of_true (getsRow_unsorted_iff enumerates.hasIndex) nofun
      · rw [next_eq, rowNextLoop_unsorted]
        simpa using nextsRow_none_iff
  | true =>
      refine ⟨?_, ?_⟩
      · rw [get_eq, getsRow_sorted_iff enumerates.hasIndex (enumerates.increasing rfl)]
        simp
      · rw [next_eq, nextsRow_sorted_iff enumerates.hasIndex (enumerates.increasing rfl)]
        simp

def numberedRow (index : Nat) : IteratorRow Nat := ⟨[⟨[], asnInteger, .integer index⟩], index⟩

theorem numberedRows_enumerate (sorted : Bool) :
    Enumerates .littleEndian sorted [numberedRow 1, numberedRow 2] := by
  refine ⟨?_, by decide, fun _ => ?_⟩
  · simp only [List.forall_mem_cons]
    exact ⟨rfl, rfl, nofun⟩
  · refine List.pairwise_pair.mpr ?_
    change [1] < [2]
    decide

theorem iteratorRow_looksUp_numbered :
    (Enumerates .littleEndian false [numberedRow 1, numberedRow 2] ∧ [1] ≠ ([] : Oid)) ∧
      LooksUp .littleEndian false [numberedRow 1, numberedRow 2] [1] :=
  ⟨⟨numberedRows_enumerate false, by decide⟩,
    iteratorRow_looksUp .littleEndian false _ [1] (numberedRows_enumerate false) (by decide)⟩

/-- Behind the first of two rows in any order no row is found. -/
theorem not_iteratorRow_right :
    ¬ ∀ (order : ByteOrder) (sorted : Bool) (rows : List (IteratorRow Nat)) (inst : Oid),
      Enumerates order sorted rows → inst ≠ [] →
        GetsRow order rows inst (netsnmpIteratorRowGetByoid order sorted rows inst) ∧
          NextsRow order rows inst (netsnmpIteratorRowNextByoid order sorted rows inst) := by
  intro right
  have next := (right .littleEndian false [numberedRow 1, numberedRow 2] [1]
    (numberedRows_enumerate false) (by decide)).2
  have result_eq : netsnmpIteratorRowNextByoid .littleEndian false [numberedRow 1, numberedRow 2]
      [1] = none := rowNextLoop_unsorted none
  rw [result_eq, nextsRow_none_iff] at next
  apply next (numberedRow 2) (by simp)
  change [1] < [2]
  decide

end NetSnmp
