import Mathlib.Order.Bounds.Basic
import NetSnmp.Table.Columns

/-!
# The valid columns one after the other

What repeated calls of `netsnmp_table_next_column` return, for any list of valid columns, those that
name column zero included.
-/

namespace NetSnmp

namespace ColumnSearch

def nextColumns (maxColumn : Nat) (validColumns : List ColumnInfo) : Nat → Nat → List Nat
  | 0, _ => []
  | calls + 1, colnum =>
      netsnmpTableNextColumn maxColumn validColumns colnum ::
        nextColumns maxColumn validColumns calls
          (netsnmpTableNextColumn maxColumn validColumns colnum)

def IsValid (maxColumn : Nat) (validColumns : List ColumnInfo) (column : Nat) : Prop :=
  if validColumns = [] then 1 ≤ column ∧ column ≤ maxColumn
  else IsContained validColumns column

/-- The search finds the least column that is contained, and the calls from column zero on
return each valid column once, in increasing order, and zero behind the last one. -/
structure EnumeratesColumns (maxColumn : Nat) (validColumns : List ColumnInfo) : Prop where
  least : ∀ current, current < 2 ^ 32 → netsnmpClosestColumn current validColumns ≠ 0 →
    IsLeast {column | IsContained validColumns column ∧ current ≤ column}
      (netsnmpClosestColumn current validColumns)
  none : ∀ current, current < 2 ^ 32 → (netsnmpClosestColumn current validColumns = 0 ↔
    ∀ column, IsContained validColumns column → column < current)
  enumerates : ∃ columns : List Nat, columns.Pairwise (· < ·) ∧
    (∀ column, column ∈ columns ↔ IsValid maxColumn validColumns column) ∧
    nextColumns maxColumn validColumns (columns.length + 1) 0 = columns ++ [0]

variable {maxColumn current colnum column : Nat} {validColumns : List ColumnInfo}

theorem closestColumn_isLeast (noZero : ¬ IsContained validColumns 0)
    (found : netsnmpClosestColumn current validColumns ≠ 0) :
    IsLeast {column | IsContained validColumns column ∧ current ≤ column}
      (netsnmpClosestColumn current validColumns) := by
  have isClosest := netsnmpClosestColumn_isClosest noZero current
  constructor
  · exact isClosest.found found
  · intro column member
    exact (isClosest.least column member.1 member.2).2

theorem closestColumn_eq_zero_iff (noZero : ¬ IsContained validColumns 0) :
    netsnmpClosestColumn current validColumns = 0 ↔
      ∀ column, IsContained validColumns column → column < current := by
  have isClosest := netsnmpClosestColumn_isClosest noZero current
  constructor
  · intro zero column contained
    by_contra behind
    exact (isClosest.least column contained (Nat.le_of_not_lt behind)).1 zero
  · intro before
    by_contra found
    have member := isClosest.found found
    exact absurd (before _ member.1) (Nat.not_lt_of_le member.2)

/-- What a call does: it goes on to the least valid column behind the last one. -/
structure GoesOn (maxColumn : Nat) (validColumns : List ColumnInfo) (colnum : Nat) : Prop where
  least : netsnmpTableNextColumn maxColumn validColumns colnum ≠ 0 →
    IsLeast {column | IsValid maxColumn validColumns column ∧ colnum < column}
      (netsnmpTableNextColumn maxColumn validColumns colnum)
  none : netsnmpTableNextColumn maxColumn validColumns colnum = 0 →
    ∀ column, IsValid maxColumn validColumns column → column ≤ colnum

theorem goesOn_max : GoesOn maxColumn [] colnum := by
  by_cases inside : colnum < maxColumn
  · have next : netsnmpTableNextColumn maxColumn [] colnum = colnum + 1 := by
      simp [netsnmpTableNextColumn, inside]
    constructor
    · intro _
      rw [next]
      refine ⟨⟨?_, Nat.lt_succ_self colnum⟩, fun column member => member.2⟩
      rw [IsValid, if_pos rfl]
      exact ⟨Nat.succ_pos colnum, inside⟩
    · intro zero
      rw [next] at zero
      exact absurd zero (Nat.succ_ne_zero colnum)
  · have next : netsnmpTableNextColumn maxColumn [] colnum = 0 := by
      simp [netsnmpTableNextColumn, inside]
    constructor
    · exact fun found => absurd next found
    · intro _ column valid
      rw [IsValid, if_pos rfl] at valid
      exact le_trans valid.2 (Nat.le_of_not_lt inside)

theorem goesOn_specs (given : validColumns ≠ []) (noZero : ¬ IsContained validColumns 0)
    (counts : colnum < 2 ^ 32 - 1) : GoesOn maxColumn validColumns colnum := by
  have next : netsnmpTableNextColumn maxColumn validColumns colnum =
      netsnmpClosestColumn (colnum + 1) validColumns := by
    rw [netsnmpTableNextColumn, if_pos given, Nat.mod_eq_of_lt (by omega)]
  have valid : IsValid maxColumn validColumns = IsContained validColumns := by
    funext column
    rw [IsValid, if_neg given]
  constructor
  · intro found
    rw [next] at found ⊢
    rw [valid]
    exact closestColumn_isLeast noZero found
  · intro zero column isValid
    rw [next] at zero
    rw [valid] at isValid
    exact Nat.le_of_lt_succ ((closestColumn_eq_zero_iff noZero).mp zero column isValid)

theorem nextColumns_eq {bound : Nat} (bounded : ∀ column, IsValid maxColumn validColumns column →
      column ≤ bound)
    (goesOn : ∀ colnum ≤ bound, GoesOn maxColumn validColumns colnum) (inside : colnum ≤ bound) :
    ∃ columns : List Nat, columns.Pairwise (· < ·) ∧
      (∀ column, column ∈ columns ↔ IsValid maxColumn validColumns column ∧ colnum < column) ∧
      nextColumns maxColumn validColumns (columns.length + 1) colnum = columns ++ [0] := by
  generalize behind : bound - colnum = distance
  induction distance using Nat.strong_induction_on generalizing colnum with
  | h distance ih =>
      have call := goesOn colnum inside
      by_cases zero : netsnmpTableNextColumn maxColumn validColumns colnum = 0
      · refine ⟨[], .nil, ?_, ?_⟩
        · intro column
          constructor
          · exact fun mem => absurd mem List.not_mem_nil
          · rintro ⟨valid, later⟩
            exact absurd later (Nat.not_lt_of_le (call.none zero column valid))
        · simp [nextColumns, zero]
      · rcases call.least zero with ⟨⟨valid, later⟩, lower⟩
        have nearer : bound - netsnmpTableNextColumn maxColumn validColumns colnum < distance := by
          have last := bounded _ valid
          omega
        rcases ih _ nearer (bounded _ valid) rfl with ⟨columns, increasing, complete, calls⟩
        refine ⟨netsnmpTableNextColumn maxColumn validColumns colnum :: columns, ?_, ?_, ?_⟩
        · apply List.pairwise_cons.mpr
          exact ⟨fun column mem => ((complete column).mp mem).2, increasing⟩
        · intro column
          rw [List.mem_cons, complete]
          constructor
          · rintro (rfl | ⟨isValid, behindNext⟩)
            · exact ⟨valid, later⟩
            · exact ⟨isValid, lt_trans later behindNext⟩
          · rintro ⟨isValid, behindColumn⟩
            rcases Nat.eq_or_lt_of_le (lower ⟨isValid, behindColumn⟩) with same | behindNext
            · exact .inl same.symm
            · exact .inr ⟨isValid, behindNext⟩
        · rw [nextColumns, List.length_cons, calls]
          rfl

theorem enumeratesColumns_max (maxColumn : Nat) : EnumeratesColumns maxColumn [] := by
  constructor
  · exact fun current _ found => absurd rfl found
  · intro current _
    exact ⟨fun _ column contained => by simp [IsContained] at contained, fun _ => rfl⟩
  · have bounded : ∀ column, IsValid maxColumn [] column → column ≤ maxColumn := by
      intro column valid
      rw [IsValid, if_pos rfl] at valid
      exact valid.2
    rcases nextColumns_eq bounded (fun _ _ => goesOn_max) (Nat.zero_le _) with
      ⟨columns, increasing, complete, calls⟩
    refine ⟨columns, increasing, ?_, calls⟩
    intro column
    rw [complete, IsValid, if_pos rfl]
    exact ⟨fun member => member.1, fun valid => ⟨valid, valid.1⟩⟩

theorem enumeratesColumns_specs (given : validColumns ≠ []) (noZero : ¬ IsContained validColumns 0)
    (noLast : ¬ IsContained validColumns (2 ^ 32 - 1)) :
    EnumeratesColumns maxColumn validColumns := by
  constructor
  · exact fun current _ found => closestColumn_isLeast noZero found
  · exact fun current _ => closestColumn_eq_zero_iff noZero
  · have valid_iff : ∀ column, IsValid maxColumn validColumns column ↔
        IsContained validColumns column := by
      intro column
      rw [IsValid, if_neg given]
    have bounded : ∀ column, IsValid maxColumn validColumns column → column ≤ 2 ^ 32 - 2 := by
      intro column valid
      have contained := (valid_iff column).mp valid
      have small := contained.small
      have notLast : column ≠ 2 ^ 32 - 1 := by
        rintro rfl
        exact noLast contained
      omega
    have goesOn : ∀ colnum ≤ 2 ^ 32 - 2, GoesOn maxColumn validColumns colnum :=
      fun colnum inside => goesOn_specs given noZero (by omega)
    rcases nextColumns_eq bounded goesOn (Nat.zero_le _) with
      ⟨columns, increasing, complete, calls⟩
    refine ⟨columns, increasing, ?_, calls⟩
    intro column
    rw [complete]
    constructor
    · exact fun member => member.1
    · intro valid
      refine ⟨valid, Nat.pos_of_ne_zero ?_⟩
      rintro rfl
      exact noZero ((valid_iff 0).mp valid)

theorem EnumeratesColumns.noZero (enumerates : EnumeratesColumns maxColumn validColumns) :
    ¬ IsContained validColumns 0 := by
  intro contained
  by_cases zero : netsnmpClosestColumn 0 validColumns = 0
  · have before := (enumerates.none 0 (by decide)).mp zero 0 contained
    exact absurd before (Nat.lt_irrefl 0)
  · have lower := (enumerates.least 0 (by decide) zero).2 ⟨contained, Nat.le_refl 0⟩
    exact zero (Nat.le_zero.mp lower)

theorem nextColumns_append {calls : Nat} {front : List Nat} {last next : Nat}
    (returned : nextColumns maxColumn validColumns calls colnum = front ++ [last, next]) :
    next = netsnmpTableNextColumn maxColumn validColumns last := by
  induction front generalizing calls colnum with
  | nil =>
      match calls with
      | 0 => simp [nextColumns] at returned
      | 1 => simp [nextColumns] at returned
      | calls + 2 =>
          simp only [nextColumns, List.nil_append, List.cons.injEq] at returned
          rw [← returned.2.1, returned.1]
  | cons first front ih =>
      match calls with
      | 0 => simp [nextColumns] at returned
      | calls + 1 =>
          rw [nextColumns, List.cons_append, List.cons.injEq] at returned
          exact ih returned.2

theorem EnumeratesColumns.noLast (enumerates : EnumeratesColumns maxColumn validColumns) :
    ¬ IsContained validColumns (2 ^ 32 - 1) := by
  intro contained
  have given : validColumns ≠ [] := by
    rintro rfl
    simp [IsContained] at contained
  rcases enumerates.enumerates with ⟨columns, increasing, complete, calls⟩
  have contained_of_mem : ∀ column ∈ columns, IsContained validColumns column := by
    intro column mem
    have valid := (complete column).mp mem
    rwa [IsValid, if_neg given] at valid
  have mem : 2 ^ 32 - 1 ∈ columns := by
    rw [complete, IsValid, if_neg given]
    exact contained
  rcases List.eq_nil_or_concat columns with rfl | ⟨front, last, rfl⟩
  · exact List.not_mem_nil mem
  · rw [List.concat_eq_append] at *
    have last_eq : last = 2 ^ 32 - 1 := by
      rcases List.mem_append.mp mem with before | atLast
      · have less := (List.pairwise_append.mp increasing).2.2 _ before last List.mem_cons_self
        have small := (contained_of_mem last (by simp)).small
        omega
      · exact (List.mem_singleton.mp atLast).symm
    rw [List.append_assoc] at calls
    have zero := nextColumns_append calls
    rw [netsnmpTableNextColumn, if_pos given, last_eq] at zero
    have before := (enumerates.none 0 (by decide)).mp zero.symm _ contained
    exact absurd before (Nat.not_lt_zero _)

/-- The columns are enumerated exactly if neither zero, which stands for none, nor the greatest
`unsigned int` is contained. -/
theorem enumeratesColumns_iff (maxColumn : Nat) (validColumns : List ColumnInfo) :
    EnumeratesColumns maxColumn validColumns ↔
      ¬ IsContained validColumns 0 ∧ ¬ IsContained validColumns (2 ^ 32 - 1) := by
  constructor
  · exact fun enumerates => ⟨enumerates.noZero, enumerates.noLast⟩
  · rintro ⟨noZero, noLast⟩
    by_cases given : validColumns = []
    · subst given
      exact enumeratesColumns_max maxColumn
    · exact enumeratesColumns_specs given noZero noLast

theorem not_enumeratesColumns_last :
    ¬ EnumeratesColumns 0 [.range 1 (2 ^ 32 - 1) (by decide) (by decide)] := by
  intro enumerates
  apply enumerates.noLast
  exact ⟨_, List.mem_cons_self, by decide, le_rfl⟩

end ColumnSearch

end NetSnmp
