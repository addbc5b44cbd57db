import Mathlib.Data.List.Basic
import NetSnmp.Snmp.VarValue

/-!
# Columns of tables

The columns that a table is registered with, and the search for the next one. It finds column zero
for none, so a table has no such column.
-/

namespace NetSnmp

/-- `netsnmp_column_info`: a range, or a list that is sorted. -/
inductive ColumnInfo where
  | range (low high : Nat) (ordered : low ≤ high) (small : high < 2 ^ 32)
  | list (columns : List Nat) (nonempty : columns ≠ []) (sorted : columns.Pairwise (· ≤ ·))
      (small : ∀ column ∈ columns, column < 2 ^ 32)

def ColumnInfo.Names : ColumnInfo → Nat → Prop
  | .range low high _ _, column => low ≤ column ∧ column ≤ high
  | .list columns _ _ _, column => column ∈ columns

def IsContained (validColumns : List ColumnInfo) (column : Nat) : Prop :=
  ∃ info ∈ validColumns, info.Names column

def keepCloser (closest column : Nat) : Nat :=
  if column < closest ∨ closest = 0 then column else closest

/-- The loop of `netsnmp_closest_column`. -/
def closestColumnLoop (current : Nat) : (closest : Nat) → List ColumnInfo → Nat
  | closest, [] => closest
  | closest, .range low high _ _ :: validColumns =>
      if current < low then closestColumnLoop current (keepCloser closest low) validColumns
      else if current ≤ high then current
      else closestColumnLoop current closest validColumns
  | closest, .list columns nonempty _ _ :: validColumns =>
      if current < columns.head nonempty then
        closestColumnLoop current (keepCloser closest (columns.head nonempty)) validColumns
      else if columns.getLast nonempty < current then
        closestColumnLoop current closest validColumns
      else
        match columns.find? fun column => decide (current ≤ column) with
        | none => closestColumnLoop current closest validColumns
        | some column =>
            if current = column then current
            else closestColumnLoop current (keepCloser closest column) validColumns

def netsnmpClosestColumn (current : Nat) (validColumns : List ColumnInfo) : Nat :=
  closestColumnLoop current 0 validColumns

/-- `netsnmp_table_next_column`, in `unsigned int`s. -/
def netsnmpTableNextColumn (maxColumn : Nat) (validColumns : List ColumnInfo) (colnum : Nat) :
    Nat :=
  if validColumns ≠ [] then netsnmpClosestColumn ((colnum + 1) % 2 ^ 32) validColumns
  else if colnum < maxColumn then colnum + 1
  else 0

def IsColumn (minColumn maxColumn : Nat) (validColumns : List ColumnInfo) (column : Nat) : Prop :=
  if validColumns = [] then minColumn ≤ column ∧ column ≤ maxColumn
  else IsContained validColumns column

/-- `netsnmp_table_registration_info`. The numbers of columns are `unsigned int`s. -/
structure TableRegistrationInfo where
  indexes : List VariableList
  minColumn : Nat
  maxColumn : Nat
  validColumns : List ColumnInfo := []
  indexed : indexes ≠ []
  small : maxColumn < 2 ^ 32
  noZero : ¬IsContained validColumns 0
  min_isColumn : IsColumn minColumn maxColumn validColumns minColumn
  max_isColumn : IsColumn minColumn maxColumn validColumns maxColumn
  between : ∀ column, IsColumn minColumn maxColumn validColumns column →
    minColumn ≤ column ∧ column ≤ maxColumn

namespace TableRegistrationInfo

def Column (tblInfo : TableRegistrationInfo) (column : Nat) : Prop :=
  IsColumn tblInfo.minColumn tblInfo.maxColumn tblInfo.validColumns column

def nextColumn (tblInfo : TableRegistrationInfo) (colnum : Nat) : Nat :=
  netsnmpTableNextColumn tblInfo.maxColumn tblInfo.validColumns colnum

theorem nextColumn_of_columns (tblInfo : TableRegistrationInfo) (colnum : Nat)
    (hasColumns : tblInfo.validColumns ≠ []) :
    tblInfo.nextColumn colnum =
      netsnmpClosestColumn ((colnum + 1) % 2 ^ 32) tblInfo.validColumns := by
  rw [nextColumn, netsnmpTableNextColumn, if_pos hasColumns]

theorem nextColumn_of_noColumns (tblInfo : TableRegistrationInfo) (colnum : Nat)
    (noColumns : tblInfo.validColumns = []) :
    tblInfo.nextColumn colnum = if colnum < tblInfo.maxColumn then colnum + 1 else 0 := by
  rw [nextColumn, netsnmpTableNextColumn, if_neg (not_not.mpr noColumns)]

end TableRegistrationInfo

variable {current closest column : Nat} {info : ColumnInfo} {validColumns : List ColumnInfo}

theorem not_isContained_nil : ¬IsContained [] 0 := by
  simp [IsContained]

theorem isContained_cons : IsContained (info :: validColumns) column ↔
    info.Names column ∨ IsContained validColumns column := by
  simp [IsContained]

theorem IsContained.small (contained : IsContained validColumns column) : column < 2 ^ 32 := by
  rcases contained with ⟨info, -, names⟩
  cases info with
  | range low high ordered small => exact lt_of_le_of_lt names.2 small
  | list columns nonempty sorted small => exact small column names

/-- What a search is at that has found `closest`, for those columns that it has seen. -/
structure IsClosest (current closest : Nat) (seen : Nat → Prop) : Prop where
  found : closest ≠ 0 → seen closest ∧ current ≤ closest
  least : ∀ column, seen column → current ≤ column → closest ≠ 0 ∧ closest ≤ column

theorem keepCloser_isClosest {seen : Nat → Prop} (info : ColumnInfo)
    (isClosest : IsClosest current closest seen)
    (names : info.Names column) (positive : 0 < column) (behind : current ≤ column)
    (least : ∀ other, info.Names other → current ≤ other → column ≤ other) :
    IsClosest current (keepCloser closest column) fun other => seen other ∨ info.Names other := by
  rw [keepCloser]
  split
  · rename_i closer
    refine ⟨fun _ => ⟨.inr names, behind⟩, ?_⟩
    rintro other (wasSeen | isNamed) otherBehind
    · have known := isClosest.least other wasSeen otherBehind
      omega
    · exact ⟨by omega, least other isNamed otherBehind⟩
  · rename_i notCloser
    refine ⟨?_, ?_⟩
    · intro set
      obtain ⟨wasSeen, closestBehind⟩ := isClosest.found set
      exact ⟨.inl wasSeen, closestBehind⟩
    · rintro other (wasSeen | isNamed) otherBehind
      · exact isClosest.least other wasSeen otherBehind
      · have known := least other isNamed otherBehind
        omega

theorem isClosest_skip {seen : Nat → Prop} (isClosest : IsClosest current closest seen)
    (noneBehind : ∀ other, info.Names other → other < current) :
    IsClosest current closest fun other => seen other ∨ info.Names other := by
  refine ⟨?_, ?_⟩
  · intro set
    obtain ⟨wasSeen, closestBehind⟩ := isClosest.found set
    exact ⟨.inl wasSeen, closestBehind⟩
  · rintro other (wasSeen | isNamed) otherBehind
    · exact isClosest.least other wasSeen otherBehind
    · have before := noneBehind other isNamed
      omega

theorem isClosest_exact {seen : Nat → Prop} (isColumn : seen current) (positive : 0 < current) :
    IsClosest current current seen :=
  ⟨fun _ => ⟨isColumn, le_rfl⟩, fun _ _ behind => ⟨by omega, behind⟩⟩

theorem head_le_of_mem {columns : List Nat} (nonempty : columns ≠ [])
    (sorted : columns.Pairwise (· ≤ ·)) (mem : column ∈ columns) :
      columns.head nonempty ≤ column := by
  cases columns with
  | nil => cases mem
  | cons first rest =>
      rcases List.mem_cons.mp mem with rfl | mem
      · exact le_rfl
      · exact (List.pairwise_cons.mp sorted).1 column mem

theorem le_getLast_of_mem {columns : List Nat} (nonempty : columns ≠ [])
    (sorted : columns.Pairwise (· ≤ ·)) (mem : column ∈ columns) :
    column ≤ columns.getLast nonempty := by
  rw [← List.dropLast_append_getLast nonempty] at mem sorted
  rcases List.mem_append.mp mem with front | last
  · exact (List.pairwise_append.mp sorted).2.2 column front _ List.mem_cons_self
  · rw [List.mem_singleton.mp last]

theorem closestColumnLoop_isClosest {seen : Nat → Prop} (noZero : ¬IsContained validColumns 0)
    (isClosest : IsClosest current closest seen) :
    IsClosest current (closestColumnLoop current closest validColumns)
      fun column => seen column ∨ IsContained validColumns column := by
  induction validColumns generalizing closest seen with
  | nil => simpa [closestColumnLoop, IsContained] using isClosest
  | cons info validColumns ih =>
      have hereNoZero : ¬info.Names 0 := fun names => noZero (isContained_cons.mpr (.inl names))
      have restNoZero : ¬IsContained validColumns 0 := fun contained =>
        noZero (isContained_cons.mpr (.inr contained))
      replace ih {closest : Nat} {seen : Nat → Prop} := @ih closest seen restNoZero
      have seen_eq : (fun column => seen column ∨ IsContained (info :: validColumns) column) =
          fun column => (seen column ∨ info.Names column) ∨ IsContained validColumns column := by
        funext column
        rw [isContained_cons, or_assoc]
      rw [seen_eq]
      cases info with
      | range low high ordered small =>
          have positive : 0 < low := by
            apply Nat.pos_of_ne_zero
            rintro rfl
            exact hereNoZero ⟨le_rfl, Nat.zero_le _⟩
          rw [closestColumnLoop]
          split
          · rename_i before
            apply ih
            apply keepCloser_isClosest (.range low high ordered small) isClosest
            · exact ⟨le_rfl, ordered⟩
            · exact positive
            · exact le_of_lt before
            · exact fun other names _ => names.1
          · split
            · rename_i notBefore inside
              apply isClosest_exact
              · exact .inl (.inr ⟨not_lt.mp notBefore, inside⟩)
              · omega
            · rename_i notBefore outside
              apply ih
              apply isClosest_skip isClosest
              intro other names
              exact lt_of_le_of_lt names.2 (not_le.mp outside)
      | list columns nonempty sorted small =>
          have positive : ∀ column ∈ columns, 0 < column := by
            intro column mem
            apply Nat.pos_of_ne_zero
            rintro rfl
            exact hereNoZero mem
          rw [closestColumnLoop]
          split
          · rename_i before
            apply ih
            apply keepCloser_isClosest (.list columns nonempty sorted small) isClosest
            · exact List.head_mem nonempty
            · exact positive _ (List.head_mem nonempty)
            · exact le_of_lt before
            · exact fun other names _ => head_le_of_mem nonempty sorted names
          · split
            · rename_i behindLast
              apply ih
              apply isClosest_skip isClosest
              intro other names
              exact lt_of_le_of_lt (le_getLast_of_mem nonempty sorted names) behindLast
            · rename_i notBefore notBehind
              cases found : columns.find? fun column => decide (current ≤ column) with
              | none =>
                  -- the last one is not before `current`
                  have before := List.find?_eq_none.mp found _ (List.getLast_mem nonempty)
                  simp only [decide_eq_true_eq] at before
                  omega
              | some column =>
                  have mem := List.mem_of_find?_eq_some found
                  have behind := List.find?_some found
                  simp only [decide_eq_true_eq] at behind
                  have least : ∀ other ∈ columns, current ≤ other → column ≤ other := by
                    obtain ⟨-, front, back, rfl, rejected⟩ :=
                      List.find?_eq_some_iff_append.mp found
                    intro other otherMem otherBehind
                    rcases List.mem_append.mp otherMem with inFront | inBack
                    · have fails := rejected other inFront
                      simp only [Bool.not_eq_true', decide_eq_false_iff_not] at fails
                      exact absurd otherBehind fails
                    · rcases List.mem_cons.mp inBack with rfl | inBack
                      · exact le_rfl
                      · have tail := (List.pairwise_append.mp sorted).2.1
                        exact (List.pairwise_cons.mp tail).1 other inBack
                  simp only
                  split
                  · rename_i exact_match
                    subst exact_match
                    exact isClosest_exact (.inl (.inr mem)) (positive current mem)
                  · apply ih
                    apply keepCloser_isClosest
                      (.list columns nonempty sorted small) isClosest mem (positive column mem)
                      behind least

theorem netsnmpClosestColumn_isClosest (noZero : ¬IsContained validColumns 0) (current : Nat) :
    IsClosest current (netsnmpClosestColumn current validColumns) (IsContained validColumns) := by
  have start : IsClosest current 0 fun _ => False :=
    ⟨fun set => absurd rfl set, fun _ isFalse => isFalse.elim⟩
  simpa [netsnmpClosestColumn] using closestColumnLoop_isClosest noZero start

end NetSnmp
