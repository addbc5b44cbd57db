import NetSnmp.Container.Bag
import NetSnmp.Table.Helper

/-!
# Tables in containers

The lookup of `table_container` for a GETNEXT request: the rows of a table are in a container that
is sorted by their indexes.
-/

namespace NetSnmp

namespace BinaryArray

variable {qsort : List Oid → List Oid} {c : BinaryArray Oid}

end BinaryArray

variable {order : ByteOrder} {tblInfo : TableRegistrationInfo} {rootoid name : Oid}
  {c : RowContainer} {column : Nat} {index : Oid}

theorem nextColumn_spec (isColumn : tblInfo.Column column)
    (notLargest : tblInfo.validColumns = [] ∨ column + 1 < 2 ^ 32) :
    (tblInfo.nextColumn column = 0 ∧ ∀ other, tblInfo.Column other → other ≤ column) ∨
      (tblInfo.nextColumn column ≠ 0 ∧
        IsNextColumn tblInfo column (tblInfo.nextColumn column)) := by
  by_cases hasColumns : tblInfo.validColumns = []
  · have column_iff (other : Nat) : tblInfo.Column other ↔
        tblInfo.minColumn ≤ other ∧ other ≤ tblInfo.maxColumn := by
      simp [TableRegistrationInfo.Column, IsColumn, hasColumns]
    have range := (column_iff column).mp isColumn
    by_cases less : column < tblInfo.maxColumn
    · have next : tblInfo.nextColumn column = column + 1 := by
        rw [tblInfo.nextColumn_of_noColumns column hasColumns, if_pos less]
      refine .inr ⟨by omega, ?_⟩
      rw [next]
      exact ⟨(column_iff _).mpr (by omega), by omega, fun other _ behind => behind⟩
    · refine .inl ⟨by rw [tblInfo.nextColumn_of_noColumns column hasColumns, if_neg less], ?_⟩
      intro other otherColumn
      have otherRange := (column_iff other).mp otherColumn
      omega
  · have small : (column + 1) % 2 ^ 32 = column + 1 := by
      apply Nat.mod_eq_of_lt
      simpa [hasColumns] using notLargest
    have next : tblInfo.nextColumn column =
        netsnmpClosestColumn (column + 1) tblInfo.validColumns := by
      rw [tblInfo.nextColumn_of_columns column hasColumns, small]
    have isClosest := closest_isClosest hasColumns (column + 1)
    rw [next]
    by_cases zero : netsnmpClosestColumn (column + 1) tblInfo.validColumns = 0
    · refine .inl ⟨zero, ?_⟩
      intro other otherColumn
      by_contra behind
      exact (isClosest.least other otherColumn (by omega)).1 zero
    · obtain ⟨closestColumn, ge⟩ := isClosest.found zero
      exact .inr ⟨zero, closestColumn, ge, fun other otherColumn behind =>
        (isClosest.least other otherColumn behind).2⟩

def addressTable : TableRegistrationInfo where
  indexes := [⟨[], asnIpaddress, .unset 0⟩]
  minColumn := 1
  maxColumn := 2
  indexed := by simp
  small := by decide
  noZero := not_isContained_nil
  min_isColumn := by simp [IsColumn]
  max_isColumn := by simp [IsColumn]
  between column isColumn := by simpa [IsColumn] using isColumn

end NetSnmp
