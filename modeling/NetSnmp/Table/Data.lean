import NetSnmp.Table.Container

/-!
# Tables in lists

The lookup of `table_data` for a GETNEXT request: the rows of a table are in a list that is sorted
by their indexes.
-/

namespace NetSnmp

variable {α : Type}

/-- `netsnmp_table_row` -/
structure TableRow (α : Type) where
  indexOid : Oid
  data : α

variable {order : ByteOrder} {tblInfo : TableRegistrationInfo} {rootoid name : Oid}
  {rows : List (TableRow α)} {tblreq : TableRequestInfo} {column : Nat} {index : Oid}

def foundName (rootoid : Oid) (found : Option (Nat × TableRow α)) : Option Oid :=
  found.map fun (column, row) => instanceName rootoid column row.indexOid

def NotLargest (tblInfo : TableRegistrationInfo) (rows : List (TableRow α)) (rootoid name : Oid) :
    Prop :=
  ∀ column index, name = instanceName rootoid column index → tblInfo.Column column →
    column + 1 < 2 ^ 32 ∨ rows = [] ∨ ∃ row ∈ rows, index < row.indexOid

theorem column_iff (noColumns : tblInfo.validColumns = []) :
    tblInfo.Column column ↔ tblInfo.minColumn ≤ column ∧ column ≤ tblInfo.maxColumn := by
  simp [TableRegistrationInfo.Column, IsColumn, noColumns]

/-- What is found behind the table helper: the next instance, or else the first row in a column
zero, when the number of the column has wrapped around. -/
structure FoundNext (tblInfo : TableRegistrationInfo) (rows : List (TableRow α))
    (rootoid name : Oid)
    (found : Option (Nat × TableRow α)) : Prop where
  mem : ∀ column row, found = some (column, row) → row ∈ rows ∧ column < 2 ^ 32
  isNextName : NotLargest tblInfo rows rootoid name →
    IsNextName tblInfo.Column (rows.map TableRow.indexOid) rootoid name (foundName rootoid found)
  wrapped : ¬NotLargest tblInfo rows rootoid name → ∃ row column index, found = some (0, row) ∧
    name = instanceName rootoid column index ∧ 0 < column

end NetSnmp
