import Mathlib.Data.List.TakeWhile
import NetSnmp.Fuel
import NetSnmp.Index.Codec
import NetSnmp.KeyedRows
import NetSnmp.LinkedList
import NetSnmp.OidCompare

/-!
# The rows of a data table

`netsnmp_table_data_add_row`, `netsnmp_table_data_remove_row` and `netsnmp_table_data_replace_row`,
and the two searches by an OID. The rows are a doubly linked list in the order of their indexes.
-/

namespace NetSnmp

/-- A `netsnmp_table_row` without its links. The length of the index OID is a field of its own. -/
structure DataRow where
  indexes : Option (List VariableList)
  indexOid : Option Oid
  indexOidLen : Nat
  deriving DecidableEq

/-- What `snmp_oid_compare` reads of the index OID. -/
def DataRow.oid (row : DataRow) : Oid := (row.indexOid.getD []).take row.indexOidLen

/-- `netsnmp_table_data_generate_index_oid`. Where the index OID cannot be built, its length changes
all the same. -/
def tableDataGenerateIndexOid (order : ByteOrder) (row : DataRow) (indexes : List VariableList) :
    DataRow :=
  match buildOidNoalloc order maxOidLen [] indexes with
  | some oid => { row with indexOid := some oid, indexOidLen := oid.length }
  | none => { row with indexOidLen := (builtOid order maxOidLen [] indexes).length }

/-- The first part of `netsnmp_table_data_add_row`: the index OID of the row is built, and its
indexes are freed. -/
def DataRow.indexed (order : ByteOrder) (storeIndexes : Bool) (row : DataRow) : DataRow :=
  let row :=
    match row.indexes with
    | some indexes => tableDataGenerateIndexOid order row indexes
    | none => row
  if storeIndexes then row else { row with indexes := none }

/-- A `netsnmp_table_data`, and the rows at all addresses. -/
structure DataTable where
  storeIndexes : Bool
  rows : Addr → DataRow
  links : Links
  firstRow : Option Addr
  lastRow : Option Addr

namespace DataTable

def empty (storeIndexes : Bool) (rows : Addr → DataRow) (links : Links) : DataTable :=
  ⟨storeIndexes, rows, links, none, none⟩

def oid (table : DataTable) (row : Addr) : Oid := (table.rows row).oid

inductive RowPlace where
  | dup
  | between (prevrow nextrow : Option Addr)
  deriving DecidableEq

/-- The loop over the table in `netsnmp_table_data_add_row`. -/
def searchPlace (table : DataTable) (row : Addr) :
    (fuel : Nat) → (prevrow nextrow : Option Addr) → Option RowPlace
  | 0, _, _ => none
  | _ + 1, prevrow, none => some (.between prevrow none)
  | fuel + 1, prevrow, some nextrow =>
      if (table.rows nextrow).indexOid = none then
        table.searchPlace row fuel (some nextrow) (table.links.next nextrow)
      else
        let rc := snmpOidCompare (table.oid nextrow) (table.oid row)
        if 0 < rc then some (.between prevrow (some nextrow))
        else if 0 = rc then some .dup
        else table.searchPlace row fuel (some nextrow) (table.links.next nextrow)

def place (table : DataTable) (row : Addr) (fuel : Nat) : Option RowPlace :=
  match table.lastRow with
  | some prevrow =>
      let rc := snmpOidCompare (table.oid prevrow) (table.oid row)
      if 0 < rc then table.searchPlace row fuel none table.firstRow
      else if 0 = rc then some .dup
      else some (.between (some prevrow) none)
  | none => table.searchPlace row fuel none table.firstRow

def insertRow (table : DataTable) (prevrow : Option Addr) (row : Addr) (nextrow : Option Addr) :
    DataTable :=
  { table with
    links := table.links.insertBetween prevrow row nextrow
    firstRow := if prevrow = none then some row else table.firstRow
    lastRow := if nextrow = none then some row else table.lastRow }

/-- The last part of `netsnmp_table_data_add_row`: a row that has an index OID goes to its place. -/
def placeRow (fuel : Nat) (table : DataTable) (row : Addr) : Option (DataTable × Bool) :=
  match table.place row fuel with
  | none => none
  | some .dup => some (table, false)
  | some (.between prevrow nextrow) => some (table.insertRow prevrow row nextrow, true)

def setRow (table : DataTable) (row : Addr) (memory : DataRow) : DataTable :=
  { table with rows := Function.update table.rows row memory }

/-- `netsnmp_table_data_add_row`, and whether it returns `SNMPERR_SUCCESS`. -/
def addRow (order : ByteOrder) (fuel : Nat) (table : DataTable) (row : Addr) :
    Option (DataTable × Bool) :=
  let indexed := (table.rows row).indexed order table.storeIndexes
  let table := table.setRow row indexed
  if indexed.indexOid = none then some (table, false)
  else table.placeRow fuel row

/-- `netsnmp_table_data_remove_row` -/
def removeRow (table : DataTable) (row : Addr) : DataTable :=
  let prev := table.links.prev row
  let next := table.links.next row
  { table with
    links := table.links.bypass prev next
    firstRow := if prev = none then next else table.firstRow
    lastRow := if next = none then prev else table.lastRow }

/-- `netsnmp_table_data_replace_row` -/
def replaceRow (order : ByteOrder) (fuel : Nat) (table : DataTable) (origrow newrow : Addr) :
    Option DataTable :=
  ((table.removeRow origrow).addRow order fuel newrow).map Prod.fst

/-- `netsnmp_table_data_get_from_oid`, from a row on. -/
def getFromOid (table : DataTable) (searchfor : Oid) :
    (fuel : Nat) → (row : Option Addr) → Option (Option Addr)
  | 0, _ => none
  | _ + 1, none => some none
  | fuel + 1, some row =>
      if (table.rows row).indexOid ≠ none ∧ snmpOidCompare searchfor (table.oid row) = 0 then
        some (some row)
      else table.getFromOid searchfor fuel (table.links.next row)

/-- `netsnmp_table_data_row_next_byoid`, from a row on. -/
def rowNextByoid (table : DataTable) (instance_ : Oid) :
    (fuel : Nat) → (row : Option Addr) → Option (Option Addr)
  | 0, _ => none
  | _ + 1, none => some none
  | fuel + 1, some row =>
      if 0 < snmpOidCompare (table.oid row) instance_ then some (some row)
      else table.rowNextByoid instance_ fuel (table.links.next row)

section Search

variable {table : DataTable} {row : Addr} {before start : Option Addr} {cells : List Addr}
  {fuel : Nat}

theorem searchPlace_eq (linked : table.links.Segment before start cells none)
    (hasIndex : ∀ cell ∈ cells, (table.rows cell).indexOid ≠ none)
    (increasing : Increasing table.oid cells) (enough : cells.length < fuel) :
    table.searchPlace row fuel before start =
      if ∃ cell ∈ cells, table.oid cell = table.oid row then some .dup
      else some (.between
        ((cells.takeWhile (table.oid · < table.oid row)).getLast?.or before)
        (cells.dropWhile (table.oid · < table.oid row)).head?) := by
  induction cells generalizing before start fuel with
  | nil =>
      rcases fuel with _ | fuel
      · exact absurd enough (Nat.not_lt_zero _)
      · cases linked
        simp [searchPlace]
  | cons cell cells ih =>
      rcases fuel with _ | fuel
      · exact absurd enough (Nat.not_lt_zero _)
      · rcases linked with ⟨rfl, -, rest⟩
        rcases List.pairwise_cons.mp increasing with ⟨first_lt, increasingRest⟩
        have enough' : cells.length < fuel := Nat.lt_of_succ_lt_succ enough
        rw [searchPlace, if_neg (hasIndex cell List.mem_cons_self)]
        dsimp only
        rcases lt_trichotomy (table.oid cell) (table.oid row) with less | same | greater
        · have negative := snmpOidCompare_neg_iff.mpr less
          have ih' := ih rest (fun other mem => hasIndex other (List.mem_cons_of_mem _ mem))
            increasingRest enough'
          rw [if_neg (by omega), if_neg (by omega), ih']
          simp only [List.mem_cons, exists_eq_or_imp, less.ne, false_or]
          have taken : (cell :: cells).takeWhile (table.oid · < table.oid row) =
              cell :: cells.takeWhile (table.oid · < table.oid row) := by
            simp [less]
          have dropped : (cell :: cells).dropWhile (table.oid · < table.oid row) =
              cells.dropWhile (table.oid · < table.oid row) := by
            simp [less]
          rw [taken, dropped, List.getLast?_cons]
          cases (cells.takeWhile (table.oid · < table.oid row)).getLast? <;> rfl
        · have zero := snmpOidCompare_eq_zero_iff.mpr same
          rw [if_neg (by omega), if_pos (by omega), if_pos ⟨cell, List.mem_cons_self, same⟩]
        · have positive : 0 < snmpOidCompare (table.oid cell) (table.oid row) :=
            lexCompare_pos_iff.mpr greater
          have absent : ¬ ∃ other ∈ cell :: cells, table.oid other = table.oid row := by
            rintro ⟨other, mem, same⟩
            rcases List.mem_cons.mp mem with rfl | mem
            · exact greater.ne' same
            · exact (greater.trans (first_lt other mem)).ne' same
          rw [if_pos positive, if_neg absent]
          simp [not_lt_of_gt greater]

theorem getFromOid_eq {searchfor : Oid} (linked : table.links.Segment before start cells none)
    (hasIndex : ∀ cell ∈ cells, (table.rows cell).indexOid ≠ none)
    (enough : cells.length < fuel) :
    table.getFromOid searchfor fuel start = some (rowWith table.oid cells searchfor) := by
  induction cells generalizing before start fuel with
  | nil =>
      rcases fuel with _ | fuel
      · exact absurd enough (Nat.not_lt_zero _)
      · cases linked
        rfl
  | cons cell cells ih =>
      rcases fuel with _ | fuel
      · exact absurd enough (Nat.not_lt_zero _)
      · rcases linked with ⟨rfl, -, rest⟩
        have enough' : cells.length < fuel := Nat.lt_of_succ_lt_succ enough
        rw [getFromOid, rowWith, List.find?_cons]
        by_cases here : table.oid cell = searchfor
        · have zero := snmpOidCompare_eq_zero_iff.mpr here.symm
          rw [if_pos ⟨hasIndex cell List.mem_cons_self, zero⟩]
          simp [here]
        · have nonzero : snmpOidCompare searchfor (table.oid cell) ≠ 0 := by
            intro zero
            exact here (snmpOidCompare_eq_zero_iff.mp zero).symm
          rw [if_neg (fun both => nonzero both.2)]
          simp only [here, decide_false]
          exact ih rest (fun other mem => hasIndex other (List.mem_cons_of_mem _ mem)) enough'

theorem rowNextByoid_eq {instance_ : Oid} (linked : table.links.Segment before start cells none)
    (enough : cells.length < fuel) :
    table.rowNextByoid instance_ fuel start = some (cells.find? (instance_ < table.oid ·)) := by
  induction cells generalizing before start fuel with
  | nil =>
      rcases fuel with _ | fuel
      · exact absurd enough (Nat.not_lt_zero _)
      · cases linked
        rfl
  | cons cell cells ih =>
      rcases fuel with _ | fuel
      · exact absurd enough (Nat.not_lt_zero _)
      · rcases linked with ⟨rfl, -, rest⟩
        have enough' : cells.length < fuel := Nat.lt_of_succ_lt_succ enough
        rw [rowNextByoid, List.find?_cons]
        have behind_iff : 0 < snmpOidCompare (table.oid cell) instance_ ↔
            instance_ < table.oid cell := lexCompare_pos_iff
        by_cases behind : instance_ < table.oid cell
        · rw [if_pos (behind_iff.mpr behind)]
          simp [behind]
        · rw [if_neg (behind_iff.not.mpr behind)]
          simp only [behind, decide_false]
          exact ih rest enough'

end Search

/-- The rows of a table: they are linked both ways in the order of their OIDs, and building the
index OID of one of them again changes nothing. -/
structure HasRows (order : ByteOrder) (table : DataTable) (rows : List Addr) : Prop where
  linked : table.links.Linked table.firstRow rows
  last : table.lastRow = rows.getLast?
  increasing : Increasing table.oid rows
  hasIndex : ∀ row ∈ rows, (table.rows row).indexOid ≠ none
  settled : ∀ row ∈ rows, (table.rows row).indexed order table.storeIndexes = table.rows row

variable {order : ByteOrder} {table : DataTable} {rows : List Addr} {row : Addr} {fuel : Nat}

theorem indexed_indexed (order : ByteOrder) (storeIndexes : Bool) (row : DataRow) :
    (row.indexed order storeIndexes).indexed order storeIndexes =
      row.indexed order storeIndexes := by
  rcases row with ⟨indexes, indexOid, indexOidLen⟩
  cases storeIndexes with
  | false => rfl
  | true =>
      cases indexes with
      | none => rfl
      | some indexes =>
          simp only [DataRow.indexed, tableDataGenerateIndexOid]
          cases built : buildOidNoalloc order maxOidLen [] indexes <;> simp [built]

theorem hasRows_empty (storeIndexes : Bool) (memory : Addr → DataRow) (links : Links) :
    HasRows order (empty storeIndexes memory links) [] where
  linked := ⟨rfl, List.nodup_nil⟩
  last := rfl
  increasing := List.Pairwise.nil
  hasIndex := nofun
  settled := nofun

theorem HasRows.place_eq (hasRows : HasRows order table rows) (enough : rows.length < fuel) :
    table.place row fuel =
      if ∃ other ∈ rows, table.oid other = table.oid row then some .dup
      else some (.between (rows.takeWhile (table.oid · < table.oid row)).getLast?
        (rows.dropWhile (table.oid · < table.oid row)).head?) := by
  have searched := @searchPlace_eq table row none _ _ _ hasRows.linked.segment hasRows.hasIndex
    hasRows.increasing enough
  rw [Option.or_none] at searched
  rw [place, hasRows.last]
  rcases List.eq_nil_or_concat' rows with rfl | ⟨front, lastRow, rfl⟩
  · exact searched
  · rw [List.getLast?_concat]
    dsimp only
    have apart := List.pairwise_append.mp hasRows.increasing
    rcases lt_trichotomy (table.oid lastRow) (table.oid row) with less | same | greater
    · -- all rows are in front of it
      have negative := snmpOidCompare_neg_iff.mpr less
      have all (other : Addr) (mem : other ∈ front ++ [lastRow]) :
          table.oid other < table.oid row := by
        rcases List.mem_append.mp mem with mem | mem
        · exact (apart.2.2 other mem lastRow (List.mem_singleton_self _)).trans less
        · rw [List.mem_singleton.mp mem]
          exact less
      have absent : ¬ ∃ other ∈ front ++ [lastRow], table.oid other = table.oid row := by
        rintro ⟨other, mem, same⟩
        exact (all other mem).ne same
      have taken : (front ++ [lastRow]).takeWhile (table.oid · < table.oid row) =
          front ++ [lastRow] :=
        List.takeWhile_eq_self_iff.mpr fun other mem => decide_eq_true (all other mem)
      have dropped : (front ++ [lastRow]).dropWhile (table.oid · < table.oid row) = [] :=
        List.dropWhile_eq_nil_iff.mpr fun other mem => decide_eq_true (all other mem)
      rw [if_neg (by omega), if_neg (by omega), if_neg absent, taken, dropped,
        List.getLast?_concat]
      rfl
    · have zero := snmpOidCompare_eq_zero_iff.mpr same
      have present : ∃ other ∈ front ++ [lastRow], table.oid other = table.oid row :=
        ⟨lastRow, by simp, same⟩
      rw [if_neg (by omega), if_pos (by omega), if_pos present]
    · have positive : 0 < snmpOidCompare (table.oid lastRow) (table.oid row) :=
        lexCompare_pos_iff.mpr greater
      rw [if_pos positive]
      exact searched

@[simp]
theorem setRow_rows_self (table : DataTable) (row : Addr) (memory : DataRow) :
    (table.setRow row memory).rows row = memory := Function.update_self _ _ _

@[simp]
theorem setRow_oid_self (table : DataTable) (row : Addr) (memory : DataRow) :
    (table.setRow row memory).oid row = memory.oid := by
  rw [oid, setRow_rows_self]

theorem setRow_rows_of_mem {memory : DataRow} (kept : row ∈ rows → memory = table.rows row)
    {other : Addr} (mem : other ∈ rows) :
    (table.setRow row memory).rows other = table.rows other := by
  by_cases here : other = row
  · subst here
    rw [setRow_rows_self]
    exact kept mem
  · exact Function.update_of_ne here _ _

theorem setRow_oid_of_mem {memory : DataRow} (kept : row ∈ rows → memory = table.rows row)
    {other : Addr} (mem : other ∈ rows) :
    (table.setRow row memory).oid other = table.oid other := by
  rw [oid, setRow_rows_of_mem kept mem]
  rfl

theorem HasRows.setRow (hasRows : HasRows order table rows) {memory : DataRow}
    (kept : row ∈ rows → memory = table.rows row) :
    HasRows order (table.setRow row memory) rows := by
  refine ⟨hasRows.linked, hasRows.last, ?_, ?_, ?_⟩
  · apply hasRows.increasing.imp_of_mem
    intro first second firstMem secondMem lt
    rw [setRow_oid_of_mem kept firstMem, setRow_oid_of_mem kept secondMem]
    exact lt
  · intro other mem
    rw [setRow_rows_of_mem kept mem]
    exact hasRows.hasIndex other mem
  · intro other mem
    rw [setRow_rows_of_mem kept mem]
    exact hasRows.settled other mem

theorem HasRows.insertRow {front back : List Addr}
    (hasRows : HasRows order table (front ++ back))
    (hasIndex : (table.rows row).indexOid ≠ none)
    (settled : (table.rows row).indexed order table.storeIndexes = table.rows row)
    (smaller : ∀ other ∈ front, table.oid other < table.oid row)
    (larger : ∀ other ∈ back, table.oid row < table.oid other) :
    HasRows order (table.insertRow front.getLast? row back.head?) (front ++ row :: back) := by
  have fresh : row ∉ front ++ back := by
    intro mem
    rcases List.mem_append.mp mem with mem | mem
    · exact lt_irrefl _ (smaller row mem)
    · exact lt_irrefl _ (larger row mem)
  have known {property : Addr → Prop} (here : property row)
      (others : ∀ other ∈ front ++ back, property other) :
      ∀ other ∈ front ++ row :: back, property other := by
    intro other mem
    rcases List.mem_append.mp mem with mem | mem
    · exact others other (List.mem_append_left _ mem)
    · rcases List.mem_cons.mp mem with rfl | mem
      · exact here
      · exact others other (List.mem_append_right _ mem)
  refine ⟨?_, ?_, ?_, known hasIndex hasRows.hasIndex, known settled hasRows.settled⟩
  · have linked := hasRows.linked.insertBetween fresh
    have first_eq : (if front.getLast? = none then some row else table.firstRow) =
        front.head?.or (some row) := by
      rw [hasRows.linked.head_eq]
      cases front with
      | nil => rfl
      | cons first front => simp
    rw [← first_eq] at linked
    exact linked
  · change (if back.head? = none then some row else table.lastRow) = _
    rw [hasRows.last]
    cases back with
    | nil => simp
    | cons next back => simp [List.getLast?_append]
  · have apart := List.pairwise_append.mp hasRows.increasing
    refine List.pairwise_append.mpr ⟨apart.1, List.pairwise_cons.mpr ⟨larger, apart.2.1⟩, ?_⟩
    intro first firstMem second secondMem
    rcases List.mem_cons.mp secondMem with rfl | mem
    · exact smaller first firstMem
    · exact apart.2.2 first firstMem second mem

theorem HasRows.removeRow {front back : List Addr}
    (hasRows : HasRows order table (front ++ row :: back)) :
    HasRows order (table.removeRow row) (front ++ back) := by
  have links_eq := hasRows.linked.links_eq
  have sublist : (front ++ back).Sublist (front ++ row :: back) :=
    (List.sublist_cons_self row back).append_left front
  refine ⟨?_, ?_, hasRows.increasing.sublist sublist,
    fun other mem => hasRows.hasIndex other (sublist.subset mem),
    fun other mem => hasRows.settled other (sublist.subset mem)⟩
  · have linked := hasRows.linked.bypass
    have first_eq : (if front.getLast? = none then back.head? else table.firstRow) =
        front.head?.or back.head? := by
      rw [hasRows.linked.head_eq]
      cases front with
      | nil => rfl
      | cons first front => simp
    rw [← first_eq, ← links_eq.1, ← links_eq.2] at linked
    exact linked
  · change (if table.links.next row = none then table.links.prev row else table.lastRow) = _
    rw [links_eq.1, links_eq.2, hasRows.last]
    cases back with
    | nil => simp
    | cons next back => simp [List.getLast?_append]

/-- The memory of a row when `netsnmp_table_data_add_row` looks for its place. -/
def indexedRow (order : ByteOrder) (table : DataTable) (row : Addr) : DataRow :=
  (table.rows row).indexed order table.storeIndexes

def FitsInto (order : ByteOrder) (table : DataTable) (rows : List Addr) (row : Addr) : Prop :=
  (indexedRow order table row).indexOid ≠ none ∧
    ∀ other ∈ rows, table.oid other ≠ (indexedRow order table row).oid

theorem lt_of_mem_takeWhile {key : Oid} {other : Addr}
    (mem : other ∈ rows.takeWhile (table.oid · < key)) : table.oid other < key := by
  have passes := List.mem_takeWhile_imp mem
  exact of_decide_eq_true passes

theorem lt_of_mem_dropWhile {key : Oid} (increasing : Increasing table.oid rows)
    (distinct : ∀ other ∈ rows, table.oid other ≠ key) {other : Addr}
    (mem : other ∈ rows.dropWhile (table.oid · < key)) : key < table.oid other := by
  induction rows with
  | nil => nomatch mem
  | cons first rows ih =>
      rcases List.pairwise_cons.mp increasing with ⟨first_lt, increasingRest⟩
      by_cases less : table.oid first < key
      · have dropped : (first :: rows).dropWhile (table.oid · < key) =
            rows.dropWhile (table.oid · < key) := by simp [less]
        rw [dropped] at mem
        exact ih increasingRest (fun row mem => distinct row (List.mem_cons_of_mem _ mem)) mem
      · have dropped : (first :: rows).dropWhile (table.oid · < key) = first :: rows := by
          simp [less]
        rw [dropped] at mem
        have first_gt : key < table.oid first :=
          lt_of_le_of_ne (not_lt.mp less) (distinct first List.mem_cons_self).symm
        rcases List.mem_cons.mp mem with rfl | mem
        · exact first_gt
        · exact first_gt.trans (first_lt other mem)

structure Adds (order : ByteOrder) (table : DataTable) (rows : List Addr) (row : Addr)
    (fits : Prop) (result : DataTable × Bool) (rows' : List Addr) : Prop where
  hasRows : HasRows order result.1 rows'
  added_iff : result.2 = true ↔ fits
  refused : result.2 = false → rows' = rows
  accepted : result.2 = true → row ∉ rows ∧ rows'.Perm (row :: rows)
  oid_eq : ∀ other ∈ rows, result.1.oid other = table.oid other

theorem HasRows.placeRow (hasRows : HasRows order table rows)
    (hasIndex : (table.rows row).indexOid ≠ none)
    (settled : (table.rows row).indexed order table.storeIndexes = table.rows row) :
    ∃ result rows', Settles (fun fuel => table.placeRow fuel row) result ∧
      Adds order table rows row (∀ other ∈ rows, table.oid other ≠ table.oid row) result
        rows' := by
  by_cases dup : ∃ other ∈ rows, table.oid other = table.oid row
  · refine ⟨(table, false), rows, ⟨rows.length + 1, fun fuel enough => ?_⟩, hasRows, ?_,
      fun _ => rfl, nofun, fun _ _ => rfl⟩
    · simp only [DataTable.placeRow, hasRows.place_eq enough, if_pos dup]
    · apply iff_of_false nofun
      intro distinct
      rcases dup with ⟨other, mem, same⟩
      exact distinct other mem same
  · have distinct : ∀ other ∈ rows, table.oid other ≠ table.oid row := by
      intro other mem same
      exact dup ⟨other, mem, same⟩
    have fresh : row ∉ rows := fun mem => distinct row mem rfl
    have split := @List.takeWhile_append_dropWhile _ (table.oid · < table.oid row) rows
    have inserted : HasRows order (table.insertRow
        (rows.takeWhile (table.oid · < table.oid row)).getLast? row
        (rows.dropWhile (table.oid · < table.oid row)).head?)
        (rows.takeWhile (table.oid · < table.oid row) ++
          row :: rows.dropWhile (table.oid · < table.oid row)) := by
      apply HasRows.insertRow _ hasIndex settled
      · intro other mem
        exact lt_of_mem_takeWhile mem
      · intro other mem
        exact lt_of_mem_dropWhile hasRows.increasing distinct mem
      · rw [split]
        exact hasRows
    refine ⟨(table.insertRow _ row _, true), _, ⟨rows.length + 1, fun fuel enough => ?_⟩,
      inserted, iff_of_true rfl distinct, nofun, fun _ => ⟨fresh, ?_⟩, fun _ _ => rfl⟩
    · simp only [DataTable.placeRow, hasRows.place_eq enough, if_neg dup]
    · have middle := @List.perm_middle _ row (rows.takeWhile (table.oid · < table.oid row))
        (rows.dropWhile (table.oid · < table.oid row))
      rw [split] at middle
      exact middle

theorem HasRows.addRow (hasRows : HasRows order table rows) (row : Addr) :
    ∃ result rows', Settles (fun fuel => table.addRow order fuel row) result ∧
      Adds order table rows row (FitsInto order table rows row) result rows' := by
  have kept : row ∈ rows → indexedRow order table row = table.rows row := hasRows.settled row
  have entered := @HasRows.setRow _ _ _ row hasRows _ kept
  by_cases noIndex : (indexedRow order table row).indexOid = none
  · refine ⟨(table.setRow row (indexedRow order table row), false), rows,
      ⟨0, fun fuel _ => if_pos noIndex⟩, entered, ?_, fun _ => rfl, nofun, ?_⟩
    · exact iff_of_false nofun fun fits => fits.1 noIndex
    · intro other mem
      exact setRow_oid_of_mem kept mem
  · have self_eq := setRow_rows_self table row (indexedRow order table row)
    rcases @HasRows.placeRow _ _ _ row entered (by rwa [self_eq]) (by
        rw [self_eq]
        exact indexed_indexed order table.storeIndexes _) with ⟨result, rows', settles, adds⟩
    refine ⟨result, rows', ?_, adds.hasRows, ?_, adds.refused, adds.accepted, ?_⟩
    · rcases settles with ⟨bound, returns⟩
      exact ⟨bound, fun fuel enough => (if_neg noIndex).trans (returns fuel enough)⟩
    · rw [adds.added_iff, FitsInto, and_iff_right noIndex]
      apply forall₂_congr
      intro other mem
      rw [setRow_oid_of_mem kept mem, setRow_oid_self]
    · intro other mem
      rw [adds.oid_eq other mem, setRow_oid_of_mem kept mem]

/-- A call, or the owner of a row that is not in the table giving it other indexes. -/
inductive RowCall where
  | prepare (row : Addr) (memory : DataRow)
  | add (row : Addr)
  | remove (row : Addr)
  | replace (origrow newrow : Addr)

def InTable (table : DataTable) (row : Addr) : Prop :=
  ∃ rows, table.links.Linked table.firstRow rows ∧ row ∈ rows

/-- Only rows that are in the table are removed or replaced. -/
def Allows (table : DataTable) : RowCall → Prop
  | .prepare row _ => ¬ table.InTable row
  | .add _ => True
  | .remove row => table.InTable row
  | .replace origrow _ => table.InTable origrow

/-- The table after a call, and whether a row was added if it adds one. -/
def call (order : ByteOrder) (fuel : Nat) (table : DataTable) :
    RowCall → Option (DataTable × Bool)
  | .prepare row memory => some (table.setRow row memory, true)
  | .add row => table.addRow order fuel row
  | .remove row => some (table.removeRow row, true)
  | .replace origrow newrow => (table.replaceRow order fuel origrow newrow).map (·, true)

inductive Reached (order : ByteOrder) : DataTable → Prop
  | empty (storeIndexes : Bool) (memory : Addr → DataRow) (links : Links) :
      Reached order (empty storeIndexes memory links)
  | call {table table' : DataTable} {rowCall : RowCall} {added : Bool}
      (reached : Reached order table) (allowed : table.Allows rowCall)
      (returns : Settles (fun fuel => table.call order fuel rowCall) (table', added)) :
      Reached order table'

theorem HasRows.inTable_iff (hasRows : HasRows order table rows) :
    table.InTable row ↔ row ∈ rows := by
  constructor
  · rintro ⟨rows', linked, mem⟩
    rwa [hasRows.linked.unique linked]
  · intro mem
    exact ⟨rows, hasRows.linked, mem⟩

theorem HasRows.replaceRow {origrow : Addr} (hasRows : HasRows order table rows)
    (present : origrow ∈ rows) (newrow : Addr) :
    HasRows order (table.removeRow origrow) (rows.erase origrow) ∧
      ∃ result rows', Settles (fun fuel => table.replaceRow order fuel origrow newrow) result.1 ∧
        Adds order (table.removeRow origrow) (rows.erase origrow) newrow
          (FitsInto order (table.removeRow origrow) (rows.erase origrow) newrow) result rows' := by
  have removed : HasRows order (table.removeRow origrow) (rows.erase origrow) := by
    rcases List.append_of_mem present with ⟨front, back, rfl⟩
    have notBefore : origrow ∉ front := by
      intro mem
      have apart := (List.nodup_append.mp hasRows.linked.nodup).2.2
      exact apart origrow mem origrow List.mem_cons_self rfl
    rw [List.erase_append_right _ notBefore, List.erase_cons_head]
    exact hasRows.removeRow
  rcases removed.addRow newrow with ⟨result, rows', settles, adds⟩
  exact ⟨removed, result, rows', settles.map Prod.fst, adds⟩

/-- The list of the rows is in order, linked both ways between its ends, and searched rightly. -/
structure Stores (table : DataTable) (rows : List Addr) : Prop where
  linked : table.links.Linked table.firstRow rows
  last : table.lastRow = rows.getLast?
  increasing : Increasing table.oid rows
  getFromOid : ∀ searchfor, ∃ answer,
    Settles (fun fuel => table.getFromOid searchfor fuel table.firstRow) answer ∧
      IsExactly table.oid rows searchfor answer
  rowNextByoid : ∀ instance_, ∃ answer,
    Settles (fun fuel => table.rowNextByoid instance_ fuel table.firstRow) answer ∧
      IsNext table.oid rows instance_ answer

theorem HasRows.stores (hasRows : HasRows order table rows) : Stores table rows := by
  refine ⟨hasRows.linked, hasRows.last, hasRows.increasing, ?_, ?_⟩
  · intro searchfor
    refine ⟨rowWith table.oid rows searchfor, ⟨rows.length + 1, fun fuel enough => ?_⟩, ?_⟩
    · exact getFromOid_eq hasRows.linked.segment hasRows.hasIndex enough
    · exact hasRows.increasing.isExactly_iff.mpr rfl
  · intro instance_
    refine ⟨rows.find? (instance_ < table.oid ·), ⟨rows.length + 1, fun fuel enough => ?_⟩, ?_⟩
    · exact rowNextByoid_eq hasRows.linked.segment enough
    · have sorted : SortedBy table.oid rows := hasRows.increasing.imp le_of_lt
      apply (isNext_find?_iff sorted (fun row _ => decide_eq_true_iff) ?_).mpr
      · intro row _
        exact Iff.rfl
      · intro row _ row' _ behind le
        exact lt_of_lt_of_le behind le

def NotLost (table : DataTable) (origrow newrow : Addr) (table' : DataTable) : Prop :=
  table'.InTable origrow ∨ (¬ (table.removeRow origrow).InTable newrow ∧ table'.InTable newrow)

/-- What a call does to the rows of a table. Replacing a row does not lose it exactly if the new one
has an index OID that is not the one of another row. -/
def Does (order : ByteOrder) (table : DataTable) (rows : List Addr) (table' : DataTable)
    (added : Bool) (rows' : List Addr) : RowCall → Prop
  | .prepare _ _ => rows' = rows
  | .add row =>
      if added then row ∉ rows ∧ rows'.Perm (row :: rows)
      else rows' = rows ∧ ∀ other ∈ rows, table'.oid other = table.oid other
  | .remove row => rows' = rows.erase row
  | .replace origrow newrow => NotLost table origrow newrow table' ↔
      FitsInto order table (rows.erase origrow) newrow

theorem HasRows.notLost_iff {table' : DataTable} {origrow newrow : Addr} {added : Bool}
    {rows' : List Addr} (hasRows : HasRows order table rows) (present : origrow ∈ rows)
    (adds : Adds order (table.removeRow origrow) (rows.erase origrow) newrow
      (FitsInto order (table.removeRow origrow) (rows.erase origrow) newrow) (table', added)
      rows') :
    NotLost table origrow newrow table' ↔ FitsInto order table (rows.erase origrow) newrow := by
  have removed := (hasRows.replaceRow present newrow).1
  have gone : origrow ∉ rows.erase origrow := hasRows.linked.nodup.not_mem_erase
  rw [NotLost, adds.hasRows.inTable_iff, adds.hasRows.inTable_iff, removed.inTable_iff]
  refine Iff.trans ?_ adds.added_iff
  cases added with
  | true =>
      rcases adds.accepted rfl with ⟨fresh, perm⟩
      apply iff_of_true _ rfl
      exact .inr ⟨fresh, perm.mem_iff.mpr List.mem_cons_self⟩
  | false =>
      rw [adds.refused rfl]
      apply iff_of_false _ nofun
      rintro (kept | ⟨fresh, mem⟩)
      · exact gone kept
      · exact fresh mem

theorem HasRows.call (hasRows : HasRows order table rows) {rowCall : RowCall}
    (allowed : table.Allows rowCall) :
    ∃ table' added rows', Settles (fun fuel => table.call order fuel rowCall) (table', added) ∧
      HasRows order table' rows' ∧ Does order table rows table' added rows' rowCall := by
  cases rowCall with
  | prepare row memory =>
      have kept : row ∈ rows → memory = table.rows row := fun mem =>
        absurd (hasRows.inTable_iff.mpr mem) allowed
      exact ⟨_, true, rows, ⟨0, fun _ _ => rfl⟩, hasRows.setRow kept, rfl⟩
  | add row =>
      rcases hasRows.addRow row with ⟨⟨table', added⟩, rows', settles, adds⟩
      refine ⟨table', added, rows', settles, adds.hasRows, ?_⟩
      cases added with
      | true => exact adds.accepted rfl
      | false => exact ⟨adds.refused rfl, adds.oid_eq⟩
  | remove row =>
      have present := hasRows.inTable_iff.mp allowed
      have removed := (hasRows.replaceRow present row).1
      exact ⟨_, true, _, ⟨0, fun _ _ => rfl⟩, removed, rfl⟩
  | replace origrow newrow =>
      have present := hasRows.inTable_iff.mp allowed
      rcases (hasRows.replaceRow present newrow).2 with ⟨⟨table', added⟩, rows', settles, adds⟩
      exact ⟨table', true, rows', settles.map (·, true), adds.hasRows,
        hasRows.notLost_iff present adds⟩

theorem Reached.hasRows (reached : Reached order table) : ∃ rows, HasRows order table rows := by
  induction reached with
  | empty storeIndexes memory links => exact ⟨[], hasRows_empty storeIndexes memory links⟩
  | call _ allowed returns ih =>
      rcases ih with ⟨rows, hasRows⟩
      rcases hasRows.call allowed with ⟨table', added, rows', settles, after, -⟩
      rcases Prod.mk.inj (settles.unique returns) with ⟨rfl, -⟩
      exact ⟨rows', after⟩

/-- After any calls the table stores its rows in order, and so it does after one more call. -/
theorem dataTable_stores_and_replaces_iff (order : ByteOrder) (table : DataTable)
    (reached : Reached order table) :
    ∃ rows, Stores table rows ∧ ∀ rowCall, table.Allows rowCall → ∃ table' added rows',
      Settles (fun fuel => table.call order fuel rowCall) (table', added) ∧
        Stores table' rows' ∧ Does order table rows table' added rows' rowCall := by
  rcases reached.hasRows with ⟨rows, hasRows⟩
  refine ⟨rows, hasRows.stores, ?_⟩
  intro rowCall allowed
  rcases hasRows.call allowed with ⟨table', added, rows', settles, after, does⟩
  exact ⟨table', added, rows', settles, after.stores, does⟩

/-- The row at 0 has the index 1, the row at 2 the index 0, and the others have none. -/
def indexedRows (row : Addr) : DataRow :=
  if row = 0 then ⟨none, some [1], 1⟩ else if row = 2 then ⟨none, some [0], 1⟩ else ⟨none, none, 0⟩

def oneRow : DataTable :=
  ((empty true indexedRows ⟨fun _ => none, fun _ => none⟩).setRow 0 (indexedRows 0)).insertRow
    none 0 none

theorem oneRow_reached : Reached .littleEndian oneRow := by
  apply @Reached.call _ _ _ (.add 0) true
    (Reached.empty true indexedRows ⟨fun _ => none, fun _ => none⟩) trivial
  refine ⟨1, fun fuel enough => ?_⟩
  rcases fuel with _ | fuel
  · exact absurd enough (Nat.not_succ_le_zero _)
  · rfl

def twoRows : DataTable := (oneRow.setRow 2 (indexedRows 2)).insertRow none 2 (some 0)

theorem twoRows_reached : Reached .littleEndian twoRows := by
  apply @Reached.call _ _ _ (.add 2) true oneRow_reached trivial
  refine ⟨1, fun fuel enough => ?_⟩
  rcases fuel with _ | fuel
  · exact absurd enough (Nat.not_succ_le_zero _)
  · rfl

theorem dataTable_stores_twoRows :
    Reached .littleEndian twoRows ∧ ∃ rows, Stores twoRows rows ∧
      ∀ rowCall, twoRows.Allows rowCall → ∃ table' added rows',
        Settles (fun fuel => twoRows.call .littleEndian fuel rowCall) (table', added) ∧
          Stores table' rows' ∧ Does .littleEndian twoRows rows table' added rows' rowCall :=
  ⟨twoRows_reached, dataTable_stores_and_replaces_iff .littleEndian twoRows twoRows_reached⟩

/-- A row is replaced by one without an index OID, and neither is in the table. -/
theorem not_dataTable_replaces :
    ¬ ∀ (order : ByteOrder) (table : DataTable), Reached order table →
      ∀ (origrow newrow : Addr), table.InTable origrow → ∀ table' added,
        Settles (fun fuel => table.call order fuel (.replace origrow newrow)) (table', added) →
          NotLost table origrow newrow table' := by
  intro replaces
  have inTable : oneRow.InTable 0 :=
    ⟨[0], ⟨⟨rfl, rfl, rfl⟩, List.nodup_singleton 0⟩, List.mem_singleton_self 0⟩
  rcases oneRow_reached.hasRows with ⟨rows, hasRows⟩
  rcases @HasRows.call _ _ _ hasRows (.replace 0 1) inTable with
    ⟨table', added, rows', settles, after, does⟩
  have fits := does.mp (replaces _ _ oneRow_reached 0 1 inTable table' added settles)
  exact fits.1 rfl

end DataTable

end NetSnmp
