import NetSnmp.Index.Codec
import NetSnmp.Table.Columns
import NetSnmp.Table.Instances

/-!
# The table helper

What `table_helper_handler` makes of the name in a GETNEXT request: the column and the indexes, for
the handlers below it.
-/

namespace NetSnmp

/-- `netsnmp_table_request_info` -/
structure TableRequestInfo where
  colnum : Nat
  /-- `index_oid` up to `index_oid_len` -/
  indexOid : Oid
  numberIndexes : Nat
  indexes : List VariableList

/-- A request behind the table helper: `processed` is set, or there is no valid column, or the
handlers below are called with the name and the information on the table. -/
inductive TableRequest where
  | processed
  | skipped
  | found (name : Oid) (info : TableRequestInfo)

/-- The check that a name is in the range of the table: the name, which is set to the root in front
of the table, and none if it is out of range. -/
def inTableRange (rootoid name : Oid) : Option Oid :=
  let tmpLen := if name.length < rootoid.length then name.length else rootoid.length
  if 0 < snmpOidCompare rootoid (name.take tmpLen) then some rootoid
  else if rootoid.length < name.length ∧ name.getD rootoid.length 0 ≠ 1 then
    if name.getD rootoid.length 0 < 1 then some (name.take rootoid.length) else none
  else some name

/-- The loop over the indexes: the number of those that were parsed, the indexes with their values,
and `tmp_len`. -/
def parseIndexes (order : ByteOrder) : (incomplete : Bool) → (tmpLen : Int) → (tmpName : Oid) →
    (numberIndexes : Nat) → List VariableList → Nat × List VariableList × Int
  | _, tmpLen, _, numberIndexes, [] => (numberIndexes, [], tmpLen)
  | incomplete, tmpLen, tmpName, numberIndexes, vb :: indexes =>
      if incomplete = true ∧ tmpLen ≠ 0 then (numberIndexes, vb :: indexes, 0)
      else
        match parseOneOidIndex order true (tmpName.take tmpLen.toNat) vb with
        | none =>
            let (numberIndexes, indexes, tmpLen) :=
              parseIndexes order true (-1) tmpName numberIndexes indexes
            (numberIndexes, vb :: indexes, tmpLen)
        | some (vb, rest) =>
            -- incomplete indexes are not counted
            let numberIndexes := if incomplete then numberIndexes else numberIndexes + 1
            let last : Bool := !incomplete && rest.length = 0
            let (numberIndexes, indexes, tmpLen) :=
              parseIndexes order (incomplete || last) (if last then -1 else rest.length) rest
                numberIndexes indexes
            (numberIndexes, vb :: indexes, tmpLen)

section

variable (order : ByteOrder) (tblInfo : TableRegistrationInfo) (rootoid : Oid)

def tableIndexes (name : Oid) (nameLength colnum : Nat) : TableRequest :=
  let name := name.take nameLength
  let indexOid := name.drop (rootoid.length + 2)
  let incomplete : Bool := indexOid.length = 0
  let (numberIndexes, indexes, _) :=
    parseIndexes order incomplete (if incomplete then -1 else indexOid.length) indexOid 0
      tblInfo.indexes
  .found name ⟨colnum, indexOid, numberIndexes, indexes⟩

/-- The verification of the column. The number is read behind a name that was cut in front of it. -/
def tableColumn (name : Oid) (nameLength colnum : Nat) : TableRequest :=
  if tblInfo.validColumns = [] then tableIndexes order tblInfo rootoid name nameLength colnum
  else
    let column := name.getD (rootoid.length + 1) 0
    let colnum := netsnmpClosestColumn column tblInfo.validColumns
    if colnum = 0 then .skipped
    else if colnum ≠ column then
      tableIndexes order tblInfo rootoid name (rootoid.length + 2) colnum
    else tableIndexes order tblInfo rootoid name nameLength colnum

/-- `table_helper_handler` for a request in mode `MODE_GETNEXT`. -/
def tableHelperHandler (name : Oid) : TableRequest :=
  match inTableRange rootoid name with
  | none => .processed
  | some name =>
      if rootoid.length + 1 < name.length then
        let column := name.getD (rootoid.length + 1) 0
        if column < tblInfo.minColumn then
          tableColumn order tblInfo rootoid name (rootoid.length + 1) tblInfo.minColumn
        else if tblInfo.maxColumn < column then .processed
        else tableColumn order tblInfo rootoid name name.length column
      else tableIndexes order tblInfo rootoid name name.length tblInfo.minColumn

end

variable {order : ByteOrder} {tblInfo : TableRegistrationInfo} {rootoid name : Oid}

theorem take_le (name : Oid) (count : Nat) : name.take count ≤ name := by
  apply le_of_not_gt
  intro less
  have appended : name.take count ++ name.drop count < name.take count ++ [] := by
    rwa [List.take_append_drop, List.append_nil]
  rw [append_lt_append_iff_left] at appended
  exact List.not_lt_nil _ appended

theorem inTableRange_before (before : name < rootoid) : inTableRange rootoid name =
    some rootoid := by
  have greater : 0 < snmpOidCompare rootoid
      (name.take (if name.length < rootoid.length then name.length else rootoid.length)) := by
    apply lexCompare_pos_iff.mpr
    exact lt_of_le_of_lt (take_le name _) before
  rw [inTableRange, if_pos greater]

theorem take_root (rootoid rest : Oid) :
    (rootoid ++ rest).take (if (rootoid ++ rest).length < rootoid.length then
      (rootoid ++ rest).length else rootoid.length) = rootoid := by
  rw [if_neg (by simp), List.take_left]

theorem not_before_root (rootoid rest : Oid) :
    ¬0 < snmpOidCompare rootoid ((rootoid ++ rest).take
      (if (rootoid ++ rest).length < rootoid.length then (rootoid ++ rest).length
        else rootoid.length)) := by
  rw [take_root, snmpOidCompare, lexCompare_self]
  exact lt_irrefl 0

theorem inTableRange_root : inTableRange rootoid rootoid = some rootoid := by
  have notBefore := not_before_root rootoid []
  rw [List.append_nil] at notBefore
  rw [inTableRange, if_neg notBefore]
  simp

theorem inTableRange_append (arc : Nat) (rest : Oid) :
    inTableRange rootoid (rootoid ++ arc :: rest) =
      if arc = 1 then some (rootoid ++ arc :: rest) else if arc < 1 then some rootoid
        else none := by
  rw [inTableRange, if_neg (not_before_root _ _)]
  have longer : rootoid.length < (rootoid ++ arc :: rest).length := by simp
  have first : (rootoid ++ arc :: rest).getD rootoid.length 0 = arc := by simp
  simp only [longer, first, true_and, List.take_left]
  by_cases entry : arc = 1
  · simp [entry]
  · simp [entry]

def FirstIndexParses (order : ByteOrder) (tblInfo : TableRegistrationInfo)
    (indexOid : Oid) : Prop :=
  (parseOneOidIndex order true indexOid (tblInfo.indexes.head tblInfo.indexed)).isSome = true

theorem parseIndexes_incomplete (order : ByteOrder) {tmpLen : Int} (tmpName : Oid)
    (numberIndexes : Nat) (indexes : List VariableList) (set : tmpLen ≠ 0) :
    parseIndexes order true tmpLen tmpName numberIndexes indexes =
      (numberIndexes, indexes, if indexes = [] then tmpLen else 0) := by
  cases indexes with
  | nil => rfl
  | cons vb indexes => simp [parseIndexes, set]

theorem le_parseIndexes (order : ByteOrder) (incomplete : Bool) (tmpLen : Int) (tmpName : Oid)
    (numberIndexes : Nat)
    (indexes : List VariableList) :
    numberIndexes ≤ (parseIndexes order incomplete tmpLen tmpName numberIndexes indexes).1 := by
  induction indexes generalizing incomplete tmpLen tmpName numberIndexes with
  | nil => exact le_rfl
  | cons vb indexes ih =>
      rw [parseIndexes]
      split
      · exact le_rfl
      · split
        · exact ih true (-1) tmpName numberIndexes
        · rename_i parsed rest _
          apply le_trans _ (ih _ _ rest _)
          split <;> omega

theorem tableIndexes_of_short {nameLength : Nat} (short : nameLength ≤ rootoid.length + 2)
    (colnum : Nat) : tableIndexes order tblInfo rootoid name nameLength colnum =
      .found (name.take nameLength) ⟨colnum, [], 0, tblInfo.indexes⟩ := by
  have noIndex : (name.take nameLength).drop (rootoid.length + 2) = [] := by
    apply List.drop_eq_nil_of_le
    rw [List.length_take]
    omega
  simp [tableIndexes, noIndex, parseIndexes_incomplete]

theorem tableIndexes_instanceName (column : Nat) (index : Oid) :
    ∃ numberIndexes indexes,
      tableIndexes order tblInfo rootoid (instanceName rootoid column index)
          (instanceName rootoid column index).length column =
        .found (instanceName rootoid column index) ⟨column, index, numberIndexes, indexes⟩ ∧
      (numberIndexes ≠ 0 ↔ index ≠ [] ∧ FirstIndexParses order tblInfo index) := by
  have indexOid := drop_instanceName rootoid column index
  refine ⟨_, _, by rw [tableIndexes, List.take_length]; simp only [indexOid]; rfl, ?_⟩
  by_cases empty : index = []
  · simp [empty, parseIndexes_incomplete]
  · have length_ne : index.length ≠ 0 := by simpa using empty
    cases indexes_eq : tblInfo.indexes with
    | nil => exact absurd indexes_eq tblInfo.indexed
    | cons vb indexes =>
        have first : tblInfo.indexes.head tblInfo.indexed = vb := by simp [indexes_eq]
        simp only [length_ne, decide_false, Bool.false_eq_true, if_false, false_and,
          parseIndexes, Int.toNat_natCast, List.take_length, FirstIndexParses, first, empty,
          ne_eq, not_false_eq_true, true_and]
        cases first_eq : parseOneOidIndex order true index vb with
        | none => simp [parseIndexes_incomplete]
        | some result =>
            obtain ⟨vb', rest⟩ := result
            simp only [Bool.false_or, Bool.not_false, Bool.true_and, Nat.zero_add,
              Option.isSome_some, iff_true]
            have counted := le_parseIndexes order (decide (rest.length = 0))
              (if decide (rest.length = 0) = true then -1 else rest.length) rest 1 indexes
            omega

/-- A column that is found in place of one that there is not. -/
structure IsNextColumn (tblInfo : TableRegistrationInfo) (column colnum : Nat) : Prop where
  isColumn : tblInfo.Column colnum
  behind : column < colnum
  least : ∀ other, tblInfo.Column other → column < other → colnum ≤ other

theorem closest_isClosest (hasColumns : tblInfo.validColumns ≠ []) (current : Nat) :
    IsClosest current (netsnmpClosestColumn current tblInfo.validColumns) tblInfo.Column := by
  have same : tblInfo.Column = IsContained tblInfo.validColumns := by
    funext column
    simp [TableRegistrationInfo.Column, IsColumn, hasColumns]
  rw [same]
  exact netsnmpClosestColumn_isClosest tblInfo.noZero current

theorem tableHelperHandler_of_range {name' : Oid} (inRange : inTableRange rootoid name = some name')
    (short : name'.length ≤ rootoid.length + 1) :
    tableHelperHandler order tblInfo rootoid name =
      .found name' ⟨tblInfo.minColumn, [], 0, tblInfo.indexes⟩ := by
  have notLong : ¬rootoid.length + 1 < name'.length := by omega
  simp only [tableHelperHandler, inRange, notLong, if_false]
  rw [tableIndexes_of_short (by omega), List.take_length]

theorem tableHelperHandler_before (before : name < rootoid) :
    tableHelperHandler order tblInfo rootoid name =
      .found rootoid ⟨tblInfo.minColumn, [], 0, tblInfo.indexes⟩ :=
  tableHelperHandler_of_range (inTableRange_before before) (by omega)

theorem tableHelperHandler_root : tableHelperHandler order tblInfo rootoid rootoid =
    .found rootoid ⟨tblInfo.minColumn, [], 0, tblInfo.indexes⟩ :=
  tableHelperHandler_of_range inTableRange_root (by omega)

theorem tableHelperHandler_beforeEntry (rest : Oid) :
    tableHelperHandler order tblInfo rootoid (rootoid ++ 0 :: rest) =
      .found rootoid ⟨tblInfo.minColumn, [], 0, tblInfo.indexes⟩ :=
  tableHelperHandler_of_range (inTableRange_append 0 rest) (by omega)

theorem tableHelperHandler_entry : tableHelperHandler order tblInfo rootoid (rootoid ++ [1]) =
    .found (rootoid ++ [1]) ⟨tblInfo.minColumn, [], 0, tblInfo.indexes⟩ :=
  tableHelperHandler_of_range (inTableRange_append 1 []) (by simp)

theorem tableHelperHandler_behindEntry {arc : Nat} (rest : Oid) (behind : 1 < arc) :
    tableHelperHandler order tblInfo rootoid (rootoid ++ arc :: rest) = .processed := by
  have outOfRange : inTableRange rootoid (rootoid ++ arc :: rest) = none := by
    rw [inTableRange_append, if_neg (by omega), if_neg (by omega)]
  simp only [tableHelperHandler, outOfRange]

theorem tableHelperHandler_instanceName (column : Nat) (index : Oid) :
    tableHelperHandler order tblInfo rootoid (instanceName rootoid column index) =
      if column < tblInfo.minColumn then
        tableColumn order tblInfo rootoid (instanceName rootoid column index) (rootoid.length + 1)
          tblInfo.minColumn
      else if tblInfo.maxColumn < column then .processed
      else
        tableColumn order tblInfo rootoid (instanceName rootoid column index)
          (instanceName rootoid column index).length column := by
  have inRange : inTableRange rootoid (instanceName rootoid column index) =
      some (instanceName rootoid column index) := inTableRange_append 1 (column :: index)
  have long : rootoid.length + 1 < (instanceName rootoid column index).length := by
    simp [instanceName]
  have column_eq : (instanceName rootoid column index).getD (rootoid.length + 1) 0 = column := by
    simp [instanceName]
  simp only [tableHelperHandler, inRange, long, if_true, column_eq]

theorem getD_instanceName (rootoid : Oid) (column : Nat) (index : Oid) :
    (instanceName rootoid column index).getD (rootoid.length + 1) 0 = column := by
  simp [instanceName]

theorem tableHelperHandler_behind {column : Nat} (behind : tblInfo.maxColumn < column)
    (index : Oid) :
    tableHelperHandler order tblInfo rootoid (instanceName rootoid column index) = .processed := by
  have range := tblInfo.between _ tblInfo.min_isColumn
  rw [tableHelperHandler_instanceName, if_neg (by omega), if_pos behind]

theorem tableHelperHandler_column (order : ByteOrder) (rootoid : Oid) {column : Nat}
    (isColumn : tblInfo.Column column) (index : Oid) :
    ∃ numberIndexes indexes,
      tableHelperHandler order tblInfo rootoid (instanceName rootoid column index) =
        .found (instanceName rootoid column index) ⟨column, index, numberIndexes, indexes⟩ ∧
      (numberIndexes ≠ 0 ↔ index ≠ [] ∧ FirstIndexParses order tblInfo index) := by
  have range := tblInfo.between column isColumn
  have handled : tableHelperHandler order tblInfo rootoid (instanceName rootoid column index) =
      tableIndexes order tblInfo rootoid (instanceName rootoid column index)
        (instanceName rootoid column index).length column := by
    rw [tableHelperHandler_instanceName, if_neg (by omega), if_neg (by omega), tableColumn]
    split
    · rfl
    · rename_i hasColumns
      have isClosest := closest_isClosest hasColumns column
      obtain ⟨set, le⟩ := isClosest.least column isColumn le_rfl
      have ge := (isClosest.found set).2
      have exactly : netsnmpClosestColumn column tblInfo.validColumns = column := by omega
      rw [exactly] at set
      rw [getD_instanceName]
      simp only [exactly, set, ne_eq, not_true_eq_false, if_false]
  rw [handled]
  exact tableIndexes_instanceName column index

theorem tableHelperHandler_notColumn (order : ByteOrder) (rootoid : Oid) {column : Nat}
    (notColumn : ¬tblInfo.Column column)
    (le : column ≤ tblInfo.maxColumn) (index : Oid) :
    ∃ name colnum, tableHelperHandler order tblInfo rootoid (instanceName rootoid column index) =
        .found name ⟨colnum, [], 0, tblInfo.indexes⟩ ∧ IsNextColumn tblInfo column colnum ∧
      (tblInfo.validColumns = [] → name = rootoid ++ [1] ∧ colnum = tblInfo.minColumn) ∧
      (name = rootoid ++ [1] ∧ column < tblInfo.minColumn ∨
        name = instanceName rootoid column []) := by
  have name_take : (instanceName rootoid column index).take (rootoid.length + 1) =
    rootoid ++ [1] := by
    have whole : instanceName rootoid column index = (rootoid ++ [1]) ++ column :: index := by
      simp [instanceName]
    rw [whole]
    exact List.take_left' (by simp)
  rw [tableHelperHandler_instanceName]
  by_cases hasColumns : tblInfo.validColumns = []
  · have below : column < tblInfo.minColumn := by
      simp only [TableRegistrationInfo.Column, IsColumn, hasColumns, if_true] at notColumn
      omega
    have first : IsNextColumn tblInfo column tblInfo.minColumn :=
      ⟨tblInfo.min_isColumn, below, fun other isColumn _ => (tblInfo.between other isColumn).1⟩
    refine ⟨rootoid ++ [1], tblInfo.minColumn, ?_, first, fun _ => ⟨rfl, rfl⟩, .inl ⟨rfl, below⟩⟩
    rw [if_pos below, tableColumn, if_pos hasColumns, tableIndexes_of_short (by omega), name_take]
  · have isClosest := closest_isClosest hasColumns column
    obtain ⟨set, -⟩ := isClosest.least _ tblInfo.max_isColumn le
    obtain ⟨isColumn, ge⟩ := isClosest.found set
    have different : netsnmpClosestColumn column tblInfo.validColumns ≠ column := by
      intro same
      rw [same] at isColumn
      exact notColumn isColumn
    have next : IsNextColumn tblInfo column (netsnmpClosestColumn column tblInfo.validColumns) :=
      ⟨isColumn, by omega, fun other otherColumn behind =>
        (isClosest.least other otherColumn (by omega)).2⟩
    have handled (nameLength colnum : Nat) :
        tableColumn order tblInfo rootoid (instanceName rootoid column index) nameLength colnum =
          .found ((instanceName rootoid column index).take (rootoid.length + 2))
            ⟨netsnmpClosestColumn column tblInfo.validColumns, [], 0, tblInfo.indexes⟩ := by
      rw [tableColumn, if_neg hasColumns, getD_instanceName]
      simp only [set, different, ne_eq, not_false_eq_true, if_true, if_false]
      exact tableIndexes_of_short le_rfl _
    have cut : (instanceName rootoid column index).take (rootoid.length + 2) =
        instanceName rootoid column [] := by
      have whole : instanceName rootoid column index = instanceName rootoid column [] ++ index := by
        simp [instanceName]
      rw [whole]
      exact List.take_left' (by simp [instanceName])
    refine ⟨(instanceName rootoid column index).take (rootoid.length + 2), _, ?_, next,
      fun noColumns => absurd noColumns hasColumns, .inr cut⟩
    rw [handled, handled, if_neg (show ¬tblInfo.maxColumn < column by omega), ite_self]

/-- What the name and the column behind the helper say of the name that was requested: the same
instances are behind both, and none of them is in an earlier column. -/
structure Decodes (tblInfo : TableRegistrationInfo) (rootoid name name' : Oid) (colnum : Nat) :
    Prop where
  isColumn : tblInfo.Column colnum
  same : ∀ column index, tblInfo.Column column →
    (name' < instanceName rootoid column index ↔ name < instanceName rootoid column index)
  first : ∀ column index, tblInfo.Column column → name < instanceName rootoid column index →
    colnum ≤ column

theorem decodes_front {name' : Oid}
    (front : ∀ column index, name < instanceName rootoid column index)
    (front' : ∀ column index, name' < instanceName rootoid column index) :
    Decodes tblInfo rootoid name name' tblInfo.minColumn :=
  ⟨tblInfo.min_isColumn, fun column index _ => iff_of_true (front' column index)
    (front column index),
    fun column _ isColumn _ => (tblInfo.between column isColumn).1⟩

theorem tableHelperHandler_decodes (order : ByteOrder) (tblInfo : TableRegistrationInfo)
    (notBeyond : NotBeyond rootoid name) :
    (tableHelperHandler order tblInfo rootoid name = .processed ∧
      ∀ column index, tblInfo.Column column → ¬name < instanceName rootoid column index) ∨
    ∃ name' tblreq, tableHelperHandler order tblInfo rootoid name = .found name' tblreq ∧
      Decodes tblInfo rootoid name name' tblreq.colnum := by
  cases notBeyond.place with
  | before before =>
      exact .inr ⟨_, _, tableHelperHandler_before before, decodes_front
        (fun _ _ => before_lt_instanceName before) fun _ _ => root_lt_instanceName⟩
  | root =>
      exact .inr ⟨_, _, tableHelperHandler_root, decodes_front
        (fun _ _ => root_lt_instanceName) fun _ _ => root_lt_instanceName⟩
  | beforeEntry rest =>
      exact .inr ⟨_, _, tableHelperHandler_beforeEntry rest, decodes_front
        (fun _ _ => beforeEntry_lt_instanceName rest) fun _ _ => root_lt_instanceName⟩
  | entry =>
      exact .inr ⟨_, _, tableHelperHandler_entry, decodes_front
        (fun _ _ => entry_lt_instanceName) fun _ _ => entry_lt_instanceName⟩
  | behindEntry arc rest behind =>
      exact .inl ⟨tableHelperHandler_behindEntry rest behind,
        fun _ _ _ => not_behindEntry_lt_instanceName rest behind⟩
  | column column index =>
      by_cases behind : tblInfo.maxColumn < column
      · refine .inl ⟨tableHelperHandler_behind behind index, ?_⟩
        intro other index' otherColumn less
        have range := tblInfo.between other otherColumn
        rcases instanceName_lt_iff.mp less with lt | ⟨same, -⟩
        · omega
        · omega
      · right
        by_cases isColumn : tblInfo.Column column
        · obtain ⟨numberIndexes, indexes, handled, -⟩ :=
            tableHelperHandler_column order rootoid isColumn index
          refine ⟨_, _, handled, isColumn, fun _ _ _ => Iff.rfl, ?_⟩
          intro other index' _ less
          rcases instanceName_lt_iff.mp less with lt | ⟨same, -⟩
          · exact le_of_lt lt
          · exact le_of_eq same
        · obtain ⟨name', colnum, handled, next, -, named⟩ := tableHelperHandler_notColumn
            order rootoid isColumn (not_lt.mp behind) index
          have behindColumn {other : Nat} {index' : Oid} (otherColumn : tblInfo.Column other)
              (less : instanceName rootoid column index < instanceName rootoid other index') :
              column < other := by
            rcases instanceName_lt_iff.mp less with lt | ⟨rfl, -⟩
            · exact lt
            · exact absurd otherColumn isColumn
          refine ⟨_, _, handled, next.isColumn, ?_, fun other _ otherColumn less =>
            next.least other otherColumn (behindColumn otherColumn less)⟩
          intro other index' otherColumn
          rcases named with ⟨rfl, below⟩ | rfl
          · apply iff_of_true entry_lt_instanceName
            have range := tblInfo.between other otherColumn
            exact instanceName_lt_iff.mpr (.inl (by omega))
          · constructor
            · intro less
              rcases instanceName_lt_iff.mp less with lt | ⟨rfl, -⟩
              · exact instanceName_lt_iff.mpr (.inl lt)
              · exact absurd otherColumn isColumn
            · intro less
              exact instanceName_lt_iff.mpr (.inl (behindColumn otherColumn less))

end NetSnmp
