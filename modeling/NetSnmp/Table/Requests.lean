import NetSnmp.Agentx.Master
import NetSnmp.Table.ColumnSearch
import NetSnmp.Table.Helper
import NetSnmp.Table.IndexDecode

/-!
# Requests for instances of a table

What `table_helper_handler` lets through to the next handler of the requests in the modes `MODE_GET`
and `MODE_SET_RESERVE1`.
-/

namespace NetSnmp

namespace TableRequests

open IndexDecode

abbrev snmpErrWrongtype : Int := 7

inductive Mode where
  | get
  | setReserve1
  deriving DecidableEq, Repr

/-- `netsnmp_table_registration_info` -/
structure Registration where
  indexes : List VariableList
  minColumn : Nat
  maxColumn : Nat
  validColumns : List ColumnInfo
  indexed : indexes ≠ []
  areTemplates : ∀ template ∈ indexes, IsTemplate template
  small : maxColumn < 2 ^ 32

/-- `netsnmp_request_info`, with the name and the type of its variable and the data of the table
helper. -/
structure Request where
  name : Oid
  type : Byte
  processed : Bool
  status : Int
  tableInfo : Option TableRequestInfo

/-- How the loop over the requests goes on: with the next request, after `need_processing` was
counted or not, or behind the loop. -/
inductive Flow where
  | skip
  | count
  | stop
  deriving DecidableEq, Repr

/-- `netsnmp_set_request_error` -/
def setRequestError (mode : Mode) (errorValue : Int) (request : Request) : Request :=
  let request := { request with processed := true }
  if isException errorValue then
    match mode with
    | .get => { request with type := UInt8.ofNat errorValue.toNat }
    | .setReserve1 => { request with status := snmpErrNocreation }
  else if errorValue < 0 then { request with status := snmpErrGenerr }
  else { request with status := errorValue }

def tableHelperCleanup (mode : Mode) (status : Int) (request : Request) : Request :=
  { setRequestError mode status request with tableInfo := none }

def noObject : Mode → Int
  | .get => snmpNosuchobject.toNat
  | .setReserve1 => snmpErrNotwritable

def isOutOfRange (rootoid name : Oid) : Bool :=
  let tmpLen := if name.length < rootoid.length then name.length else rootoid.length
  decide (0 < snmpOidCompare rootoid (name.take tmpLen)) ||
    decide (rootoid.length < name.length) && decide (name.getD rootoid.length 0 ≠ 1)

section

variable (order : ByteOrder) (tblInfo : Registration) (rootoid : Oid) (mode : Mode)

def tableRequestInfo (request : Request) : TableRequestInfo :=
  request.tableInfo.getD ⟨0, [], 0, tblInfo.indexes⟩

def requestIndexes (request : Request) (info : TableRequestInfo) : Request × Flow :=
  let incomplete : Bool := info.indexOid.length = 0
  let (numberIndexes, indexes, tmpLen) :=
    parseIndexes order incomplete (if incomplete then -1 else info.indexOid.length) info.indexOid
      info.numberIndexes info.indexes
  let request := { request with tableInfo := some { info with numberIndexes, indexes } }
  if numberIndexes ≠ tblInfo.indexes.length ∨ tmpLen ≠ -1 then
    match mode with
    | .setReserve1 => (tableHelperCleanup mode snmpErrNocreation request, .stop)
    | .get => (tableHelperCleanup mode snmpNosuchinstance.toNat request, .skip)
  else (request, .count)

def requestColumn (request : Request) : Request × Flow :=
  let info := tableRequestInfo tblInfo request
  let column := request.name.getD (rootoid.length + 1) 0
  if column < tblInfo.minColumn ∨ tblInfo.maxColumn < column then
    (tableHelperCleanup mode (noObject mode) request, .skip)
  else if tblInfo.validColumns = [] then
    requestIndexes order tblInfo mode request
      { info with colnum := column, indexOid := request.name.drop (rootoid.length + 2) }
  else
    let colnum := netsnmpClosestColumn column tblInfo.validColumns
    if colnum = 0 then ({ request with tableInfo := some { info with colnum } }, .skip)
    else
      let name :=
        if colnum ≠ column then request.name.take (rootoid.length + 2) else request.name
      requestIndexes order tblInfo mode { request with name }
        { info with colnum, indexOid := name.drop (rootoid.length + 2) }

def requestStep (request : Request) : Request × Flow :=
  if request.processed then (request, .skip)
  else if mode = .get ∧ request.type ≠ asnNull then
    (setRequestError mode snmpErrWrongtype request, .skip)
  else if isOutOfRange rootoid request.name then
    (tableHelperCleanup mode (noObject mode) request, .skip)
  else if rootoid.length + 1 < request.name.length then
    requestColumn order tblInfo rootoid mode request
  else (tableHelperCleanup mode (noObject mode) request, .skip)

/-- The loop over the requests: the requests, `need_processing`, and whether it is left early. -/
def requestsLoop : List Request → List Request × Nat × Bool
  | [] => ([], 0, false)
  | request :: requests =>
      let (request, flow) := requestStep order tblInfo rootoid mode request
      match flow with
      | .stop => (request :: requests, 0, true)
      | .skip =>
          let (requests, needProcessing, stopped) := requestsLoop requests
          (request :: requests, needProcessing, stopped)
      | .count =>
          let (requests, needProcessing, stopped) := requestsLoop requests
          (request :: requests, needProcessing + 1, stopped)

/-- The requests behind the helper, and whether the next handler is called with them. -/
structure Handled where
  requests : List Request
  called : Bool

/-- `netsnmp_free_request_data_sets` for the first request of a list. -/
def freeRequestDataSets : List Request → List Request
  | [] => []
  | request :: requests => { request with tableInfo := none } :: requests

/-- `table_helper_handler`; the agent may hold data for the next handler already. -/
def tableHelperHandler (stateReference : Bool) (requests : List Request) : Handled :=
  if stateReference = true ∧ mode = .setReserve1 then ⟨requests, true⟩
  else
    let (requests, needProcessing, stopped) := requestsLoop order tblInfo rootoid mode requests
    if stopped then ⟨freeRequestDataSets requests, false⟩
    else ⟨requests, decide (needProcessing ≠ 0)⟩

end

def IsValidColumn (tblInfo : Registration) (column : Nat) : Prop :=
  tblInfo.minColumn ≤ column ∧ column ≤ tblInfo.maxColumn ∧
    (tblInfo.validColumns = [] ∨ IsContained tblInfo.validColumns column)

/-- The request is for an instance of the table, and its data is what the name says. -/
structure IsInstance (tblInfo : Registration) (rootoid : Oid) (request : Request) (column : Nat)
    (index : Oid) (info : TableRequestInfo) : Prop where
  name_eq : request.name = instanceName rootoid column index
  valid : IsValidColumn tblInfo column
  info_eq : request.tableInfo = some info
  colnum_eq : info.colnum = column
  numberIndexes_eq : info.numberIndexes = tblInfo.indexes.length
  decodes : IndexDecode.Decodes tblInfo.indexes index info.indexes

/-- Only instances reach the next handler, and names are not changed by a GET. -/
structure LetsInstancesThrough (order : ByteOrder) (tblInfo : Registration) (rootoid : Oid)
    (mode : Mode) (stateReference : Bool) (requests : List Request) : Prop where
  instances : (tableHelperHandler order tblInfo rootoid mode stateReference requests).called =
    true →
    ∀ request ∈ (tableHelperHandler order tblInfo rootoid mode stateReference requests).requests,
      request.processed = false →
        ∃ column index info, IsInstance tblInfo rootoid request column index info
  names : mode = .get →
    (tableHelperHandler order tblInfo rootoid mode stateReference requests).requests.map
      Request.name = requests.map Request.name

/-- What a request in the list is: it was processed before, it is rejected, it has no valid column
at its own or behind it, its column is not valid, its indexes are not readable, or they are. -/
inductive RequestKind where
  | settled
  | refused
  | skipped
  | cut
  | unread
  | read
  deriving DecidableEq, Repr

def columnKind (tblInfo : Registration) (column : Nat) (index : Oid) : RequestKind :=
  if column < tblInfo.minColumn ∨ tblInfo.maxColumn < column then .refused
  else if tblInfo.validColumns ≠ [] ∧ netsnmpClosestColumn column tblInfo.validColumns = 0 then
    .skipped
  else if tblInfo.validColumns ≠ [] ∧ netsnmpClosestColumn column tblInfo.validColumns ≠ column then
    .cut
  else if areReadable tblInfo.indexes index then .read
  else .unread

def requestKind (tblInfo : Registration) (rootoid : Oid) (mode : Mode) (request : Request) :
    RequestKind :=
  if request.processed then .settled
  else if mode = .get ∧ request.type ≠ asnNull then .refused
  else
    match request.name.drop rootoid.length with
    | 1 :: column :: index => columnKind tblInfo column index
    | _ => .refused

def IsForwarded (tblInfo : Registration) (rootoid : Oid) (mode : Mode)
    (requests : List Request) : Prop :=
  (∃ request ∈ requests, requestKind tblInfo rootoid mode request = .read) ∧
    (mode = .setReserve1 → ∀ request ∈ requests,
      requestKind tblInfo rootoid mode request ≠ .cut ∧
        requestKind tblInfo rootoid mode request ≠ .unread)

/-- The agent holds no data for the next handler before the first phase of a SET; where a list is
forwarded, none of its requests is skipped and the indexes of those that are read are whole; and in
a GET there is nothing behind a column that is not valid. -/
structure AreWholeInstances (tblInfo : Registration) (rootoid : Oid) (mode : Mode)
    (stateReference : Bool) (requests : List Request) : Prop where
  firstPhase : stateReference = true → mode = .setReserve1 →
    ∀ request ∈ requests, request.processed = true
  whole : (stateReference = true → mode = .get) → IsForwarded tblInfo rootoid mode requests →
    ∀ request ∈ requests, requestKind tblInfo rootoid mode request ≠ .skipped ∧
      (requestKind tblInfo rootoid mode request = .read →
        areWhole tblInfo.indexes (request.name.drop (rootoid.length + 2)) = true)
  uncut : mode = .get → ∀ request ∈ requests, requestKind tblInfo rootoid mode request = .cut →
    request.name.length = rootoid.length + 2

theorem closestColumnLoop_contained (current closest : Nat) (validColumns : List ColumnInfo) :
    closestColumnLoop current closest validColumns = closest ∨
      IsContained validColumns (closestColumnLoop current closest validColumns) := by
  induction validColumns generalizing closest with
  | nil => exact .inl rfl
  | cons info validColumns ih =>
      have rest (closest : Nat) (found : closestColumnLoop current closest (info :: validColumns) =
          closestColumnLoop current closest validColumns) :
          closestColumnLoop current closest (info :: validColumns) = closest ∨
            IsContained (info :: validColumns)
              (closestColumnLoop current closest (info :: validColumns)) := by
        rw [found]
        apply (ih closest).imp_right
        exact fun contained => isContained_cons.mpr (.inr contained)
      have closer (column : Nat) (names : info.Names column)
          (found : closestColumnLoop current closest (info :: validColumns) =
            closestColumnLoop current (keepCloser closest column) validColumns) :
          closestColumnLoop current closest (info :: validColumns) = closest ∨
            IsContained (info :: validColumns)
              (closestColumnLoop current closest (info :: validColumns)) := by
        rw [found]
        rcases ih (keepCloser closest column) with kept | contained
        · rw [kept, keepCloser]
          split
          · exact .inr (isContained_cons.mpr (.inl names))
          · exact .inl rfl
        · exact .inr (isContained_cons.mpr (.inr contained))
      cases info with
      | range low high ordered small =>
          by_cases before : current < low
          · exact closer low ⟨le_rfl, ordered⟩ (by rw [closestColumnLoop, if_pos before])
          · by_cases inside : current ≤ high
            · right
              rw [closestColumnLoop, if_neg before, if_pos inside]
              exact isContained_cons.mpr (.inl ⟨not_lt.mp before, inside⟩)
            · exact rest closest (by rw [closestColumnLoop, if_neg before, if_neg inside])
      | list columns nonempty sorted small =>
          by_cases before : current < columns.head nonempty
          · exact closer _ (List.head_mem nonempty) (by rw [closestColumnLoop, if_pos before])
          · by_cases behind : columns.getLast nonempty < current
            · exact rest closest (by rw [closestColumnLoop, if_neg before, if_pos behind])
            · cases found : columns.find? fun column => decide (current ≤ column) with
              | none =>
                  apply rest closest
                  rw [closestColumnLoop, if_neg before, if_neg behind, found]
              | some column =>
                  have names := List.mem_of_find?_eq_some found
                  by_cases same : current = column
                  · right
                    rw [closestColumnLoop, if_neg before, if_neg behind, found]
                    simp only [if_pos same]
                    rw [same]
                    exact isContained_cons.mpr (.inl names)
                  · apply closer column names
                    rw [closestColumnLoop, if_neg before, if_neg behind, found]
                    simp only [if_neg same]

theorem isContained_of_closestColumn {column : Nat} {validColumns : List ColumnInfo}
    (closest : netsnmpClosestColumn column validColumns = column)
    (found : netsnmpClosestColumn column validColumns ≠ 0) : IsContained validColumns column := by
  rcases closestColumnLoop_contained column 0 validColumns with none | contained
  · exact absurd none found
  · rw [netsnmpClosestColumn] at closest
    rwa [closest] at contained

variable {order : ByteOrder} {tblInfo : Registration} {rootoid : Oid} {mode : Mode}

/-- All indexes were parsed, and `tmp_len` says that nothing is left. -/
def AreParsed (parsed : Nat × List VariableList × Int) (expected : Nat) : Prop :=
  parsed.1 = expected ∧ parsed.2.2 = -1

theorem parseIndexes_spec (order : ByteOrder) (numberIndexes : Nat) (indexes : List VariableList)
    {oid : Oid} (nonempty : oid ≠ []) :
    match takeIndexes order indexes oid with
    | some values =>
        parseIndexes order false oid.length oid numberIndexes indexes =
          (numberIndexes + indexes.length, values, -1)
    | none =>
        ¬AreParsed (parseIndexes order false oid.length oid numberIndexes indexes)
          (numberIndexes + indexes.length) := by
  induction indexes generalizing oid numberIndexes with
  | nil =>
      simp only [takeIndexes, nonempty, if_false, AreParsed, parseIndexes]
      omega
  | cons vb indexes ih =>
      simp only [takeIndexes, nonempty, if_false, AreParsed, parseIndexes, Bool.false_eq_true,
        false_and, Int.toNat_natCast, List.take_length, List.length_cons]
      cases parsed : parseOneOidIndex order true oid vb with
      | none =>
          have rest := parseIndexes_incomplete order oid numberIndexes indexes
            (show (-1 : Int) ≠ 0 by decide)
          simp only [rest]
          omega
      | some result =>
          rcases result with ⟨value, rest⟩
          by_cases last : rest = []
          · have incomplete := parseIndexes_incomplete order rest (numberIndexes + 1)
              indexes (show (-1 : Int) ≠ 0 by decide)
            subst last
            cases indexes with
            | nil => simp [takeIndexes, parseIndexes]
            | cons vb' indexes =>
                simp [takeIndexes, incomplete]
          · have more : rest.length ≠ 0 := by simpa using last
            have step := ih (numberIndexes + 1) last
            simp only [more, decide_false, Bool.not_false, Bool.and_false, Bool.or_false,
              Bool.false_eq_true, if_false]
            cases taken : takeIndexes order indexes rest with
            | none =>
                simp only [taken] at step
                simp only [Option.map_none]
                intro whole
                exact step ⟨by omega, whole.2⟩
            | some values =>
                simp only [taken] at step
                simp only [Option.map_some, step]
                refine congrArg₂ Prod.mk ?_ rfl
                omega

theorem setRequestError_spec (mode : Mode) (errorValue : Int) (request : Request) :
    (setRequestError mode errorValue request).processed = true ∧
      (setRequestError mode errorValue request).name = request.name := by
  simp only [setRequestError]
  split
  · cases mode with
    | get => exact ⟨rfl, rfl⟩
    | setReserve1 => exact ⟨rfl, rfl⟩
  · split
    · exact ⟨rfl, rfl⟩
    · exact ⟨rfl, rfl⟩

theorem tableHelperCleanup_spec (mode : Mode) (status : Int) (request : Request) :
    (tableHelperCleanup mode status request).processed = true ∧
      (tableHelperCleanup mode status request).name = request.name :=
  setRequestError_spec mode status request

def RequestKind.flow (mode : Mode) : RequestKind → Flow
  | .read => .count
  | .cut | .unread =>
      match mode with
      | .get => .skip
      | .setReserve1 => .stop
  | _ => .skip

structure HandledAs (tblInfo : Registration) (rootoid : Oid) (mode : Mode) (request : Request)
    (kind : RequestKind) (result : Request × Flow) : Prop where
  flow_eq : result.2 = kind.flow mode
  unprocessed_iff : result.1.processed = false ↔ kind = .skipped ∨ kind = .read
  name_eq : result.1.name =
    if kind = .cut then request.name.take (rootoid.length + 2) else request.name
  isInstance_iff : result.1.processed = false →
    ((∃ column index info, IsInstance tblInfo rootoid result.1 column index info) ↔
      kind = .read ∧ areWhole tblInfo.indexes (request.name.drop (rootoid.length + 2)) = true)

variable {request : Request}

theorem handledAs_refused {result : Request} (processed : result.processed = true)
    (name_eq : result.name = request.name) :
    HandledAs tblInfo rootoid mode request .refused (result, .skip) := by
  refine ⟨rfl, ?_, name_eq, ?_⟩
  · simp [processed]
  · simp [processed]

theorem isOutOfRange_append (rootoid rest : Oid) :
    isOutOfRange rootoid (rootoid ++ rest) =
      match rest with
      | [] => false
      | arc :: _ => decide (arc ≠ 1) := by
  have notBefore := not_before_root rootoid rest
  simp only [isOutOfRange, decide_eq_false notBefore, Bool.false_or]
  cases rest with
  | nil => simp
  | cons arc rest => simp

theorem requestIndexes_spec (order : ByteOrder) (tblInfo : Registration) (mode : Mode)
    (request : Request) (colnum : Nat) (index : Oid) :
    match takeIndexes order tblInfo.indexes index with
    | some values =>
        requestIndexes order tblInfo mode request ⟨colnum, index, 0, tblInfo.indexes⟩ =
          ({ request with
              tableInfo := some ⟨colnum, index, tblInfo.indexes.length, values⟩ }, .count)
    | none =>
        let result :=
          requestIndexes order tblInfo mode request ⟨colnum, index, 0, tblInfo.indexes⟩
        result.1.processed = true ∧ result.1.name = request.name ∧
          result.2 = RequestKind.flow mode .unread := by
  have rejected (parsed : Nat × List VariableList × Int)
      (parsed_eq : parseIndexes order (decide (index.length = 0))
        (if decide (index.length = 0) = true then -1 else index.length) index 0 tblInfo.indexes =
          parsed) (incomplete : ¬AreParsed parsed tblInfo.indexes.length) :
      let result := requestIndexes order tblInfo mode request ⟨colnum, index, 0, tblInfo.indexes⟩
      result.1.processed = true ∧ result.1.name = request.name ∧
        result.2 = RequestKind.flow mode .unread := by
    have condition : parsed.1 ≠ tblInfo.indexes.length ∨ parsed.2.2 ≠ -1 := by
      rw [AreParsed, not_and_or] at incomplete
      exact incomplete
    simp only [requestIndexes, parsed_eq, condition, if_true]
    cases mode with
    | get =>
        have cleaned := tableHelperCleanup_spec .get snmpNosuchinstance.toNat
          { request with tableInfo := some ⟨colnum, index, parsed.1, parsed.2.1⟩ }
        exact ⟨cleaned.1, cleaned.2, rfl⟩
    | setReserve1 =>
        have cleaned := tableHelperCleanup_spec .setReserve1 snmpErrNocreation
          { request with tableInfo := some ⟨colnum, index, parsed.1, parsed.2.1⟩ }
        exact ⟨cleaned.1, cleaned.2, rfl⟩
  by_cases empty : index = []
  · have none : takeIndexes order tblInfo.indexes index = none := by
      cases indexes_eq : tblInfo.indexes with
      | nil => exact absurd indexes_eq tblInfo.indexed
      | cons vb indexes => rw [takeIndexes, if_pos empty]
    simp only [none]
    apply rejected _ rfl
    intro whole
    have ended := parseIndexes_incomplete order index 0 tblInfo.indexes
      (show (-1 : Int) ≠ 0 by decide)
    simp only [AreParsed, empty, List.length_nil, decide_true, if_true] at whole
    rw [empty] at ended
    rw [ended, if_neg tblInfo.indexed] at whole
    exact absurd whole.2 (by simp)
  · have length_ne : index.length ≠ 0 := by simpa using empty
    have parsed := parseIndexes_spec order 0 tblInfo.indexes empty
    rw [Nat.zero_add] at parsed
    cases taken : takeIndexes order tblInfo.indexes index with
    | none =>
        simp only [taken] at parsed ⊢
        apply rejected _ _ parsed
        simp only [length_ne, decide_false, Bool.false_eq_true, if_false]
    | some values =>
        simp only [taken] at parsed ⊢
        simp [requestIndexes, length_ne, parsed]

theorem requestColumn_handledAs (order : ByteOrder) {column : Nat} {index : Oid}
    (name_eq : request.name = instanceName rootoid column index)
    (unprocessed : request.processed = false) (fresh : request.tableInfo = none) :
    HandledAs tblInfo rootoid mode request (columnKind tblInfo column index)
      (requestColumn order tblInfo rootoid mode request) := by
  have column_eq : request.name.getD (rootoid.length + 1) 0 = column := by
    rw [name_eq, getD_instanceName]
  have dropped : request.name.drop (rootoid.length + 2) = index := by
    rw [name_eq, drop_instanceName]
  have info_eq : tableRequestInfo tblInfo request = ⟨0, [], 0, tblInfo.indexes⟩ := by
    simp [tableRequestInfo, fresh]
  simp only [requestColumn, columnKind, column_eq, info_eq, dropped]
  by_cases outside : column < tblInfo.minColumn ∨ tblInfo.maxColumn < column
  · rw [if_pos outside, if_pos outside]
    have cleaned := tableHelperCleanup_spec mode (noObject mode) request
    exact handledAs_refused cleaned.1 cleaned.2
  rw [if_neg outside, if_neg outside]
  rw [not_or, not_lt, not_lt] at outside
  -- the part behind the checks, for a column that is valid
  have readIndexes (valid : tblInfo.validColumns = [] ∨ IsContained tblInfo.validColumns column) :
      HandledAs tblInfo rootoid mode request
        (if areReadable tblInfo.indexes index then .read else .unread)
        (requestIndexes order tblInfo mode request ⟨column, index, 0, tblInfo.indexes⟩) := by
    have takes := takenAs order tblInfo.areTemplates index
    have step := requestIndexes_spec order tblInfo mode request column index
    by_cases readable : areReadable tblInfo.indexes index = true
    · rcases takes.readable readable with ⟨values, taken, decodes_iff⟩
      simp only [taken] at step
      rw [if_pos readable, step]
      refine ⟨rfl, by simp [unprocessed], by simp, fun _ => ?_⟩
      rw [dropped, ← decodes_iff]
      constructor
      · rintro ⟨column', index', info, isInstance⟩
        have same := isInstance.name_eq
        simp only [name_eq, instanceName, List.append_cancel_left_eq, List.cons.injEq,
          true_and] at same
        have info_eq := Option.some.inj isInstance.info_eq
        have decodes := isInstance.decodes
        rw [← info_eq, ← same.2] at decodes
        exact ⟨rfl, decodes⟩
      · rintro ⟨-, decodes⟩
        exact ⟨column, index, _, name_eq, ⟨outside.1, outside.2, valid⟩, rfl, rfl, rfl, decodes⟩
    · rw [Bool.not_eq_true] at readable
      simp only [takes.unreadable readable] at step
      rw [readable]
      simp only [Bool.false_eq_true, if_false]
      rcases step with ⟨processed, name_eq', flow_eq⟩
      refine ⟨flow_eq, ?_, ?_, ?_⟩
      · simp [processed]
      · rw [name_eq', if_neg (by decide)]
      · simp [processed]
  by_cases anyColumn : tblInfo.validColumns = []
  · have kinds : ¬(tblInfo.validColumns ≠ [] ∧
        netsnmpClosestColumn column tblInfo.validColumns = 0) ∧
        ¬(tblInfo.validColumns ≠ [] ∧
          netsnmpClosestColumn column tblInfo.validColumns ≠ column) := by
      simp [anyColumn]
    rw [if_pos anyColumn, if_neg kinds.1, if_neg kinds.2]
    exact readIndexes (.inl anyColumn)
  rw [if_neg anyColumn]
  by_cases none : netsnmpClosestColumn column tblInfo.validColumns = 0
  · rw [if_pos none, if_pos ⟨anyColumn, none⟩]
    refine ⟨rfl, by simp [unprocessed], by simp, fun _ => ?_⟩
    apply iff_of_false
    · rintro ⟨column', index', info, isInstance⟩
      have counted := isInstance.numberIndexes_eq
      have info_eq := Option.some.inj isInstance.info_eq
      rw [← info_eq] at counted
      exact tblInfo.indexed (List.length_eq_zero_iff.mp counted.symm)
    · simp
  rw [if_neg none, if_neg (by simp [none])]
  by_cases same : netsnmpClosestColumn column tblInfo.validColumns = column
  · have valid := isContained_of_closestColumn same none
    rw [if_neg (show ¬(tblInfo.validColumns ≠ [] ∧
      netsnmpClosestColumn column tblInfo.validColumns ≠ column) by simp [same])]
    have step := readIndexes (.inr valid)
    rw [same]
    simpa only [ne_eq, not_true_eq_false, if_false, dropped] using step
  · have cutName : (request.name.take (rootoid.length + 2)).drop (rootoid.length + 2) = [] := by
      apply List.drop_eq_nil_of_le
      exact List.length_take_le _ _
    rw [if_pos ⟨anyColumn, same⟩]
    simp only [ne_eq, same, not_false_eq_true, if_true, cutName]
    have noIndexes : takeIndexes order tblInfo.indexes [] = Option.none := by
      cases indexes_eq : tblInfo.indexes with
      | nil => exact absurd indexes_eq tblInfo.indexed
      | cons vb indexes => rw [takeIndexes, if_pos rfl]
    have step := requestIndexes_spec order tblInfo mode
      { request with name := request.name.take (rootoid.length + 2) }
      (netsnmpClosestColumn column tblInfo.validColumns) []
    simp only [noIndexes] at step
    rcases step with ⟨processed, name_eq', flow_eq⟩
    refine ⟨flow_eq, ?_, ?_, ?_⟩
    · simp [processed]
    · rw [name_eq', if_pos rfl]
    · simp [processed]

theorem requestStep_handledAs (order : ByteOrder) (tblInfo : Registration) (mode : Mode)
    (fresh : request.tableInfo = none) (below : rootoid <+: request.name) :
    HandledAs tblInfo rootoid mode request (requestKind tblInfo rootoid mode request)
      (requestStep order tblInfo rootoid mode request) := by
  rw [requestStep, requestKind]
  by_cases processed : request.processed = true
  · rw [if_pos processed, if_pos processed]
    refine ⟨rfl, ?_, ?_, ?_⟩
    · simp [processed]
    · rw [if_neg (by decide)]
    · simp [processed]
  rw [if_neg processed, if_neg processed]
  rw [Bool.not_eq_true] at processed
  by_cases wrongType : mode = .get ∧ request.type ≠ asnNull
  · rw [if_pos wrongType, if_pos wrongType]
    have refused := setRequestError_spec mode snmpErrWrongtype request
    exact handledAs_refused refused.1 refused.2
  rw [if_neg wrongType, if_neg wrongType]
  have cleaned := tableHelperCleanup_spec mode (noObject mode) request
  have refused : HandledAs tblInfo rootoid mode request .refused
      (tableHelperCleanup mode (noObject mode) request, .skip) :=
    handledAs_refused cleaned.1 cleaned.2
  rcases below with ⟨rest, name_eq⟩
  have range := isOutOfRange_append rootoid rest
  have dropped : request.name.drop rootoid.length = rest := by
    rw [← name_eq, List.drop_left]
  rw [name_eq] at range
  rw [dropped]
  match rest with
  | [] =>
      have short : ¬rootoid.length + 1 < request.name.length := by
        rw [← name_eq]
        simp
      simpa only [range, Bool.false_eq_true, if_false, short] using refused
  | [arc] =>
      have short : ¬rootoid.length + 1 < request.name.length := by
        rw [← name_eq]
        simp
      simpa only [short, if_false, ite_self] using refused
  | arc :: column :: index =>
      by_cases entry : arc = 1
      · have long : rootoid.length + 1 < request.name.length := by
          rw [← name_eq]
          simp
        subst entry
        simp only [range, ne_eq, not_true_eq_false, decide_false, Bool.false_eq_true, if_false,
          long, if_true]
        exact requestColumn_handledAs order name_eq.symm processed fresh
      · have notEntry : (match arc :: column :: index with
            | 1 :: column :: index => columnKind tblInfo column index
            | _ => .refused) = RequestKind.refused := by
          split
          · rename_i same
            exact absurd (List.cons.inj same).1 entry
          · rfl
        rw [notEntry]
        simpa only [range, ne_eq, entry, not_false_eq_true, decide_true, if_true] using refused

section

variable (order : ByteOrder) (tblInfo : Registration) (rootoid : Oid) (mode : Mode)

theorem requestsLoop_of_noStop {requests : List Request}
    (noStop : ∀ request ∈ requests, (requestStep order tblInfo rootoid mode request).2 ≠ .stop) :
    (requestsLoop order tblInfo rootoid mode requests).1 =
        requests.map (fun request => (requestStep order tblInfo rootoid mode request).1) ∧
      (requestsLoop order tblInfo rootoid mode requests).2.2 = false ∧
      ((requestsLoop order tblInfo rootoid mode requests).2.1 ≠ 0 ↔
        ∃ request ∈ requests, (requestStep order tblInfo rootoid mode request).2 = .count) := by
  induction requests with
  | nil => exact ⟨rfl, rfl, by simp [requestsLoop]⟩
  | cons request requests ih =>
      rcases List.forall_mem_cons.mp noStop with ⟨first, others⟩
      rcases ih others with ⟨handled, stopped, counted⟩
      simp only [requestsLoop, List.exists_mem_cons_iff, ← counted, List.map_cons]
      cases flow_eq : (requestStep order tblInfo rootoid mode request).2 with
      | stop => exact absurd flow_eq first
      | skip => simp [handled, stopped]
      | count => simp [handled, stopped]

theorem requestsLoop_of_stop {requests : List Request}
    (stop : ∃ request ∈ requests, (requestStep order tblInfo rootoid mode request).2 = .stop) :
    (requestsLoop order tblInfo rootoid mode requests).2.2 = true := by
  induction requests with
  | nil => simp at stop
  | cons request requests ih =>
      simp only [requestsLoop]
      cases flow_eq : (requestStep order tblInfo rootoid mode request).2 with
      | stop => rfl
      | skip =>
          apply ih
          simpa [flow_eq] using stop
      | count =>
          apply ih
          simpa [flow_eq] using stop

end

theorem flow_stop_iff (mode : Mode) (kind : RequestKind) :
    kind.flow mode = .stop ↔ mode = .setReserve1 ∧ (kind = .cut ∨ kind = .unread) := by
  cases kind <;> cases mode <;> simp [RequestKind.flow]

theorem flow_count_iff (mode : Mode) (kind : RequestKind) :
    kind.flow mode = .count ↔ kind = .read := by
  cases kind <;> cases mode <;> simp [RequestKind.flow]

theorem tableHelperHandler_spec (order : ByteOrder) (tblInfo : Registration) {stateReference : Bool}
    {requests : List Request} (noState : stateReference = true → mode = .get)
    (fresh : ∀ request ∈ requests, request.tableInfo = none)
    (below : ∀ request ∈ requests, rootoid <+: request.name) :
    let handled := tableHelperHandler order tblInfo rootoid mode stateReference requests
    (handled.called = true ↔ IsForwarded tblInfo rootoid mode requests) ∧
      (handled.called = true ∨ mode = .get → handled.requests =
        requests.map fun request => (requestStep order tblInfo rootoid mode request).1) := by
  have noReference : ¬(stateReference = true ∧ mode = .setReserve1) := by
    rintro ⟨set, inSet⟩
    rw [noState set] at inSet
    nomatch inSet
  have handledAs (request : Request) (mem : request ∈ requests) :=
    requestStep_handledAs order tblInfo mode (fresh request mem) (below request mem)
  simp only [tableHelperHandler, noReference, if_false]
  by_cases stop : ∃ request ∈ requests,
      (requestStep order tblInfo rootoid mode request).2 = .stop
  · have stopped := requestsLoop_of_stop order tblInfo rootoid mode stop
    rcases stop with ⟨request, mem, stops⟩
    rw [(handledAs request mem).flow_eq, flow_stop_iff] at stops
    rw [stopped]
    simp only [if_true, Bool.false_eq_true, false_iff, false_or]
    constructor
    · rintro ⟨-, readable⟩
      rcases readable stops.1 request mem with ⟨notCut, notUnread⟩
      rcases stops.2 with cut | unread
      · exact notCut cut
      · exact notUnread unread
    · intro inGet
      rw [stops.1] at inGet
      nomatch inGet
  · have noStop : ∀ request ∈ requests,
        (requestStep order tblInfo rootoid mode request).2 ≠ .stop :=
      fun request mem stops => stop ⟨request, mem, stops⟩
    rcases requestsLoop_of_noStop order tblInfo rootoid mode noStop with
      ⟨handled_eq, stopped, counted⟩
    rw [stopped]
    simp only [Bool.false_eq_true, if_false, decide_eq_true_eq, counted, handled_eq, implies_true,
      and_true]
    constructor
    · rintro ⟨request, mem, counts⟩
      rw [(handledAs request mem).flow_eq, flow_count_iff] at counts
      refine ⟨⟨request, mem, counts⟩, fun inSet other otherMem => ?_⟩
      have goesOn := noStop other otherMem
      rw [(handledAs other otherMem).flow_eq, Ne, flow_stop_iff, not_and, not_or] at goesOn
      exact goesOn inSet
    · rintro ⟨⟨request, mem, isRead⟩, -⟩
      refine ⟨request, mem, ?_⟩
      rw [(handledAs request mem).flow_eq, flow_count_iff]
      exact isRead

theorem letsInstancesThrough_reference {requests : List Request}
    (fresh : ∀ request ∈ requests, request.tableInfo = none) :
    LetsInstancesThrough order tblInfo rootoid .setReserve1 true requests ↔
      ∀ request ∈ requests, request.processed = true := by
  have handled : tableHelperHandler order tblInfo rootoid .setReserve1 true requests =
      ⟨requests, true⟩ := by
    simp [tableHelperHandler]
  constructor
  · rintro ⟨instances, -⟩ request mem
    rw [handled] at instances
    by_contra unprocessed
    rw [Bool.not_eq_true] at unprocessed
    rcases instances rfl request mem unprocessed with ⟨column, index, info, isInstance⟩
    have set := isInstance.info_eq
    rw [fresh request mem] at set
    nomatch set
  · intro processed
    refine ⟨fun _ request mem unprocessed => ?_, fun inGet => nomatch inGet⟩
    rw [handled] at mem
    rw [processed request mem] at unprocessed
    nomatch unprocessed

theorem names_kept_iff (order : ByteOrder) (tblInfo : Registration) (mode : Mode)
    {requests : List Request}
    (fresh : ∀ request ∈ requests, request.tableInfo = none)
    (below : ∀ request ∈ requests, rootoid <+: request.name) :
    (requests.map fun request => (requestStep order tblInfo rootoid mode request).1).map
        Request.name = requests.map Request.name ↔
      ∀ request ∈ requests, requestKind tblInfo rootoid mode request = .cut →
        request.name.length ≤ rootoid.length + 2 := by
  rw [List.map_map, List.map_inj_left]
  apply forall₂_congr
  intro request mem
  have step := requestStep_handledAs order tblInfo mode (fresh request mem) (below request mem)
  rw [Function.comp_apply, step.name_eq]
  by_cases cut : requestKind tblInfo rootoid mode request = .cut
  · simp only [cut, if_true, forall_true_left]
    constructor
    · intro same
      rw [← same]
      exact List.length_take_le _ _
    · exact List.take_of_length_le
  · simp [cut]

theorem le_length_of_cut (below : rootoid <+: request.name)
    (cut : requestKind tblInfo rootoid mode request = .cut) :
    rootoid.length + 2 ≤ request.name.length := by
  rcases below with ⟨rest, name_eq⟩
  rw [requestKind, ← name_eq, List.drop_left] at cut
  split at cut
  · nomatch cut
  · split at cut
    · nomatch cut
    · split at cut
      · rw [← name_eq]
        simp
      · nomatch cut

/-- The next handler is called only with instances, and a GET changes no name, exactly if the
agent holds no data for the next handler yet, no request with a column behind all valid ones is
in a list that is forwarded, nothing is missing of the indexes there, and in a GET there is nothing
to cut behind a column that is not valid. -/
theorem letsInstancesThrough_iff (order : ByteOrder) (tblInfo : Registration) (rootoid : Oid)
    (mode : Mode) (stateReference : Bool) (requests : List Request)
    (fresh : ∀ request ∈ requests, request.tableInfo = none)
    (below : ∀ request ∈ requests, rootoid <+: request.name) :
    LetsInstancesThrough order tblInfo rootoid mode stateReference requests ↔
      AreWholeInstances tblInfo rootoid mode stateReference requests := by
  by_cases reference : stateReference = true ∧ mode = .setReserve1
  · rcases reference with ⟨rfl, rfl⟩
    rw [letsInstancesThrough_reference fresh]
    constructor
    · intro processed
      refine ⟨fun _ _ => processed, fun noState => ?_, fun inGet => ?_⟩
      · nomatch noState rfl
      · nomatch inGet
    · intro holds
      exact holds.firstPhase rfl rfl
  · have noState : stateReference = true → mode = .get := by
      intro set
      cases mode with
      | get => rfl
      | setReserve1 => exact absurd ⟨set, rfl⟩ reference
    rcases tableHelperHandler_spec order tblInfo noState fresh below with ⟨called_iff, handled⟩
    have names_iff := names_kept_iff order tblInfo mode fresh below
    have handledAs (request : Request) (mem : request ∈ requests) :=
      requestStep_handledAs order tblInfo mode (fresh request mem) (below request mem)
    constructor
    · intro lets
      refine ⟨fun set inSet => absurd ⟨set, inSet⟩ reference, ?_, ?_⟩
      · intro _ forwarded request mem
        have called := called_iff.mpr forwarded
        have instances := lets.instances called
        rw [handled (.inl called)] at instances
        have step := handledAs request mem
        have found := instances _ (List.mem_map_of_mem mem)
        refine ⟨fun skipped => ?_, fun isRead => ?_⟩
        · have unprocessed := step.unprocessed_iff.mpr (.inl skipped)
          have isRead := ((step.isInstance_iff unprocessed).mp (found unprocessed)).1
          rw [skipped] at isRead
          nomatch isRead
        · have unprocessed := step.unprocessed_iff.mpr (.inr isRead)
          exact ((step.isInstance_iff unprocessed).mp (found unprocessed)).2
      · intro inGet request mem cut
        have names := lets.names inGet
        rw [handled (.inr inGet)] at names
        have upper := names_iff.mp names request mem cut
        have lower := le_length_of_cut (below request mem) cut
        omega
    · intro holds
      refine ⟨?_, ?_⟩
      · intro called result handledMem unprocessed
        rw [handled (.inl called)] at handledMem
        rcases List.mem_map.mp handledMem with ⟨request, mem, rfl⟩
        have step := handledAs request mem
        rcases holds.whole noState (called_iff.mp called) request mem with ⟨notSkipped, whole⟩
        rcases step.unprocessed_iff.mp unprocessed with skipped | isRead
        · exact absurd skipped notSkipped
        · exact (step.isInstance_iff unprocessed).mpr ⟨isRead, whole isRead⟩
      · intro inGet
        rw [handled (.inr inGet)]
        apply names_iff.mpr
        intro request mem cut
        exact le_of_eq (holds.uncut inGet request mem cut)

def addressRegistration : Registration :=
  { indexes := [⟨[], asnIpaddress, .unset 0⟩]
    minColumn := 1
    maxColumn := 1
    validColumns := []
    indexed := List.cons_ne_nil _ _
    areTemplates := fun _ mem => by
      rw [List.mem_singleton.mp mem]
      exact .plain rfl
    small := by decide }

/-- A GET for a name behind the root `1.3`. -/
def getRequest (rest : Oid) : Request := ⟨[1, 3] ++ rest, asnNull, false, snmpErrNoerror, none⟩

theorem letsInstancesThrough_iff_address :
    LetsInstancesThrough .littleEndian addressRegistration [1, 3] .get false
      [getRequest [1, 1, 10, 0, 0, 1], getRequest [1, 1, 10]] ↔
    AreWholeInstances addressRegistration [1, 3] .get false
      [getRequest [1, 1, 10, 0, 0, 1], getRequest [1, 1, 10]] :=
  letsInstancesThrough_iff .littleEndian addressRegistration [1, 3] .get false _
    (by simp [getRequest]) (by simp [getRequest])

/-- The name `1.3.1.1.10` is read as the instance for the address `10.0.0.0`. -/
theorem not_letsInstancesThrough :
    ¬∀ (order : ByteOrder) (tblInfo : Registration) (rootoid : Oid) (mode : Mode)
      (stateReference : Bool) (requests : List Request),
      (∀ request ∈ requests, request.tableInfo = none) →
      (∀ request ∈ requests, rootoid <+: request.name) →
      LetsInstancesThrough order tblInfo rootoid mode stateReference requests := by
  intro alwaysLets
  have lets := alwaysLets .littleEndian addressRegistration [1, 3] .get false
    [getRequest [1, 1, 10]] (by simp [getRequest]) (by simp [getRequest])
  have called : (tableHelperHandler .littleEndian addressRegistration [1, 3] .get false
      [getRequest [1, 1, 10]]).called = true := by decide +kernel
  have handled : (tableHelperHandler .littleEndian addressRegistration [1, 3] .get false
      [getRequest [1, 1, 10]]).requests = [(requestStep .littleEndian addressRegistration [1, 3]
        .get (getRequest [1, 1, 10])).1] := rfl
  rcases lets.instances called _ (by rw [handled]; exact List.mem_singleton.mpr rfl) rfl with
    ⟨column, index, info, isInstance⟩
  have same := isInstance.name_eq
  have name_eq : (requestStep .littleEndian addressRegistration [1, 3] .get
      (getRequest [1, 1, 10])).1.name = instanceName [1, 3] 1 [10] := rfl
  rw [name_eq] at same
  simp only [instanceName, List.append_cancel_left_eq, List.cons.injEq, true_and] at same
  rcases isInstance.decodes with ⟨segment, rest, value, others, index_eq, -, -, decodes, -⟩
  have length_eq := decodes.of_address rfl
  rw [← same.2] at index_eq
  have lengths := congrArg List.length index_eq
  rw [List.length_append, length_eq, List.length_singleton] at lengths
  omega

end TableRequests

end NetSnmp
