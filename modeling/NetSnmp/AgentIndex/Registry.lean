import NetSnmp.CString
import NetSnmp.LinkedRows
import NetSnmp.Machine
import NetSnmp.OidCompare

/-!
# The registry of index allocations

`register_index`, `unregister_index` and `unregister_index_by_session` of the master
agent.  The entries of an index object are a row of cells that are linked by
`next_idx`, and `next_oid` of each of them is the first entry of the next object.
-/

namespace NetSnmp

inductive IndexType where
  | integer
  | octetStr
  | objectId
  deriving DecidableEq, Repr

/-- The value of an index; an integer is a `long`. -/
inductive IndexValue where
  | integer (value : Int)
  | octetStr (string : List Byte)
  | objectId (objid : Oid)
  deriving DecidableEq, Repr

def IndexValue.type : IndexValue → IndexType
  | .integer _ => .integer
  | .octetStr _ => .octetStr
  | .objectId _ => .objectId

/-- The name and the value of a `netsnmp_variable_list`. -/
@[ext]
structure IndexVarbind where
  name : Oid
  value : IndexValue
  deriving DecidableEq, Repr

/-- The flags of a request: `ALLOCATE_NEW_INDEX` includes `ALLOCATE_ANY_INDEX`. -/
inductive AllocateFlag where
  | thisIndex
  | anyIndex
  | newIndex
  deriving DecidableEq, Repr

/-- A `struct snmp_index` without its links. -/
structure IndexEntry (σ : Type) where
  varbind : IndexVarbind
  allocated : Bool
  /-- `none` for `NULL`. -/
  session : Option σ
  deriving DecidableEq, Repr

/-- The entries from `snmp_index_head` on. -/
abbrev IndexRegistry (σ : Type) := RowList (IndexEntry σ)

/-- The difference of two values as it is computed for the search of a row; `none` if the values
are not of one type. -/
def IndexValue.compare : IndexValue → IndexValue → Option Int
  | .integer value, .integer other => some (toCInt (value - other))
  | .octetStr string, .octetStr other =>
      some (memcmp string other (min string.length other.length))
  | .objectId objid, .objectId other => some (snmpOidCompare objid other)
  | _, _ => none

/-- The value that `snmp_set_var_value` stores. -/
def IndexValue.stored : IndexValue → IndexValue
  | .integer value => if 0xffffffff < value then .integer (value % 2 ^ 32) else .integer value
  | value => value

/-- The size of `buf`. -/
def sizeofBuf : Nat := 40

/-- The size of an `oid`. -/
def sizeofOid : Nat := 8

/-- The loop over the characters `z` at the end of `buf`, from position `i` on.  If there are no
others the string gets one more character. -/
def carryString (valLen : Nat) : (i : Nat) → (buf : List Byte) → List Byte × Nat
  | 0, buf =>
      if buf[0]? = some 122 then (((buf.set 0 97).set valLen 97).set (valLen + 1) 0, valLen)
      else (buf, 0)
  | i + 1, buf =>
      if buf[i + 1]? = some 122 then carryString valLen i (buf.set (i + 1) 97)
      else (buf, i + 1)

/-- The string behind the last one; `none` if it is looked for outside of `buf`. -/
def incrementString (string : List Byte) : Option (List Byte) :=
  if string = [] ∨ sizeofBuf ≤ string.length then none
  else
    let buf := string ++ List.replicate (sizeofBuf - string.length) 0
    let (buf, i) := carryString string.length (string.length - 1) buf
    if sizeofBuf ≤ i + 1 then none
    else some ((buf.modify i (· + 1)).takeWhile (· ≠ 0))

/-- The loop over the sub-identifiers 255 at the end of `objid`, from position `i` on; `none` if it
leaves the object identifier.  If 2 is reached at the front the object identifier gets one more
sub-identifier. -/
def carryObjid : (i : Nat) → (objid : Oid) → Option (Oid × Nat)
  | 0, objid => if objid[0]? = some 255 then none else some (objid, 0)
  | i + 1, objid =>
      if objid[i + 1]? = some 255 then
        let objid := objid.set (i + 1) 1
        if i = 0 ∧ objid[0]? = some 2 then
          if (objid.length + 1) * sizeofOid ≤ sizeofBuf then
            some (objid.set 0 1 ++ [0], objid.length)
          else none
        else carryObjid i objid
      else some (objid, i + 1)

def incrementObjid (objid : Oid) : Option Oid :=
  if objid = [] then none
  else do
    let (objid, i) ← carryObjid (objid.length - 1) objid
    some (objid.modify i fun subid => (subid + 1) % 2 ^ 64)

def IndexValue.increment : IndexValue → Option IndexValue
  | .integer value => some (.integer (toCLong (value + 1)))
  | .octetStr string => (incrementString string).map .octetStr
  | .objectId objid => (incrementObjid objid).map .objectId

def firstIndexValue (name : Oid) : IndexType → IndexValue
  | .integer => .integer 1
  | .octetStr => .octetStr [97, 97, 97, 97]
  | .objectId =>
      if (name.length + 1) * sizeofOid ≤ sizeofBuf then .objectId (name ++ [1])
      else .objectId [1, 1, 1, 1]

variable {σ : Type}

/-- The first loop: the object with the given name or the first one behind it, the object in front,
and the last comparison.  `none` if more than `fuel` cells are passed. -/
def findIndexOid (heap : RowHeap (IndexEntry σ)) (name : Oid) :
    Nat → (prevOid idx : Option Addr) → (res : Int) → Option (Option Addr × Option Addr × Int)
  | _, prevOid, none, res => some (prevOid, none, res)
  | 0, _, some _, _ => none
  | fuel + 1, prevOid, some idx, _ => do
      let cell ← heap idx
      let res := snmpOidCompare name cell.content.varbind.name
      if res ≤ 0 then some (prevOid, some idx, res)
      else findIndexOid heap name fuel (some idx) cell.nextRow res

/-- The loop over the entries of an object: the first one that is not in front of the value, the
one before, and the last comparison. -/
def findIndexValue (heap : RowHeap (IndexEntry σ)) (value : IndexValue) :
    Nat → (prevIdx idx : Option Addr) → (res : Int) → Option (Option Addr × Option Addr × Int)
  | _, prevIdx, none, res => some (prevIdx, none, res)
  | 0, _, some _, _ => none
  | fuel + 1, prevIdx, some idx, _ => do
      let cell ← heap idx
      let res ← value.compare cell.content.varbind.value
      if res ≤ 0 then some (prevIdx, some idx, res)
      else findIndexValue heap value fuel (some idx) cell.next res

/-- The loop for a request without a value: the first entry that is not in use, or the last
entry. -/
def findUnused (heap : RowHeap (IndexEntry σ)) (flag : AllocateFlag) :
    Nat → (prevIdx idx : Option Addr) → Option (Option Addr × Option Addr)
  | _, prevIdx, none => some (prevIdx, none)
  | 0, _, some _ => none
  | fuel + 1, prevIdx, some idx => do
      let cell ← heap idx
      if flag = .anyIndex ∧ cell.content.allocated = false then some (prevIdx, some idx)
      else findUnused heap flag fuel (some idx) cell.next

def claimIndex (reg : IndexRegistry σ) (idx : Addr) (ss : Option σ) :
    Option (Option IndexVarbind × IndexRegistry σ) := do
  let cell ← reg.heap idx
  let content := { cell.content with allocated := true, session := ss }
  some (some cell.content.varbind, { reg with heap := reg.heap.put idx { cell with content } })

def newVarbind (heap : RowHeap (IndexEntry σ)) (varbind : IndexVarbind) (flag : AllocateFlag)
    (prevIdx : Option Addr) : Option IndexVarbind :=
  match flag, prevIdx with
  | .thisIndex, _ => some { varbind with value := varbind.value.stored }
  | _, some prevIdx => do
      let cell ← heap prevIdx
      let value ← cell.content.varbind.value.increment
      some { cell.content.varbind with value }
  | _, none => some { varbind with value := firstIndexValue varbind.name varbind.value.type }

/-- Create an entry behind `prevIdx`, or as the first one of its object; `newIndex` is the memory
that is allocated for it. -/
def createIndex (fuel : Nat) (newIndex : Addr) (reg : IndexRegistry σ) (varbind : IndexVarbind)
    (flag : AllocateFlag) (ss : Option σ) (prevOid idx : Option Addr) (res : Int)
    (prevIdx : Option Addr) : Option (Option IndexVarbind × IndexRegistry σ) := do
  let varbind ← newVarbind reg.heap varbind flag prevIdx
  let entry : IndexEntry σ := ⟨varbind, true, ss⟩
  match prevIdx, idx with
  | some prevIdx, _ => do
      let reg ← reg.insertBehind prevIdx newIndex entry
      some (some varbind, reg)
  | none, some idx => do
      let cell ← reg.heap idx
      let links := if res = 0 then ⟨entry, cell.nextRow, some idx⟩ else ⟨entry, some idx, none⟩
      let reg ← reg.insertFirst fuel prevOid newIndex links
      some (some varbind, reg)
  | none, none => do
      let reg ← reg.insertFirst fuel prevOid newIndex ⟨entry, none, none⟩
      some (some varbind, reg)

/-- The part of `register_index` for an object that has entries. -/
def registerIndexOf (fuel : Nat) (newIndex : Addr) (reg : IndexRegistry σ) (varbind : IndexVarbind)
    (flag : AllocateFlag) (ss : Option σ) (prevOid : Option Addr) (idx : Addr) :
    Option (Option IndexVarbind × IndexRegistry σ) :=
  match flag with
  | .thisIndex => do
      match ← findIndexValue reg.heap varbind.value fuel none (some idx) 1 with
      | (prevIdx, some idx2, res2) =>
          if res2 = 0 then
            let cell ← reg.heap idx2
            if cell.content.allocated then some (none, reg)
            else claimIndex reg idx2 ss
          else createIndex fuel newIndex reg varbind flag ss prevOid (some idx) 0 prevIdx
      | (prevIdx, none, _) =>
          createIndex fuel newIndex reg varbind flag ss prevOid (some idx) 0 prevIdx
  | flag => do
      match ← findUnused reg.heap flag fuel none (some idx) with
      | (_, some idx2) => claimIndex reg idx2 ss
      | (prevIdx, none) =>
          createIndex fuel newIndex reg varbind flag ss prevOid (some idx) 0 prevIdx

/-- `register_index`; the returned variable is `none` for `NULL`. -/
def registerIndex (fuel : Nat) (newIndex : Addr) (reg : IndexRegistry σ) (varbind : IndexVarbind)
    (flag : AllocateFlag) (ss : Option σ) : Option (Option IndexVarbind × IndexRegistry σ) := do
  match ← findIndexOid reg.heap varbind.name fuel none reg.first 1 with
  | (prevOid, some idx, res) =>
      if res = 0 then
        let cell ← reg.heap idx
        if varbind.value.type ≠ cell.content.varbind.value.type then some (none, reg)
        else registerIndexOf fuel newIndex reg varbind flag ss prevOid idx
      else createIndex fuel newIndex reg varbind flag ss prevOid (some idx) res none
  | (prevOid, none, res) =>
      createIndex fuel newIndex reg varbind flag ss prevOid none res none

/-- What `unregister_index` returns. -/
inductive UnregisterResult where
  | noError
  | wrongType
  | notAllocated
  | wrongSession
  deriving DecidableEq, Repr

/-- The part of `unregister_index` for an object that has entries. -/
def unregisterIndexOf [DecidableEq σ] (fuel : Nat) (reg : IndexRegistry σ) (value : IndexValue)
    (remember : Bool) (ss : Option σ) (prevOid : Option Addr) (idx : Addr) :
    Option (UnregisterResult × IndexRegistry σ) := do
  match ← findIndexValue reg.heap value fuel none (some idx) 1 with
  | (_, none, _) => some (.notAllocated, reg)
  | (prevIdx, some idx2, res2) =>
      let cell ← reg.heap idx2
      if res2 ≠ 0 ∨ cell.content.allocated = false then some (.notAllocated, reg)
      else if ss ≠ cell.content.session then some (.wrongSession, reg)
      else if remember then
        let content := { cell.content with allocated := false, session := none }
        some (.noError, { reg with heap := reg.heap.put idx2 { cell with content } })
      else
        match prevIdx with
        | some prevIdx => do
            let reg ← reg.removeBehind prevIdx idx2
            some (.noError, reg)
        | none => do
            let reg ← reg.removeFirst fuel prevOid idx2
            some (.noError, reg)

def unregisterIndex [DecidableEq σ] (fuel : Nat) (reg : IndexRegistry σ) (varbind : IndexVarbind)
    (remember : Bool) (ss : Option σ) : Option (UnregisterResult × IndexRegistry σ) := do
  match ← findIndexOid reg.heap varbind.name fuel none reg.first 1 with
  | (prevOid, some idx, res) =>
      if res ≠ 0 then some (.notAllocated, reg)
      else
        let cell ← reg.heap idx
        if varbind.value.type ≠ cell.content.varbind.value.type then some (.wrongType, reg)
        else unregisterIndexOf fuel reg varbind.value remember ss prevOid idx
  | (_, none, _) => some (.notAllocated, reg)

def IndexEntry.release [DecidableEq σ] (ss : Option σ) (entry : IndexEntry σ) : IndexEntry σ :=
  if entry.session = ss then { entry with allocated := false, session := none } else entry

def releaseRow [DecidableEq σ] (ss : Option σ) :
    Nat → RowHeap (IndexEntry σ) → (idx2 : Option Addr) → Option (RowHeap (IndexEntry σ))
  | _, heap, none => some heap
  | 0, _, some _ => none
  | fuel + 1, heap, some idx2 => do
      let cell ← heap idx2
      releaseRow ss fuel (heap.put idx2 { cell with content := cell.content.release ss }) cell.next

def releaseRows [DecidableEq σ] (ss : Option σ) (rowFuel : Nat) :
    Nat → RowHeap (IndexEntry σ) → (idx : Option Addr) → Option (RowHeap (IndexEntry σ))
  | _, heap, none => some heap
  | 0, _, some _ => none
  | fuel + 1, heap, some idx => do
      let heap ← releaseRow ss rowFuel heap (some idx)
      let cell ← heap idx
      releaseRows ss rowFuel fuel heap cell.nextRow

def unregisterIndexBySession [DecidableEq σ] (fuel : Nat) (reg : IndexRegistry σ) (ss : Option σ) :
    Option (IndexRegistry σ) := do
  let heap ← releaseRows ss fuel fuel reg.heap reg.first
  some { reg with heap }

end NetSnmp
