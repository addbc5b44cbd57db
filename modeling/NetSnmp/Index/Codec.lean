import NetSnmp.ByteOrder
import NetSnmp.Machine
import NetSnmp.Snmp.VarValue

/-!
# Indexes of tables

`build_oid_noalloc` and `parse_oid_indexes`: the values of the indexes of a row, and the
sub-identifiers behind the column.
-/

namespace NetSnmp

def isIntegerIndex (type : Byte) : Bool :=
  type = asnInteger || type = asnCounter || type = asnGauge || type = asnTimeticks

def isStringIndex (type : Byte) : Bool := type = asnOpaque || type = asnOctetStr

/-- The octets of `val.string`. -/
def Vardata.octets : Vardata → List Byte
  | .string octets => octets
  | _ => []

/-- The sub-identifiers of `val.objid`. -/
def Vardata.subids : Vardata → Oid
  | .objid subids => subids
  | _ => []

/-- `*(val.integer)` as an `oid`. -/
def Vardata.integerSubid : Vardata → Nat
  | .integer value => toSizeT value
  | _ => 0

def Vardata.valLen : Vardata → Nat
  | .integer _ | .doubleVal _ => 8
  | .string octets => octets.length
  | .objid subids => 8 * subids.length
  | .counter64 _ _ => 16
  | .floatVal _ => 4
  | .unset valLen => valLen

/-- The sub-identifiers of `build_oid_segment` before the check of their number. -/
def oidSegment (order : ByteOrder) (type : Byte) (val : Vardata) : Option Oid :=
  if isIntegerIndex type then some [val.integerSubid]
  else if type = asnIpaddress then
    let ipaddr := order.load (val.octets.take 4)
    some [ipaddr / 2 ^ 24 % 256, ipaddr / 2 ^ 16 % 256, ipaddr / 2 ^ 8 % 256, ipaddr % 256]
  else if type = asnPrivImpliedObjectId then some val.subids
  else if type = asnObjectId then some (val.subids.length :: val.subids)
  else if type = asnPrivImpliedOctetStr then some (val.octets.map UInt8.toNat)
  else if isStringIndex type then some (val.octets.length :: val.octets.map UInt8.toNat)
  else none

def buildOidSegment (order : ByteOrder) (var : VariableList) : Option Oid :=
  match oidSegment order var.type var.val with
  | none => none
  | some segment => if maxOidLen < segment.length then none else some segment

/-- The loop of `build_oid_noalloc`. -/
def appendSegments (order : ByteOrder) (inLen : Nat) : (out : Oid) → List VariableList → Option Oid
  | out, [] => some out
  | out, var :: indexes =>
      match buildOidSegment order var with
      | none => none
      | some segment =>
          if segment.length + out.length ≤ inLen then
            appendSegments order inLen (out ++ segment) indexes
          else none

def buildOidNoalloc (order : ByteOrder) (inLen : Nat) (front : Oid) (indexes : List VariableList) :
    Option Oid :=
  if inLen < front.length then none else appendSegments order inLen front indexes

/-- What `build_oid_noalloc` leaves in its buffer, also where it fails. -/
def builtOid (order : ByteOrder) (inLen : Nat) : (out : Oid) → List VariableList → Oid
  | out, [] => out
  | out, var :: indexes =>
      match buildOidSegment order var with
      | none => out
      | some segment =>
          if segment.length + out.length ≤ inLen then builtOid order inLen (out ++ segment) indexes
          else out

theorem builtOid_eq {order : ByteOrder} {inLen : Nat} {out oid : Oid} {indexes : List VariableList}
    (built : appendSegments order inLen out indexes = some oid) :
    builtOid order inLen out indexes = oid := by
  induction indexes generalizing out with
  | nil => exact Option.some.inj built
  | cons var indexes ih =>
      rw [appendSegments] at built
      rw [builtOid]
      split at built
      · nomatch built
      · split at built
        next fits =>
          rw [if_pos fits]
          exact ih built
        · nomatch built

def htonl (order : ByteOrder) (value : Nat) : Nat :=
  match order with
  | .bigEndian => value
  | .littleEndian => ByteOrder.swap 4 value

def ipaddrOfSubids (oidIndex : Oid) : Nat :=
  oidIndex.getD 0 0 * 2 ^ 24 + oidIndex.getD 1 0 * 2 ^ 16 + oidIndex.getD 2 0 * 2 ^ 8 +
    oidIndex.getD 3 0

/-- What is left of the first `count` sub-identifiers if there are not enough of them. -/
def zeroFilled (oidIndex : Oid) (count : Nat) : Oid :=
  oidIndex.take count ++ List.replicate (count - oidIndex.length) 0

/-- The number of sub-identifiers of a string or an object identifier, and where they start; none if
too many are announced. -/
def announcedLen (implied complete : Bool) (var : VariableList) (oidIndex : Oid) :
    Option (Nat × Oid) :=
  if implied then
    if var.val.valLen = 0 then some (oidIndex.length, oidIndex)
    else some (var.val.valLen, oidIndex)
  else
    match oidIndex with
    | [] => some (0, [])
    | len :: oidIndex =>
        -- the number is an `unsigned int`
        let uitmp := len % 2 ^ 32
        if oidIndex.length < uitmp ∧ complete = false then none else some (uitmp, oidIndex)

/-- `parse_one_oid_index`: the variable with its value, and the sub-identifiers that are left. With
`complete` what is missing at the end is taken for zeros. -/
def parseOneOidIndex (order : ByteOrder) (complete : Bool) (oidIndex : Oid) (var : VariableList) :
    Option (VariableList × Oid) :=
  if oidIndex.length = 0 ∧ complete = false then none
  else if isIntegerIndex var.type then
    some (snmpSetVarTypedValue var var.type (.integer (oidIndex.headD 0)), oidIndex.drop 1)
  else if var.type = asnIpaddress then
    if oidIndex.length < 4 ∧ complete = false then none
    else if (oidIndex.take 4).any fun subid => decide (255 < subid) then none
    else
      let uitmp := htonl order (ipaddrOfSubids oidIndex)
      some (snmpSetVarTypedValue var var.type (.string (order.store 4 uitmp)), oidIndex.drop 4)
  else if var.type = asnObjectId ∨ var.type = asnPrivImpliedObjectId then
    match announcedLen (var.type = asnPrivImpliedObjectId) complete var oidIndex with
    | none => none
    | some (uitmp, oidIndex) =>
        if maxOidLen < uitmp then none
        else
          some (snmpSetVarTypedValue var var.type (.objid (zeroFilled oidIndex uitmp)),
            oidIndex.drop uitmp)
  else if isStringIndex var.type ∨ var.type = asnPrivImpliedOctetStr then
    match announcedLen (var.type = asnPrivImpliedOctetStr) complete var oidIndex with
    | none => none
    | some (uitmp, oidIndex) =>
        if uitmp = 0 then some (var, oidIndex)
        else if maxOidLen < uitmp then none
        else
          some ({ var with val := .string ((zeroFilled oidIndex uitmp).map UInt8.ofNat) },
            oidIndex.drop uitmp)
  else none

def parseOidIndexes (order : ByteOrder) : Oid → List VariableList → Option (List VariableList)
  | oidIndex, [] => if oidIndex.length = 0 then some [] else none
  | oidIndex, var :: data =>
      if oidIndex.length = 0 then none
      else
        match parseOneOidIndex order false oidIndex var with
        | none => none
        | some (var, oidIndex) => (parseOidIndexes order oidIndex data).map (var :: ·)

end NetSnmp
