import NetSnmp.Asn.DecodeObjid
import NetSnmp.Snmp.Parse

/-!
# PDUs that can be encoded

The conditions under which the fields of a PDU have an encoding, and the PDU
that a receiver gets to see: the variables end in front of the first one of
type `ASN_PRIV_STOP`, and a variable of a type without a value carries none.
-/

namespace NetSnmp

def isNullType (type : Byte) : Bool :=
  type = asnNull || type = snmpNosuchobject || type = snmpNosuchinstance ||
    type = snmpEndofmibview

def IsCounter64 (type : Byte) : Prop :=
  type = asnCounter64 ∨ type = asnOpaqueCounter64 ∨ type = asnOpaqueU64 ∨ type = asnOpaqueI64

inductive EncodableValue : Byte → Vardata → Prop
  | integer {value : Int} (lower : int32Min ≤ value) (upper : value ≤ int32Max) :
      EncodableValue asnInteger (.integer value)
  | unsigned {type : Byte} {value : Nat} (isUnsigned : IsUnsigned type)
      (upper : value ≤ uint32Max) : EncodableValue type (.integer value)
  | counter64 {type : Byte} {high low : Nat} (isCounter64 : IsCounter64 type)
      (high_le : high ≤ uint32Max) (low_le : low ≤ uint32Max) :
      EncodableValue type (.counter64 high low)
  | string {type : Byte} {str : List Byte} (isString : type = asnOctetStr ∨ type = asnNsap) :
      EncodableValue type (.string str)
  | ipaddress {str : List Byte} (length_eq : str.length = 4) :
      EncodableValue asnIpaddress (.string str)
  /-- Opaque values that do not look like the wrapper of a special value. -/
  | opaqueString {str : List Byte} (head : str.head? ≠ some asnOpaqueTag1) :
      EncodableValue asnOpaque (.string str)
  | objid {name : Oid} (encodable : EncodableOid name) : EncodableValue asnObjectId (.objid name)
  | null {type : Byte} {val : Vardata} (isNull : isNullType type = true) : EncodableValue type val
  | bitstring {str : List Byte} (nonempty : str ≠ []) : EncodableValue asnBitStr (.string str)
  | floatVal {bits : Nat} (small : bits < 2 ^ 32) : EncodableValue asnOpaqueFloat (.floatVal bits)
  | doubleVal {bits : Nat} (small : bits < 2 ^ 64) :
      EncodableValue asnOpaqueDouble (.doubleVal bits)

/-- A number of type `long` in the range of `int32_t`. -/
def IsInt32 (value : Int) : Prop := int32Min ≤ value ∧ value ≤ int32Max

namespace VariableList

/-- Name and value of the variable have an encoding. -/
def Encodable (var : VariableList) : Prop :=
  EncodableOid var.name ∧ EncodableValue var.type var.val

def received (var : VariableList) : VariableList :=
  if isNullType var.type then { var with val := .unset 0 } else var

/-- Two variables with the same name and type, and with the same value if their type has one. -/
def Same (var var' : VariableList) : Prop :=
  var'.name = var.name ∧ var'.type = var.type ∧
    (isNullType var.type = false → var'.val = var.val)

theorem same_received (var : VariableList) : Same var var.received := by
  unfold Same received
  split <;> simp_all

end VariableList

namespace NetsnmpPdu

/-- The variables in front of the first one of type `ASN_PRIV_STOP`. -/
def sentVariables (pdu : NetsnmpPdu) : List VariableList :=
  pdu.variableList.takeWhile (fun var => var.type ≠ asnPrivStop)

structure EncodableTrap (pdu : NetsnmpPdu) : Prop where
  enterprise : EncodableOid pdu.enterprise
  trapType : IsInt32 pdu.trapType
  specificType : IsInt32 pdu.specificType
  time : pdu.time ≤ uint32Max

structure EncodableFields (pdu : NetsnmpPdu) : Prop where
  reqid : IsInt32 pdu.reqid
  errstat : IsInt32 pdu.errstat
  errindex : IsInt32 pdu.errindex

/-- The fields that the encoding of the PDU depends on are in range. -/
structure Encodable (pdu : NetsnmpPdu) : Prop where
  command : pdu.command = snmpMsgTrap ∨ isPduCommand pdu.command = true
  trap : pdu.command = snmpMsgTrap → pdu.EncodableTrap
  fields : pdu.command ≠ snmpMsgTrap → pdu.EncodableFields
  varbinds : ∀ var ∈ pdu.sentVariables, var.Encodable

/-- Two PDUs agree in the command and in the header fields that go with it. -/
structure SameHeader (pdu pdu' : NetsnmpPdu) : Prop where
  command : pdu'.command = pdu.command
  trap : pdu.command = snmpMsgTrap →
    pdu'.enterprise = pdu.enterprise ∧ pdu'.agentAddr = pdu.agentAddr ∧
      pdu'.trapType = pdu.trapType ∧ pdu'.specificType = pdu.specificType ∧ pdu'.time = pdu.time
  fields : pdu.command ≠ snmpMsgTrap →
    pdu'.reqid = pdu.reqid ∧ pdu'.errstat = pdu.errstat ∧ pdu'.errindex = pdu.errindex

/-- The header fields of `pdu` as a receiver stores them into a PDU. -/
def receivedFields (received pdu : NetsnmpPdu) : NetsnmpPdu :=
  if pdu.command = snmpMsgTrap then
    { received with
      enterprise := pdu.enterprise
      agentAddr := pdu.agentAddr
      trapType := pdu.trapType
      specificType := pdu.specificType
      time := pdu.time }
  else
    { received with
      reqid := pdu.reqid
      errstat := pdu.errstat
      errindex := pdu.errindex }

/-- What a receiver makes of `pdu` when it stores it into `fresh`. -/
def receivedInto (fresh pdu : NetsnmpPdu) : NetsnmpPdu :=
  { receivedFields
      { fresh with
        command := pdu.command
        flags := snmpPduParseFlags fresh.flags pdu.command } pdu with
    variableList := pdu.sentVariables.map VariableList.received }

theorem sameHeader_receivedInto (fresh pdu : NetsnmpPdu) :
    SameHeader pdu (receivedInto fresh pdu) where
  command := by
    unfold receivedInto receivedFields
    split <;> rfl
  trap isTrap := by simp [receivedInto, receivedFields, isTrap]
  fields other := by simp [receivedInto, receivedFields, other]

theorem same_variables_receivedInto (fresh pdu : NetsnmpPdu) :
    List.Forall₂ VariableList.Same pdu.sentVariables (receivedInto fresh pdu).variableList := by
  change List.Forall₂ _ pdu.sentVariables (pdu.sentVariables.map VariableList.received)
  rw [List.forall₂_map_right_iff]
  exact List.forall₂_same.mpr fun var _ => var.same_received

end NetsnmpPdu

end NetSnmp
