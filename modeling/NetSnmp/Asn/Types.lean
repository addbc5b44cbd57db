import NetSnmp.Machine

/-!
# PDUs, variables and their ASN.1 types

The data that the encoders read and the decoders fill in.  The members of the
`netsnmp_vardata` union are the constructors of `Vardata`; a variable keeps its
ASN.1 type next to the value, as in the source.
-/

namespace NetSnmp

abbrev asnInteger : Byte := 0x02
abbrev asnBitStr : Byte := 0x03
abbrev asnOctetStr : Byte := 0x04
abbrev asnNull : Byte := 0x05
abbrev asnObjectId : Byte := 0x06
/-- `ASN_SEQUENCE | ASN_CONSTRUCTOR` -/
abbrev asnSequence : Byte := 0x30
abbrev asnIpaddress : Byte := 0x40
abbrev asnCounter : Byte := 0x41
/-- Also `ASN_UNSIGNED`. -/
abbrev asnGauge : Byte := 0x42
abbrev asnTimeticks : Byte := 0x43
abbrev asnOpaque : Byte := 0x44
abbrev asnNsap : Byte := 0x45
abbrev asnCounter64 : Byte := 0x46
abbrev asnUinteger : Byte := 0x47
abbrev asnOpaqueTag1 : Byte := 0x9f
abbrev asnOpaqueCounter64 : Byte := 0x76
abbrev asnOpaqueFloat : Byte := 0x78
abbrev asnOpaqueDouble : Byte := 0x79
abbrev asnOpaqueI64 : Byte := 0x7a
abbrev asnOpaqueU64 : Byte := 0x7b
abbrev asnPrivInclRange : Byte := 0xc2
abbrev asnPrivExclRange : Byte := 0xc3
abbrev asnPrivRetry : Byte := 0xc7
abbrev asnPrivStop : Byte := 0xc8
abbrev snmpNosuchobject : Byte := 0x80
abbrev snmpNosuchinstance : Byte := 0x81
abbrev snmpEndofmibview : Byte := 0x82

def asnOpaqueCounter64MxBerLen : Nat := 12
def asnOpaqueFloatBerLen : Nat := 7
def asnOpaqueDoubleBerLen : Nat := 11

/-- `ASN_BIT8`, `ASN_LONG_LEN`: the top bit of an octet. -/
def hasBit8 (octet : Byte) : Bool := octet &&& 0x80 != 0

def maxOidLen : Nat := 128

def maxSubid : Nat := 0xFFFFFFFF

def snmpMaxPacketLen : Nat := 0x7fffffff

abbrev snmpMsgGet : Int := 0xa0
abbrev snmpMsgGetnext : Int := 0xa1
abbrev snmpMsgResponse : Int := 0xa2
abbrev snmpMsgSet : Int := 0xa3
abbrev snmpMsgTrap : Int := 0xa4
abbrev snmpMsgGetbulk : Int := 0xa5
abbrev snmpMsgInform : Int := 0xa6
abbrev snmpMsgTrap2 : Int := 0xa7
abbrev snmpMsgReport : Int := 0xa8

def ucdMsgFlagResponsePdu : UInt64 := 0x100

def ucdMsgFlagBulkToobig : UInt64 := 0x010000

abbrev Oid := List Nat

/-- The value of a variable: one constructor for each member of the union. -/
inductive Vardata where
  /-- `long *integer` -/
  | integer (value : Int)
  /-- `u_char *string` and `u_char *bitstring` -/
  | string (octets : List Byte)
  /-- `oid *objid` -/
  | objid (subids : Oid)
  /-- `struct counter64 *counter64` -/
  | counter64 (high low : Nat)
  /-- `float *floatVal`, by the 32 bits it is stored in. -/
  | floatVal (bits : Nat)
  /-- `double *doubleVal`, by the 64 bits it is stored in. -/
  | doubleVal (bits : Nat)
  /-- No member is set; the variable still has a `val_len`. -/
  | unset (valLen : Nat)
  deriving DecidableEq, Repr

/-- `netsnmp_variable_list`, without the link to the next variable. -/
structure VariableList where
  name : Oid
  type : Byte
  val : Vardata
  deriving DecidableEq, Repr

/-- `netsnmp_pdu`, the fields that the SNMP and AgentX codecs read or write; the list
headed by `variables` is `variableList`. -/
structure NetsnmpPdu where
  version : Int := 0
  command : Int := 0
  flags : UInt64 := 0
  reqid : Int := 0
  transid : Int := 0
  sessid : Int := 0
  errstat : Int := 0
  errindex : Int := 0
  time : Nat := 0
  enterprise : Oid := []
  agentAddr : Vector Byte 4 := Vector.replicate 4 0
  trapType : Int := 0
  specificType : Int := 0
  community : List Byte := []
  contextName : List Byte := []
  priority : Int := 0
  rangeSubid : Int := 0
  variableList : List VariableList := []
  deriving DecidableEq, Repr

end NetSnmp
