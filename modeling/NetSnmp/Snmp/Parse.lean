import NetSnmp.Asn.Parse

/-!
# The SNMP PDU decoder

`snmp_parse_var_op` and `snmp_pdu_parse`.
-/

namespace NetSnmp

open Reader

/-- What `snmp_parse_var_op` hands back. -/
structure VarOp where
  next : Ptr
  /-- The value left in `*listlength`. -/
  left : Nat
  /-- `var_name` -/
  name : Oid
  /-- `var_val_type` -/
  type : Byte
  /-- `var_val_len` -/
  valLen : Nat
  /-- `var_val`: the pointer to the encoded value. -/
  val : Ptr
  deriving DecidableEq, Repr

def snmpParseVarOp (data : Ptr) (varNameLen listlength : Nat) : Reader VarOp :=
  within data listlength do
    let sequence ← asnParseSequence data listlength asnSequence
    let name ← asnParseObjid sequence.next sequence.left varNameLen
    failIf (name.type ≠ asnObjectId)
    let header ← asnParseHeader name.next name.left
    let next := header.next.drop header.left
    let left ← assignLength listlength
      (toSizeT (listlength - toCInt ((data.length : Int) - next.length)))
    pure ⟨next, left, name.value, header.type, header.left, name.next⟩

abbrev TypedValue := Byte × Vardata

/-- The `switch` on the type of a variable in `snmp_pdu_parse`.  The decoders of the values
are told `SNMP_MAX_PACKET_LEN` as the size that is left. -/
def snmpPduParseValue (type : Byte) (valLen : Nat) (varVal : Ptr) : Reader TypedValue :=
  let len := snmpMaxPacketLen
  if type = asnInteger then do
    let p ← asnParseInt varVal len
    pure (p.type, .integer p.value)
  else if type = asnCounter ∨ type = asnGauge ∨ type = asnTimeticks ∨ type = asnUinteger then do
    let p ← asnParseUnsignedInt varVal len
    pure (p.type, .integer (toCLong p.value))
  else if type = asnOpaqueCounter64 ∨ type = asnOpaqueU64 ∨ type = asnCounter64 then do
    let p ← asnParseUnsignedInt64 varVal len
    pure (p.type, .counter64 p.value.1 p.value.2)
  else if type = asnOpaqueFloat then do
    let p ← asnParseFloat varVal len
    pure (p.type, .floatVal p.value)
  else if type = asnOpaqueDouble then do
    let p ← asnParseDouble varVal len
    pure (p.type, .doubleVal p.value)
  else if type = asnOpaqueI64 then do
    let p ← asnParseSignedInt64 varVal len
    pure (p.type, .counter64 p.value.1 p.value.2)
  else if type = asnIpaddress ∨ type = asnOctetStr ∨ type = asnOpaque ∨ type = asnNsap then do
    failIf (type = asnIpaddress ∧ valLen ≠ 4)
    let p ← asnParseString varVal len valLen
    pure (p.type, .string p.value)
  else if type = asnObjectId then do
    let p ← asnParseObjid varVal len maxOidLen
    pure (p.type, .objid p.value)
  else if type = snmpNosuchobject ∨ type = snmpNosuchinstance ∨ type = snmpEndofmibview ∨
      type = asnNull then
    pure (type, .unset valLen)
  else if type = asnBitStr then do
    let p ← asnParseBitstring varVal len valLen
    pure (p.type, .string p.value)
  else
    null

/-- The end of a list of variables: pointer, `*length` and the variables. -/
abbrev VarbindsEnd := Ptr × Nat × List VariableList

/-- The loop over the varbinds of `snmp_pdu_parse`, with a bound on the number of passes. -/
def snmpPduParseVarbinds : (passes : Nat) → (data : Ptr) → (length : Nat) → Reader VarbindsEnd
  | 0, _, _ => diverge
  | passes + 1, data, length =>
      if 0 < toCInt length then do
        let op ← snmpParseVarOp data maxOidLen length
        let (type, val) ← snmpPduParseValue op.type op.valLen op.val
        emit (.iteration length op.left)
        let (data, length, rest) ← snmpPduParseVarbinds passes op.next op.left
        pure (data, length, ⟨op.name, type, val⟩ :: rest)
      else
        pure (data, length, [])

/-- `asn_parse_string` into `agent_addr`: a shorter string is followed by a zero byte, and the
bytes behind it stay. -/
def storeAgentAddr (agentAddr : Vector Byte 4) (str : List Byte) : Vector Byte 4 :=
  Vector.ofFn fun i => if i.val < str.length then str.getD i 0
    else if i.val = str.length then 0 else agentAddr.get i

/-- The state of `snmp_pdu_parse` between two fields. -/
structure PduParsed where
  pdu : NetsnmpPdu
  data : Ptr
  length : Nat
  deriving DecidableEq, Repr

def snmpPduParseTrapFields (state : PduParsed) : Reader PduParsed := do
  let enterprise ← asnParseObjid state.data state.length maxOidLen
  let agentAddr ← asnParseString enterprise.next enterprise.left 4
  let trapType ← asnParseInt agentAddr.next agentAddr.left
  let specificType ← asnParseInt trapType.next trapType.left
  let time ← asnParseUnsignedInt specificType.next specificType.left
  pure {
    pdu := { state.pdu with
      enterprise := enterprise.value
      agentAddr := storeAgentAddr state.pdu.agentAddr agentAddr.value
      trapType := trapType.value
      specificType := specificType.value
      time := time.value }
    data := time.next
    length := time.left }

def snmpPduParseFields (state : PduParsed) : Reader PduParsed := do
  let reqid ← asnParseInt state.data state.length
  let errstat ← asnParseInt reqid.next reqid.left
  let errindex ← asnParseInt errstat.next errstat.left
  pure {
    pdu := { state.pdu with
      reqid := reqid.value
      errstat := errstat.value
      errindex := errindex.value }
    data := errindex.next
    length := errindex.left }

/-- The commands that `snmp_pdu_parse` accepts besides the SNMPv1 trap. -/
def isPduCommand (command : Int) : Bool :=
  command = snmpMsgResponse || command = snmpMsgReport || command = snmpMsgTrap2 ||
    command = snmpMsgInform || command = snmpMsgGet || command = snmpMsgGetnext ||
    command = snmpMsgGetbulk || command = snmpMsgSet

def snmpPduParseFlags (flags : UInt64) (command : Int) : UInt64 :=
  let flags := flags &&& ~~~ucdMsgFlagResponsePdu
  if command = snmpMsgResponse ∨ command = snmpMsgReport then flags ||| ucdMsgFlagResponsePdu
  else flags

/-- The `switch` on the command. -/
def snmpPduParseHead (state : PduParsed) : Reader PduParsed :=
  if state.pdu.command = snmpMsgTrap then snmpPduParseTrapFields state
  else if isPduCommand state.pdu.command then snmpPduParseFields state
  else null

/-- `pdu->variables` after the loop: a first variable replaces the list. -/
def linkVariables (old parsed : List VariableList) : List VariableList :=
  if parsed = [] then old else parsed

/-- `snmp_pdu_parse`: fills in a PDU from `length` bytes, and reports where it stops. -/
def snmpPduParse (pdu : NetsnmpPdu) (data : Ptr) (length : Nat) : Reader PduParsed :=
  within data length do
    let header ← asnParseHeader data length
    let command : Int := header.type.toNat
    let flags := snmpPduParseFlags pdu.flags command
    let state ← snmpPduParseHead ⟨{ pdu with command, flags }, header.next, header.left⟩
    let varbinds ← asnParseSequence state.data state.length asnSequence
    let (data, length, variableList) ←
      snmpPduParseVarbinds (data.length + 1) varbinds.next varbinds.left
    let variableList := linkVariables pdu.variableList variableList
    pure { pdu := { state.pdu with variableList }, data, length }

end NetSnmp
