import NetSnmp.Asn.Build

/-!
# The forward SNMP PDU encoder

`snmp_build_var_op` and `snmp_pdu_build`.  The headers of sequences come before
their contents, so that they are written over once the contents are known.
-/

namespace NetSnmp

/-- The `switch` on the type of a variable in `snmp_build_var_op`.  There is no result when the
value is not the member of the union that belongs to the type; a string that is not there is
built as zeros. -/
def snmpBuildValue (buf : WBuf) (type : Byte) (val : Vardata) : Option WBuf :=
  if type = asnInteger then
    match val with
    | .integer value => asnBuildInt buf type value
    | _ => none
  else if type = asnGauge ∨ type = asnCounter ∨ type = asnTimeticks ∨ type = asnUinteger then
    match val with
    | .integer value => asnBuildUnsignedInt buf type (toSizeT value)
    | _ => none
  else if type = asnOpaqueCounter64 ∨ type = asnOpaqueU64 ∨ type = asnCounter64 then
    match val with
    | .counter64 high low => asnBuildUnsignedInt64 buf type high low
    | _ => none
  else if type = asnOctetStr ∨ type = asnIpaddress ∨ type = asnOpaque ∨ type = asnNsap then
    match val with
    | .string str => asnBuildString buf type str
    | .unset valLen => asnBuildString buf type (List.replicate valLen 0)
    | _ => none
  else if type = asnObjectId then
    match val with
    | .objid objid => asnBuildObjid buf type objid
    | _ => none
  else if type = asnNull then asnBuildNull buf type
  else if type = asnBitStr then
    match val with
    | .string str => asnBuildBitstring buf type str
    | _ => none
  else if type = snmpNosuchobject ∨ type = snmpNosuchinstance ∨ type = snmpEndofmibview then
    asnBuildNull buf type
  else if type = asnOpaqueFloat then
    match val with
    | .floatVal bits => asnBuildFloat buf bits
    | _ => none
  else if type = asnOpaqueDouble then
    match val with
    | .doubleVal bits => asnBuildDouble buf bits
    | _ => none
  else if type = asnOpaqueI64 then
    match val with
    | .counter64 high low => asnBuildSignedInt64 buf high low
    | _ => none
  else none

def snmpBuildVarOp (buf : WBuf) (var : VariableList) : Option WBuf :=
  let headerLen := 4
  let dataPtr := buf.written.length
  if buf.datalength < headerLen then none
  else do
    let buf ← buf.skip headerLen
    let buf ← asnBuildObjid buf asnObjectId var.name
    let buf ← snmpBuildValue buf var.type var.val
    let sequenceLen := buf.written.length - dataPtr - headerLen
    -- the length that goes into the header is `headerLen`, and not `sequenceLen`
    some (asnBuildSequenceAt buf dataPtr sequenceLen asnSequence headerLen)

abbrev BuildEnd := WBuf × List VariableList

/-- The loop over the variables of `snmp_pdu_build`; `saved` tells whether `save_vp` is set.
A variable that does not fit may be dropped from a bulk response, with all that follow it. -/
def snmpPduBuildVarbinds (flags : UInt64) : (saved : Bool) → List VariableList → WBuf →
    Option BuildEnd
  | _, [], buf => some (buf, [])
  | saved, vp :: rest, buf =>
      if vp.type = asnPrivStop then some (buf, vp :: rest)
      else
        match snmpBuildVarOp buf vp with
        | some built => snmpPduBuildVarbinds flags true rest built
        | none =>
            if saved ∧ flags &&& ucdMsgFlagBulkToobig ≠ 0 then some (buf, vp :: rest) else none

def buildTrapFields (pdu : NetsnmpPdu) (buf : WBuf) : Option WBuf := do
  let buf ← asnBuildObjid buf asnObjectId pdu.enterprise
  let buf ← asnBuildString buf asnIpaddress pdu.agentAddr.toList
  let buf ← asnBuildInt buf asnInteger pdu.trapType
  let buf ← asnBuildInt buf asnInteger pdu.specificType
  asnBuildUnsignedInt buf asnTimeticks pdu.time

def buildFields (pdu : NetsnmpPdu) (buf : WBuf) : Option WBuf := do
  let buf ← asnBuildInt buf asnInteger pdu.reqid
  let buf ← asnBuildInt buf asnInteger pdu.errstat
  asnBuildInt buf asnInteger pdu.errindex

def buildHead (pdu : NetsnmpPdu) (buf : WBuf) : Option WBuf :=
  if pdu.command = snmpMsgTrap then buildTrapFields pdu buf
  else buildFields pdu buf

/-- What `snmp_pdu_build` leaves behind. -/
structure PduBuilt where
  buf : WBuf
  /-- The variables of the PDU without those that were dropped. -/
  variableList : List VariableList
  deriving DecidableEq, Repr

def snmpPduBuild (pdu : NetsnmpPdu) (cp : WBuf) : Option PduBuilt := do
  let length := cp.datalength
  let h1 := cp.written.length
  let cp ← asnBuildSequence cp (toUChar pdu.command) 0
  let h1e := cp.written.length
  let cp ← buildHead pdu cp
  let h2 := cp.written.length
  let cp ← asnBuildSequence cp asnSequence 0
  let h2e := cp.written.length
  let (cp, dropped) ← snmpPduBuildVarbinds pdu.flags false pdu.variableList cp
  let kept := pdu.variableList.take (pdu.variableList.length - dropped.length)
  -- without any variable built there is no `save_vp` to cut the list behind
  let variableList := if kept = [] then pdu.variableList else kept
  let cpEnd := cp.written.length
  let cp := asnBuildSequenceAt cp h2 length asnSequence (cpEnd - h2e)
  let cp := asnBuildSequenceAt cp h1 (length - 4) (toUChar pdu.command) (cpEnd - h1e)
  some ⟨cp, variableList⟩

end NetSnmp
