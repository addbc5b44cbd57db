import NetSnmp.OidStash.Stash
import NetSnmp.Session.Requests
import NetSnmp.Snmp.Build
import NetSnmp.Snmp.ReverseBuild
import NetSnmp.Vacm.SimpleUsm

/-!
# Messages

`snmp_build` puts a PDU into a message of its version, from the end of the buffer
or, if the PDU asks for it, from the start.  An SNMPv3 message is completed by a
security module, which is a record of functions as in the source.

An error is the value that is left in `s_snmp_errno`.  Fresh memory reads as zeros.
-/

namespace NetSnmp

abbrev snmpDefaultVersion : Int := -1
abbrev snmpVersion1 : Int := 0
abbrev snmpVersion2c : Int := 1

abbrev snmpDefaultSecmodel : Int := -1
abbrev snmpSecModelTsm : Int := 4
abbrev snmpSecLevelAuthnopriv : Int := 2

abbrev snmpDefaultErrstat : Int := -1
abbrev snmpDefaultErrindex : Int := -1

def ucdMsgFlagExpectResponse : UInt64 := 0x200

def ucdMsgFlagForwardEncode : UInt64 := 0x8000

def snmpMinMaxLen : Nat := 484

def snmpMaxMsgSize : Nat := 1472

def snmpMaxMsgV3Hdrs : Nat := 51

def defaultEnterprise : Oid := [1, 3, 6, 1, 4, 1, 3, 1, 1]

def snmperrV2InV1 : Int := -7
def snmperrV1InV2 : Int := -8
def snmperrBadRepeaters : Int := -9
def snmperrBadRepetitions : Int := -10
def snmperrBadAsn1Build : Int := -11
def snmperrBadVersion : Int := -14
def snmperrBadContext : Int := -17
def snmperrUnknownPdu : Int := -23
def snmperrBadSecName : Int := -27
def snmperrBadSecLevel : Int := -28

/-- `netsnmp_pdu` with the fields of a message. -/
structure MessagePdu extends NetsnmpPdu where
  msgid : Int := 0
  msgMaxSize : Nat := 0
  msgParseModel : Int := 0
  securityModel : Int := snmpDefaultSecmodel
  securityLevel : Int := 0
  securityEngineID : List Byte := []
  contextEngineID : List Byte := []
  /-- `contextName`, which may be `NULL` in a PDU that is not filled in yet. -/
  context : Option (List Byte) := none
  /-- `securityName`, which may be `NULL`. -/
  securityName : Option (List Byte) := none
  /-- `securityStateRef`, which belongs to the security module. -/
  securityStateRef : Option Nat := none
  deriving DecidableEq, Repr

/-- `netsnmp_session`, the fields that are read when a message is built. -/
structure NetsnmpSession where
  version : Int := snmpDefaultVersion
  flags : UInt64 := 0
  rcvMsgMaxSize : Nat := 0
  sndMsgMaxSize : Nat := 0
  community : List Byte := []
  securityModel : Int := snmpDefaultSecmodel
  securityLevel : Int := 0
  securityEngineID : List Byte := []
  contextEngineID : List Byte := []
  /-- `NULL` or a name, like the next field. -/
  contextName : Option (List Byte) := none
  securityName : Option (List Byte) := none
  deriving DecidableEq, Repr

/-- `struct snmp_secmod_outgoing_params` -/
structure OutgoingParams where
  msgProcModel : Int
  globalData : List Byte
  maxMsgSize : Nat
  secModel : Int
  secEngineID : List Byte
  secName : Option (List Byte)
  secLevel : Int
  scopedPdu : List Byte
  secStateRef : Option Nat
  /-- The room behind the header, which only the forward encoder is told. -/
  secParamsLen : Nat
  wholeMsgLen : Nat
  pdu : MessagePdu
  session : NetsnmpSession

/-- `struct snmp_secmod_def`, the functions that are called for a message to send.  What an encoder
answers may differ from one call to the next, by the time and by the salts it uses. -/
structure SnmpSecmodDef where
  /-- The result and the buffer with the whole message. -/
  encodeReverse : Option (Nat → OutgoingParams → RBuf → Int × RBuf) := none
  /-- The result and the whole message, of `*wholeMsgLen` bytes. -/
  encodeForward : Option (Nat → OutgoingParams → Int × List Byte) := none
  probeEngineid : Option (NetsnmpSession → Int × NetsnmpSession) := none
  postProbeEngineid : Option (NetsnmpSession → Int × NetsnmpSession) := none

structure Library where
  /-- `NETSNMP_DS_LIB_MSG_SEND_MAX` -/
  msgSendMax : Nat := 0
  /-- `NETSNMP_DS_LIB_REVERSE_ENCODE` -/
  reverseEncode : Bool := true
  disableV1 : Bool := false
  disableV2c : Bool := false
  disableV3 : Bool := false
  /-- `se_find_value_in_slist` of the configured default security model. -/
  defaultSecmod : Int := -1
  findSecMod : Int → Option SnmpSecmodDef

def netsnmpMaxSendMsgSize (library : Library) : Nat :=
  let max := library.msgSendMax
  if max = 0 then snmpMaxPacketLen
  else if max < snmpMinMaxLen then snmpMinMaxLen
  else if snmpMaxPacketLen < max then snmpMaxPacketLen
  else max

/-- `NETSNMP_RUNTIME_PROTOCOL_SKIP` -/
def runtimeProtocolSkip (library : Library) (version : Int) : Bool :=
  (version == snmpVersion1 && library.disableV1) ||
    (version == snmpVersion2c && library.disableV2c) ||
    (version == snmpVersion3 && library.disableV3)

/-- `errstat` and `errindex`, if they have no value yet. -/
def initializeErrors (pdu : MessagePdu) : MessagePdu :=
  { pdu with
    errstat := if pdu.errstat = snmpDefaultErrstat then 0 else pdu.errstat
    errindex := if pdu.errindex = snmpDefaultErrindex then 0 else pdu.errindex }

/-- A GETBULK request keeps `non_repeaters` in `errstat` and `max_repetitions` in `errindex`. -/
def checkBulk (pdu : MessagePdu) : Except Int MessagePdu :=
  if pdu.errindex < 0 then .error snmperrBadRepetitions
  else if pdu.errstat < 0 then .error snmperrBadRepeaters
  else .ok pdu

/-- The `switch` on the command in `_snmp_build`. -/
def checkCommand (pdu : MessagePdu) : Except Int MessagePdu :=
  if pdu.command ∈ [snmpMsgResponse, snmpMsgGet, snmpMsgGetnext, snmpMsgSet] then
    .ok (initializeErrors pdu)
  else if pdu.command = snmpMsgTrap2 ∨ pdu.command = snmpMsgInform then
    if pdu.version = snmpVersion1 then .error snmperrV2InV1
    else .ok (initializeErrors pdu)
  else if pdu.command = snmpMsgGetbulk then
    if pdu.version = snmpVersion1 then .error snmperrV2InV1
    else checkBulk pdu
  else if pdu.command = snmpMsgTrap then
    if pdu.version ≠ snmpVersion1 then .error snmperrV1InV2
    else
      -- a time that is not set has the value it gets by default
      .ok { pdu with
        reqid := 1
        enterprise := if pdu.enterprise = [] then defaultEnterprise else pdu.enterprise
        flags := pdu.flags &&& ~~~ucdMsgFlagExpectResponse }
  else .error snmperrUnknownPdu

/-- The `switch` on the command in `snmpv3_build`. -/
def checkCommandV3 (pdu : MessagePdu) : Except Int MessagePdu :=
  if pdu.command ∈ [snmpMsgResponse, snmpMsgTrap2, snmpMsgReport, snmpMsgInform, snmpMsgGet,
      snmpMsgGetnext, snmpMsgSet] then
    .ok (initializeErrors pdu)
  else if pdu.command = snmpMsgGetbulk then checkBulk pdu
  else if pdu.command = snmpMsgTrap then .error snmperrV1InV2
  else .error snmperrUnknownPdu

/-- The two engine IDs of `snmpv3_build`, from the session if the PDU has none. -/
def fillEngineIDs (session : NetsnmpSession) (pdu : MessagePdu) : MessagePdu :=
  let securityEngineID :=
    if pdu.securityEngineID = [] then session.securityEngineID else pdu.securityEngineID
  let contextEngineID :=
    if pdu.contextEngineID ≠ [] then pdu.contextEngineID
    else if session.contextEngineID ≠ [] then session.contextEngineID
    else securityEngineID
  { pdu with securityEngineID, contextEngineID }

/-- The context of `snmpv3_build`. -/
def fillContext (session : NetsnmpSession) (pdu : MessagePdu) : Except Int MessagePdu :=
  match pdu.context, session.contextName with
  | some _, _ => .ok pdu
  | none, some contextName => .ok { pdu with context := some contextName }
  | none, none => .error snmperrBadContext

/-- The security model of `snmpv3_build`. -/
def fillSecurityModel (library : Library) (session : NetsnmpSession) (pdu : MessagePdu) :
    MessagePdu :=
  if pdu.securityModel ≠ snmpDefaultSecmodel then pdu
  else if session.securityModel ≠ snmpDefaultSecmodel then
    { pdu with securityModel := session.securityModel }
  else
    { pdu with
      securityModel :=
        if library.defaultSecmod ≤ 0 then snmpSecModelUsm else library.defaultSecmod }

/-- The security name of `snmpv3_build`, which the session may get too. -/
def fillSecurityName (session : NetsnmpSession) (pdu : MessagePdu) :
    Except Int (NetsnmpSession × MessagePdu) :=
  match pdu.securityName with
  | some _ => .ok (session, pdu)
  | none =>
      if session.securityModel ≠ snmpSecModelTsm ∧ session.securityName.getD [] = [] then
        .error snmperrBadSecName
      else
        match session.securityName with
        | some securityName => .ok (session, { pdu with securityName := some securityName })
        | none =>
            .ok ({ session with securityName := some [] }, { pdu with securityName := some [] })

/-- The security level of `snmpv3_build`. -/
def fillSecurityLevel (session : NetsnmpSession) (pdu : MessagePdu) : Except Int MessagePdu :=
  if pdu.securityLevel ≠ 0 then .ok pdu
  else if session.securityLevel = 0 then .error snmperrBadSecLevel
  else .ok { pdu with securityLevel := session.securityLevel }

/-- What `snmpv3_build` does in front of the encoders. -/
def fillV3 (library : Library) (session : NetsnmpSession) (pdu : MessagePdu) :
    Except Int (NetsnmpSession × MessagePdu) := do
  let pdu ← checkCommandV3 pdu
  let pdu := fillEngineIDs session pdu
  let pdu ← fillContext session pdu
  let pdu := fillSecurityModel library session pdu
  let (session, pdu) ← fillSecurityName session pdu
  let pdu ← fillSecurityLevel session pdu
  .ok (session, pdu)

def snmpv3CalcMsgFlags (secLevel msgCommand : Int) : Byte :=
  let flags : Byte :=
    if secLevel = snmpSecLevelAuthnopriv then 0x01
    else if secLevel = snmpSecLevelAuthpriv then 0x03
    else 0
  if msgCommand ∈ [snmpMsgInform, snmpMsgGetbulk, snmpMsgGetnext, snmpMsgGet, snmpMsgSet] then
    flags ||| 0x04
  else flags

/-- `msgMaxSize` of the header: what the sender can receive. -/
def headerMaxSize (library : Library) (session : NetsnmpSession) : Nat :=
  let maxSize := netsnmpMaxSendMsgSize library
  if session.rcvMsgMaxSize < maxSize then session.rcvMsgMaxSize else maxSize

/-- `snmpv3_header_build`: the buffer behind the header and `*out_length`.  The two headers that
are written over take four bytes of room each once more. -/
def snmpv3HeaderBuild (library : Library) (session : NetsnmpSession) (pdu : MessagePdu)
    (packet : WBuf) : Option (WBuf × Nat) := do
  let start := packet.written.length
  let cp ← asnBuildSequence packet asnSequence 0
  let pb0e := cp.written.length
  let cp ← asnBuildInt cp asnInteger pdu.version
  let globalHdr := cp.written.length
  let cp ← asnBuildSequence cp asnSequence 0
  let globalHdrE := cp.written.length
  let cp ← asnBuildInt cp asnInteger pdu.msgid
  let cp ← asnBuildInt cp asnInteger (headerMaxSize library session)
  let cp ← asnBuildString cp asnOctetStr [snmpv3CalcMsgFlags pdu.securityLevel pdu.command]
  let cp ← asnBuildInt cp asnInteger pdu.securityModel
  let outLength := cp.datalength
  if outLength < 8 then none
  else
    let cpEnd := cp.written.length
    let cp := asnBuildSequenceAt cp globalHdr outLength asnSequence (cpEnd - globalHdrE)
    let cp := asnBuildSequenceAt cp start (outLength - 4) asnSequence (cpEnd - pb0e)
    some (cp, outLength - 8)

def snmpv3HeaderReallocRbuild (library : Library) (session : NetsnmpSession) (pdu : MessagePdu)
    (pkt : RBuf) : Option RBuf := do
  let startOffset := pkt.offset
  let pkt ← asnReallocRbuildInt true pkt asnInteger pdu.securityModel
  let pkt ← asnReallocRbuildString true pkt asnOctetStr
    [snmpv3CalcMsgFlags pdu.securityLevel pdu.command]
  let pkt ← asnReallocRbuildInt true pkt asnInteger (headerMaxSize library session)
  let pkt ← asnReallocRbuildInt true pkt asnInteger pdu.msgid
  let pkt ← asnReallocRbuildSequence true pkt asnSequence (pkt.offset - startOffset)
  asnReallocRbuildInt true pkt asnInteger pdu.version

def snmpv3ScopedPduHeaderBuild (pdu : MessagePdu) (packet : WBuf) : Option WBuf := do
  let pb ← asnBuildSequence packet asnSequence 0
  let pb ← asnBuildString pb asnOctetStr pdu.contextEngineID
  asnBuildString pb asnOctetStr (pdu.context.getD [])

def snmpv3ScopedPduHeaderReallocRbuild (pdu : MessagePdu) (bodyLen : Nat) (pkt : RBuf) :
    Option RBuf := do
  let startOffset := pkt.offset
  let pkt ← asnReallocRbuildString true pkt asnOctetStr (pdu.context.getD [])
  let pkt ← asnReallocRbuildString true pkt asnOctetStr pdu.contextEngineID
  asnReallocRbuildSequence true pkt asnSequence (pkt.offset - startOffset + bodyLen)

def WBuf.fresh (datalength : Nat) : WBuf := ⟨[], List.replicate datalength 0⟩

def RBuf.fresh (pktLen : Nat) : RBuf := ⟨pktLen, [], Nat.zero_le pktLen⟩

/-- The part of `snmpv3_packet_build` that builds a PDU into `spdu_buf`: the PDU without the
variables that were dropped, and the bytes in `spdu_buf`. -/
def scopedPduBuild (pdu : MessagePdu) : Option (MessagePdu × List Byte) := do
  let spduBuf := WBuf.fresh snmpMaxMsgSize
  let cp ← snmpv3ScopedPduHeaderBuild pdu spduBuf
  let built ← snmpPduBuild pdu.toNetsnmpPdu cp
  let spduLen := built.buf.written.length - 4
  let buf := asnBuildSequenceAt built.buf 0 snmpMaxMsgSize asnSequence spduLen
  some ({ pdu with variableList := built.variableList }, buf.written)

/-- What `snmpv3_packet_build` hands to the security module. -/
def forwardParams (library : Library) (session : NetsnmpSession) (pdu : MessagePdu)
    (pktLen : Nat) : Option OutgoingParams := do
  let (header, secParamsLen) ← snmpv3HeaderBuild library session pdu (.fresh pktLen)
  let (pdu, scopedPdu) ← scopedPduBuild pdu
  some
    { msgProcModel := pdu.msgParseModel
      globalData := header.written
      maxMsgSize := snmpMaxMsgSize
      secModel := pdu.securityModel
      secEngineID := pdu.securityEngineID
      secName := pdu.securityName
      secLevel := pdu.securityLevel
      scopedPdu := scopedPdu
      secStateRef := pdu.securityStateRef
      secParamsLen := secParamsLen
      wholeMsgLen := snmpMaxMsgSize
      pdu := pdu
      session := session }

/-- What `snmp_build` leaves behind. -/
structure MessageBuilt where
  session : NetsnmpSession
  pdu : MessagePdu
  pktLen : Nat
  /-- The message at the start of the buffer, of `*pkt_len` bytes. -/
  atStart : List Byte := []
  /-- The message at the end of the buffer, of `*offset` bytes. -/
  atEnd : List Byte := []

/-- The result of a security module, as `snmpv3_build` keeps it. -/
def secmodError (result : Int) : Int := if result = -1 then 0 else result

def snmpv3PacketBuild (library : Library) (call : Nat) (session : NetsnmpSession)
    (pdu : MessagePdu) (pktLen : Nat) : Except Int MessageBuilt :=
  match forwardParams library session pdu pktLen with
  | none => .error 0
  | some parms =>
      match (library.findSecMod pdu.securityModel).bind SnmpSecmodDef.encodeForward with
      | none => .error 0
      | some encodeForward =>
          let (result, wholeMsg) := encodeForward call parms
          if result = 0 then
            .ok { session, pdu := parms.pdu, pktLen := wholeMsg.length, atStart := wholeMsg }
          else .error (secmodError result)

/-- The part of `snmpv3_packet_realloc_rbuild` in front of the security module. -/
def reverseParams (library : Library) (session : NetsnmpSession) (pdu : MessagePdu)
    (pkt : RBuf) : Option (OutgoingParams × RBuf) := do
  let bodyEndOffset := pkt.offset
  let pkt ← snmpPduReallocRbuild pdu.toNetsnmpPdu pkt
  let pkt ← snmpv3ScopedPduHeaderReallocRbuild pdu (pkt.offset - bodyEndOffset) pkt
  let hdrbuf ← snmpv3HeaderReallocRbuild library session pdu (.fresh snmpMaxMsgV3Hdrs)
  some
    ({ msgProcModel := pdu.msgParseModel
       globalData := hdrbuf.written
       maxMsgSize := snmpMaxMsgSize
       secModel := pdu.securityModel
       secEngineID := pdu.securityEngineID
       secName := pdu.securityName
       secLevel := pdu.securityLevel
       scopedPdu := pkt.written
       secStateRef := pdu.securityStateRef
       secParamsLen := 0
       wholeMsgLen := pkt.pktLen
       pdu := pdu
       session := session }, pkt)

def snmpv3PacketReallocRbuild (library : Library) (call : Nat) (session : NetsnmpSession)
    (pdu : MessagePdu) (pkt : RBuf) : Except Int MessageBuilt :=
  match reverseParams library session pdu pkt with
  | none => .error 0
  | some (parms, pkt) =>
      match (library.findSecMod pdu.securityModel).bind SnmpSecmodDef.encodeReverse with
      | none => .error 0
      | some encodeReverse =>
          let (result, pkt) := encodeReverse call parms pkt
          if result = 0 then
            .ok { session, pdu, pktLen := pkt.pktLen, atEnd := pkt.written }
          else .error (secmodError result)

def snmpv3Build (library : Library) (call : Nat) (session : NetsnmpSession) (pdu : MessagePdu)
    (pktLen : Nat) : Except Int MessageBuilt := do
  let (session, pdu) ← fillV3 library session pdu
  if pdu.flags &&& ucdMsgFlagForwardEncode = 0 then
    snmpv3PacketReallocRbuild library call session pdu (.fresh pktLen)
  else snmpv3PacketBuild library call session pdu pktLen

def fillCommunity (session : NetsnmpSession) (pdu : MessagePdu) : MessagePdu :=
  if pdu.community = [] ∧ pdu.command ≠ snmpMsgResponse then
    { pdu with community := session.community }
  else pdu

/-- The part of `_snmp_build` that builds an SNMPv1 or SNMPv2c message from the end. -/
def communityRbuild (pdu : MessagePdu) (pkt : RBuf) : Option RBuf := do
  let startOffset := pkt.offset
  let pkt ← snmpPduReallocRbuild pdu.toNetsnmpPdu pkt
  let pkt ← asnReallocRbuildString true pkt asnOctetStr pdu.community
  let pkt ← asnReallocRbuildInt true pkt asnInteger pdu.version
  asnReallocRbuildSequence true pkt asnSequence (pkt.offset - startOffset)

/-- The part of `_snmp_build` that builds such a message from the start. -/
def communityBuild (pdu : MessagePdu) (pkt : WBuf) : Option PduBuilt := do
  let length := pkt.datalength
  let start := pkt.written.length
  let cp ← asnBuildSequence pkt asnSequence 0
  let h0e := cp.written.length
  let cp ← asnBuildInt cp asnInteger pdu.version
  let cp ← asnBuildString cp asnOctetStr pdu.community
  let built ← snmpPduBuild pdu.toNetsnmpPdu cp
  let cpEnd := built.buf.written.length
  some ⟨asnBuildSequenceAt built.buf start length asnSequence (cpEnd - h0e), built.variableList⟩

/-- `_snmp_build` for the versions with a community. -/
def snmpCommunityBuild (session : NetsnmpSession) (pdu : MessagePdu) (pktLen : Nat) :
    Except Int MessageBuilt := do
  let pdu ← checkCommand pdu
  if pdu.version ≠ snmpVersion1 ∧ pdu.version ≠ snmpVersion2c then .error snmperrBadVersion
  else
    let pdu := fillCommunity session pdu
    if pdu.flags &&& ucdMsgFlagForwardEncode = 0 then
      match communityRbuild pdu (.fresh pktLen) with
      | none => .error 0
      | some pkt => .ok { session, pdu, pktLen := pkt.pktLen, atEnd := pkt.written }
    else
      match communityBuild pdu (.fresh pktLen) with
      | none => .error 0
      | some built =>
          .ok
            { session
              pdu := { pdu with variableList := built.variableList }
              pktLen := built.buf.written.length
              atStart := built.buf.written }

/-- The direction of `_snmp_build`: forwards for a bulk response that is too big and where the
library is not told to encode backwards. -/
def chooseDirection (library : Library) (pdu : MessagePdu) : MessagePdu :=
  if pdu.flags &&& ucdMsgFlagBulkToobig ≠ 0 ∨ library.reverseEncode = false then
    { pdu with flags := pdu.flags ||| ucdMsgFlagForwardEncode }
  else pdu

/-- `_snmp_build` -/
def snmpBuildMessage (library : Library) (call : Nat) (session : NetsnmpSession)
    (pdu : MessagePdu) (pktLen : Nat) : Except Int MessageBuilt :=
  if runtimeProtocolSkip library pdu.version then .error snmperrBadVersion
  else
    let pdu := chooseDirection library pdu
    if pdu.version = snmpVersion3 then snmpv3Build library call session pdu pktLen
    else snmpCommunityBuild session pdu pktLen

def snmpBuild (library : Library) (call : Nat) (session : NetsnmpSession) (pdu : MessagePdu)
    (pktLen : Nat) : Except Int MessageBuilt :=
  match snmpBuildMessage library call session pdu pktLen with
  | .error errno => .error (if errno = 0 then snmperrBadAsn1Build else errno)
  | .ok built => .ok built

end NetSnmp
