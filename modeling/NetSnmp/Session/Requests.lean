import Mathlib.Logic.Relation
import NetSnmp.Asn.Types
import NetSnmp.TailQueue

/-!
# The pending requests of a session

`_sess_async_send`, `_sess_process_packet_handle_pdu`, `snmp_sess_timeout`,
`snmp_resend_request` and `snmp_sess_close` on the list of requests that wait
for a response.

The loops over the list take one step for each request, so that every state in
the middle of a loop is a state of the machine.  What the code calls but does
not decide here is part of the step: the result of a callback and the requests
it sends, whether a packet is built, sent and allocated, and the clock.
-/

namespace NetSnmp

/-- The values of `s_snmp_errno` that are told apart. -/
inductive SnmpErr where
  | success
  | badEngId
  | badSecLevel
  | unknownSecModel
  | unknownEngId
  | unknownUserName
  | unsupportedSecLevel
  | authenticationFailure
  | notInTimeWindow
  | usmGenericError
  | usmUnknownSecurityName
  | usmUnsupportedSecurityLevel
  | usmEncryptionError
  | usmAuthenticationFailure
  | usmParseError
  | usmUnknownEngineId
  | usmNotInTimeWindow
  | timeout
  | other
  deriving DecidableEq, Repr

/-- `NETSNMP_CALLBACK_OP_...` -/
inductive CallbackOp where
  | receivedMessage
  | timedOut
  | sendFailed
  | connect
  | disconnect
  | resend
  | secError
  deriving DecidableEq, Repr

/-- The operation that tells the application why `_build_initial_pdu_packet` failed. -/
def buildErrorOp : SnmpErr → CallbackOp
  | .badEngId | .badSecLevel | .unknownSecModel | .unknownEngId | .unknownUserName
  | .unsupportedSecLevel | .authenticationFailure | .notInTimeWindow | .usmGenericError
  | .usmUnknownSecurityName | .usmUnsupportedSecurityLevel | .usmEncryptionError
  | .usmAuthenticationFailure | .usmParseError | .usmUnknownEngineId | .usmNotInTimeWindow =>
      .secError
  | .timeout => .timedOut
  | .success | .other => .sendFailed

abbrev snmpVersion3 : Int := 3

abbrev snmpSecModelUsm : Int := 3

/-- The fields of a `netsnmp_pdu` by which requests and responses are matched. -/
structure SessionPdu where
  version : Int
  command : Int
  reqid : Int
  msgid : Int
  /-- `UCD_MSG_FLAG_RESPONSE_PDU` -/
  responsePdu : Bool
  /-- `UCD_MSG_FLAG_EXPECT_RESPONSE` -/
  expectResponse : Bool
  /-- `UCD_MSG_FLAG_PDU_TIMEOUT` -/
  pduTimeout : Bool
  time : Int
  securityModel : Int
  securityLevel : Int
  contextEngineID : List Byte
  contextName : List Byte
  securityEngineID : List Byte
  securityName : List Byte
  /-- `snmpv3_get_report_type` of the variables. -/
  reportType : SnmpErr
  deriving DecidableEq, Repr

/-- `netsnmp_request_list`, without its link; times are in microseconds. -/
structure Request where
  requestId : Int
  messageId : Int
  /-- `callback` is not `NULL`. -/
  callback : Bool
  retries : Nat
  timeout : Int
  expireM : Int
  pdu : SessionPdu
  deriving DecidableEq, Repr

/-- `rp->retries++; rp->pdu->msgid = rp->message_id = msgid` -/
def Request.retry (msgid : Int) (request : Request) : Request :=
  { request with
    retries := request.retries + 1
    messageId := msgid
    pdu := { request.pdu with msgid := msgid } }

def Request.restart (now : Int) (request : Request) : Request :=
  { request with expireM := now + request.timeout }

def snmpv3VerifyMsg (rp : Request) (pdu : SessionPdu) : Bool :=
  let rpdu := rp.pdu
  if pdu.command = snmpMsgReport then true
  else if rp.requestId ≠ pdu.reqid ∨ rpdu.reqid ≠ pdu.reqid then false
  else if rpdu.version ≠ pdu.version then false
  else if rpdu.securityModel ≠ pdu.securityModel then false
  else if rpdu.securityLevel ≠ pdu.securityLevel then false
  else if rpdu.contextEngineID ≠ pdu.contextEngineID then false
  else if rpdu.contextName ≠ pdu.contextName then false
  else if pdu.securityModel = snmpSecModelUsm ∧ rpdu.securityEngineID ≠ pdu.securityEngineID then
    false
  else if rpdu.securityName ≠ pdu.securityName then false
  else true

/-- What happens, in the order in which it happens.  A request is known by its address, which is
used once only. -/
inductive SessionEvent where
  /-- A packet of the request is handed to the transport. -/
  | transmitted (id : Addr)
  | accepted (id : Addr)
  /-- The callback of the request is called and returns `result`. -/
  | called (id : Addr) (op : CallbackOp) (result : Int)
  /-- A report says that the time of the request was not in the window, and it is sent again. -/
  | resentForReport (id : Addr)
  /-- A report arrives for the request, and it is not sent again. -/
  | reported (id : Addr)
  /-- The request is taken out of the list and freed. -/
  | removed (id : Addr)
  deriving DecidableEq, Repr

def SessionEvent.id : SessionEvent → Addr
  | transmitted id | accepted id | called id _ _ | resentForReport id | reported id |
    removed id => id

/-- Where the code stands: between two calls, or in front of the next pass of a loop. -/
inductive Control where
  | idle
  /-- The loop of `_sess_process_packet_handle_pdu`. -/
  | handling (pdu : SessionPdu) (orp rp : Option Addr)
  /-- The loop of `snmp_sess_timeout`. -/
  | timing (now : Int) (orp rp : Option Addr)
  /-- The loop of `snmp_sess_close`. -/
  | closing (rp : Option Addr)
  | closed
  deriving DecidableEq, Repr

structure SessionState where
  request : Addr → Request
  /-- `next_request`, `requests` and `requestsEnd`. -/
  queue : TailQueue
  /-- `slp->internal` is not `NULL`. -/
  internal : Bool
  /-- The callback of the session is not `NULL`. -/
  callback : Bool
  retries : Int
  timeout : Int
  securityEngineID : List Byte
  contextEngineID : List Byte
  fresh : Addr
  control : Control
  log : List SessionEvent

/-- A call of `_sess_async_send`: the PDU as `_build_initial_pdu_packet` leaves it, and what becomes
of it. -/
structure SendCall where
  pdu : SessionPdu
  /-- `callback` is not `NULL`. -/
  callback : Bool
  /-- The error of `_build_initial_pdu_packet`. -/
  buildError : Option SnmpErr
  /-- `netsnmp_transport_send` does not fail. -/
  sent : Bool
  /-- `calloc` does not fail. -/
  allocated : Bool
  now : Int
  result : Int

/-- A run of a callback: the requests that are sent until it returns, also by the callbacks of those
that fail, and its result. -/
structure CallbackRun where
  sends : List SendCall
  result : Int

/-- What happens in `snmp_resend_request`. -/
structure ResendRun where
  allocated : Bool
  /-- `snmp_get_next_msgid` -/
  msgid : Int
  built : Bool
  sent : Bool
  now : Int
  callback : CallbackRun

namespace SessionState

def logged (state : SessionState) (event : SessionEvent) : SessionState :=
  { state with log := event :: state.log }

/-- `_sess_async_send` -/
def asyncSend (state : SessionState) (call : SendCall) : SessionState :=
  if ¬ state.internal then state
  else
    let id := state.fresh
    let state := { state with fresh := id + 1 }
    match call.buildError with
    | some errno =>
        if call.callback then state.logged (.called id (buildErrorOp errno) call.result) else state
    | none =>
        let state := state.logged (.transmitted id)
        if ¬ call.sent then
          if call.callback then state.logged (.called id .sendFailed call.result) else state
        else if call.pdu.expectResponse then
          if ¬ call.allocated then state
          else
            let timeout := if call.pdu.pduTimeout then call.pdu.time * 1000000 else state.timeout
            let rp : Request :=
              { requestId := call.pdu.reqid
                messageId := call.pdu.msgid
                callback := call.callback
                retries := 0
                timeout := timeout
                expireM := call.now + timeout
                pdu := call.pdu }
            { state with
              request := Function.update state.request id rp
              queue := state.queue.append id
              log := .accepted id :: state.log }
        else state

def runCallback (state : SessionState) (run : CallbackRun) : SessionState :=
  run.sends.foldl asyncSend state

def call (state : SessionState) (rp : Addr) (op : CallbackOp) (run : CallbackRun) : SessionState :=
  (state.logged (.called rp op run.result)).runCallback run

def removeRequest (state : SessionState) (orp : Option Addr) (rp : Addr) : SessionState :=
  { state with
    queue := state.queue.remove orp rp
    log := .removed rp :: state.log }

def updateRequest (state : SessionState) (rp : Addr) (update : Request → Request) : SessionState :=
  { state with request := Function.update state.request rp (update (state.request rp)) }

/-- `snmp_resend_request` with `incr_retries`, and its result. -/
def resendRequest (state : SessionState) (orp : Option Addr) (rp : Addr) (run : ResendRun) :
    SessionState × Int :=
  if ¬ state.internal then (state, 0)
  else if ¬ run.allocated then (state, 0)
  else
    let state := state.updateRequest rp (Request.retry run.msgid)
    if ¬ run.built then (state, -1)
    else
      let state := state.logged (.transmitted rp)
      if ¬ run.sent then
        if (state.request rp).callback then
          ((state.call rp .sendFailed run.callback).removeRequest orp rp, -1)
        else (state, -1)
      else
        let state := state.updateRequest rp (Request.restart run.now)
        if (state.request rp).callback then (state.call rp .resend run.callback, 0) else (state, 0)

def hasCallback (state : SessionState) (rp : Addr) : Bool :=
  (state.request rp).callback || state.callback

end SessionState

structure PassRun where
  /-- `s_snmp_errno` is `SNMPERR_NOT_IN_TIME_WINDOW`. -/
  errnoNotInTimeWindow : Bool
  /-- `malloc` does not fail, for the engine ID of the session and for that of its context. -/
  securityAllocated : Bool
  contextAllocated : Bool
  onError : CallbackRun
  onMessage : CallbackRun
  resend : ResendRun

namespace SessionState

/-- The engine ID discovery, and whether `malloc` failed. -/
def discoverEngineID (state : SessionState) (pdu : SessionPdu) (run : PassRun) :
    SessionState × Bool :=
  if state.securityEngineID.length = 0 ∧ pdu.securityEngineID.length ≠ 0 then
    if ¬ run.securityAllocated then (state, true)
    else
      let state := { state with securityEngineID := pdu.securityEngineID }
      if state.contextEngineID.length = 0 then
        if ¬ run.contextAllocated then (state, true)
        else ({ state with contextEngineID := pdu.securityEngineID }, false)
      else (state, false)
  else (state, false)

def deliver (state : SessionState) (pdu : SessionPdu) (orp : Option Addr) (rp : Addr)
    (run : PassRun) : SessionState :=
  if state.hasCallback rp then
    let state := state.call rp .receivedMessage run.onMessage
    if run.onMessage.result = 1 then { state.removeRequest orp rp with control := .idle }
    else { state with control := .handling pdu (some rp) (state.queue.next rp) }
  else { state.removeRequest orp rp with control := .idle }

def deliverReport (state : SessionState) (pdu : SessionPdu) (orp : Option Addr) (rp : Addr)
    (run : PassRun) : SessionState :=
  let state := state.logged (.reported rp)
  let state := if state.hasCallback rp then state.call rp .secError run.onError else state
  match state.discoverEngineID pdu run with
  | (state, true) => { state with control := .idle }
  | (state, false) => state.deliver pdu orp rp run

/-- One pass of the loop of `_sess_process_packet_handle_pdu`. -/
def handlePass (state : SessionState) (pdu : SessionPdu) (orp : Option Addr) (rp : Addr)
    (run : PassRun) : SessionState :=
  let request := state.request rp
  let goOn := { state with control := .handling pdu (some rp) (state.queue.next rp) }
  let process :=
    if pdu.command = snmpMsgReport then
      if run.errnoNotInTimeWindow ∨ pdu.reportType = .notInTimeWindow then
        if (request.retries : Int) ≤ state.retries then
          { ((state.logged (.resentForReport rp)).resendRequest orp rp run.resend).1 with
            control := .idle }
        else state.deliverReport pdu orp rp run
      else state.deliverReport pdu orp rp run
    else state.deliver pdu orp rp run
  if pdu.version = snmpVersion3 then
    if request.messageId ≠ pdu.msgid then goOn
    else if ¬ snmpv3VerifyMsg request pdu then { state with control := .idle }
    else process
  else if request.requestId ≠ pdu.reqid then goOn
  else process

/-- One pass of the loop of `snmp_sess_timeout`. -/
def timeoutPass (state : SessionState) (now : Int) (orp : Option Addr) (rp : Addr) (run : PassRun) :
    SessionState :=
  if (state.request rp).expireM < now then
    if state.retries ≤ (state.request rp).retries then
      let state := if state.hasCallback rp then state.call rp .timedOut run.onError else state
      let state := state.removeRequest orp rp
      { state with control := .timing now orp (state.queue.next rp) }
    else
      let result := state.resendRequest orp rp run.resend
      if result.2 ≠ 0 then { result.1 with control := .idle }
      else { result.1 with control := .timing now (some rp) (result.1.queue.next rp) }
  else { state with control := .timing now (some rp) (state.queue.next rp) }

/-- One pass of the loop of `snmp_sess_close`. -/
def closePass (state : SessionState) (rp : Addr) (run : PassRun) : SessionState :=
  let next := state.queue.next rp
  let state :=
    if (state.request rp).callback then state.call rp .timedOut run.onError else state
  { state.removeRequest none rp with control := .closing next }

/-- What can happen next: a call of the library while the code is between two calls, or the next
pass of the loop it is in. -/
inductive Move where
  | send (call : SendCall)
  | receive (pdu : SessionPdu) (onMessage : CallbackRun)
  | timeout (now : Int)
  | close
  | pass (run : PassRun)

def step (state : SessionState) : Move → Option SessionState
  | .send call =>
      match state.control with
      | .idle => some (state.asyncSend call)
      | _ => none
  | .receive pdu onMessage =>
      match state.control with
      | .idle =>
          if pdu.responsePdu then
            some { state with control := .handling pdu none state.queue.first }
          else if state.callback then some (state.runCallback onMessage)
          else some state
      | _ => none
  | .timeout now =>
      match state.control with
      | .idle => some { state with control := .timing now none state.queue.first }
      | _ => none
  | .close =>
      match state.control with
      | .idle => some { state with internal := false, control := .closing state.queue.first }
      | _ => none
  | .pass run =>
      match state.control with
      | .handling _ _ none | .timing _ _ none => some { state with control := .idle }
      | .handling pdu orp (some rp) => some (state.handlePass pdu orp rp run)
      | .timing now orp (some rp) => some (state.timeoutPass now orp rp run)
      | .closing none => some { state with control := .closed }
      | .closing (some rp) => some (state.closePass rp run)
      | .idle | .closed => none

/-- A session without requests; `memory` is what the cells hold before they are used. -/
def opened (memory : Addr → Request) (callback : Bool) (retries timeout : Int)
    (securityEngineID contextEngineID : List Byte) : SessionState where
  request := memory
  queue := ⟨fun _ => none, none, none⟩
  internal := true
  callback := callback
  retries := retries
  timeout := timeout
  securityEngineID := securityEngineID
  contextEngineID := contextEngineID
  fresh := 0
  control := .idle
  log := []

/-- A sequence of steps; it is `none` if one of them is not possible. -/
def runMoves : SessionState → List Move → Option SessionState
  | state, [] => some state
  | state, move :: moves =>
      match state.step move with
      | none => none
      | some state => runMoves state moves

end SessionState

end NetSnmp
