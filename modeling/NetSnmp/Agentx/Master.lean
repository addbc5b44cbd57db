import NetSnmp.Agent.Proxy

/-!
# Requests that a subagent answers

`agentx_master_handler` sends the requests for a session in one PDU, and `agentx_got_response`
is told what becomes of it. The transaction of the requests is still outstanding; allocation
succeeds.
-/

namespace NetSnmp

abbrev snmpErrNocreation : Int := 11
abbrev agentxErrParseFailed : UInt16 := 266
abbrev agentxErrRequestDenied : UInt16 := 267
abbrev agentxErrProcessingError : UInt16 := 268

/-- The modes in which `agentx_master_handler` is called. -/
inductive AgentxMode where
  | get
  | getNext
  | getBulk
  | setReserve1
  | setReserve2
  | setAction
  | setCommit
  | setFree
  | setUndo
  deriving DecidableEq, Repr

inductive AgentxCommand where
  | get
  | getNext
  | testSet
  | commitSet
  | undoSet
  | cleanupSet
  deriving DecidableEq, Repr

/-- The registration that a request is for: where it starts, and its session. -/
structure AgentxSubtree where
  startA : Oid
  session : Nat
  deriving DecidableEq, Repr

/-- A `netsnmp_request_info`. Its varbinds are those of a GETBULK request that are answered, the
present one and those for further repetitions. -/
structure AgentxRequest where
  answered : List VariableList := []
  requestvb : VariableList
  nextVariables : List VariableList := []
  repeats : Int := 0
  inclusive : Int := 0
  rangeEnd : Oid
  subtree : AgentxSubtree
  processed : Bool := false
  delegated : Bool := false
  status : Int := snmpErrNoerror
  deriving DecidableEq, Repr

def AgentxRequest.varbinds (request : AgentxRequest) : List VariableList :=
  request.answered ++ request.requestvb :: request.nextVariables

/-- The PDU for a mode; `MODE_SET_RESERVE2` has none. -/
def AgentxMode.command : AgentxMode → Option AgentxCommand
  | .get => some .get
  | .getNext => some .getNext
  | .getBulk => some .getNext
  | .setReserve1 => some .testSet
  | .setReserve2 => none
  | .setAction => some .commitSet
  | .setUndo => some .undoSet
  | .setCommit => some .cleanupSet
  | .setFree => some .cleanupSet

/-- `snmp_pdu_add_variable`: the variable is freed again if its value is not stored. -/
def snmpPduAddVariable (vars : List VariableList) (name : Oid) (type : Byte) (val : Vardata) :
    List VariableList :=
  match snmpSetVarValue type val with
  | none => vars
  | some val => vars ++ [⟨name, type, val⟩]

def AgentxRequest.addRange (request : AgentxRequest) (vars : List VariableList) :
    AgentxRequest × List VariableList :=
  let precedes : Bool := snmpOidCompare request.requestvb.name request.subtree.startA < 0
  let name := if precedes then request.subtree.startA else request.requestvb.name
  let inclusive := if precedes then 1 else request.inclusive
  if inclusive ≠ 0 then
    ({ request with inclusive := 0 },
      snmpPduAddVariable vars name asnPrivInclRange (.objid request.rangeEnd))
  else (request, snmpPduAddVariable vars name asnPrivExclRange (.objid request.rangeEnd))

def AgentxRequest.addVarbind (mode : AgentxMode) (request : AgentxRequest)
    (vars : List VariableList) : AgentxRequest × List VariableList :=
  if mode = .getNext ∨ mode = .getBulk then request.addRange vars
  else
    (request, snmpPduAddVariable vars request.requestvb.name request.requestvb.type
      request.requestvb.val)

def addRequests (mode : AgentxMode) (command : AgentxCommand) (requests : List AgentxRequest)
    (vars : List VariableList) : List AgentxRequest × List VariableList :=
  match requests with
  | [] => ([], vars)
  | request :: requests =>
      let added := request.addVarbind mode vars
      let rest := addRequests mode command requests added.2
      ({ added.1 with delegated := command ≠ .cleanupSet } :: rest.1, rest.2)

/-- A PDU for a subagent, and whether `agentx_got_response` is told of its answer. -/
structure AgentxSend where
  command : AgentxCommand
  variables_ : List VariableList
  callback : Bool
  deriving DecidableEq, Repr

def agentxMasterHandler (mode : AgentxMode) (requests : List AgentxRequest) :
    List AgentxRequest × Option AgentxSend :=
  match mode.command with
  | none => (requests, none)
  | some command =>
      let added := addRequests mode command requests []
      (added.1, some ⟨command, added.2, command ≠ .cleanupSet⟩)

def AgentxMode.isData (mode : AgentxMode) : Bool :=
  mode = .get || mode = .getNext || mode = .getBulk

def isException (errorValue : Int) : Bool :=
  errorValue = snmpNosuchobject.toNat || errorValue = snmpNosuchinstance.toNat ||
    errorValue = snmpEndofmibview.toNat

def requestSetError (mode : AgentxMode) (errorValue : Int) (request : AgentxRequest) :
    AgentxRequest :=
  let request := { request with processed := true, delegated := false }
  if isException errorValue then
    if mode.isData then
      { request with
        requestvb := { request.requestvb with type := UInt8.ofNat errorValue.toNat } }
    else if mode = .setReserve1 then { request with status := snmpErrNocreation }
    else { request with status := snmpErrNosuchname }
  else if errorValue < 0 then { request with status := snmpErrGenerr }
  else { request with status := errorValue }

/-- `netsnmp_set_request_error` for the first request of a list. -/
def setRequestError (mode : AgentxMode) (errorValue : Int) (requests : List AgentxRequest) :
    List AgentxRequest :=
  match requests with
  | [] => []
  | request :: requests => requestSetError mode errorValue request :: requests

/-- `netsnmp_handler_mark_requests_as_delegated` -/
def markRequestsAsDelegated (requests : List AgentxRequest) (isdelegated : Bool) :
    List AgentxRequest :=
  requests.map fun request => { request with delegated := isdelegated }

/-- What `close_agentx_session` does to the requests of a transaction: those for a session that is
closed, if they are found, are removed. -/
def closeAgentxSession (mode : AgentxMode) (closed : Nat → Bool) (requests : List AgentxRequest) :
    List AgentxRequest :=
  requests.map fun request =>
    if closed request.subtree.session then requestSetError mode snmpErrGenerr request else request

def agentxErr (errstat : UInt16) : Int :=
  if errstat = agentxErrParseFailed ∨ errstat = agentxErrRequestDenied ∨
      errstat = agentxErrProcessingError then snmpErrGenerr
  else errstat.toNat

/-- The loop of the error branch: the request at the error index is marked. -/
def markErrors (mode : AgentxMode) (err errindex : Int) (i : Nat) (requests : List AgentxRequest) :
    List AgentxRequest × Bool :=
  match requests with
  | [] => ([], false)
  | request :: requests =>
      let rest := markErrors mode err errindex (i + 1) requests
      if i = errindex then
        ({ requestSetError mode err request with delegated := false } :: rest.1, true)
      else ({ request with delegated := false } :: rest.1, rest.2)

/-- What a varbind of the response makes of that of a request. -/
def AgentxRequest.answer (request : AgentxRequest) (var : VariableList) : AgentxRequest :=
  let requestvb :=
    if var.type ≠ snmpEndofmibview then
      { snmpSetVarTypedValue request.requestvb var.type var.val with name := var.name }
    else request.requestvb
  { request with requestvb := requestvb, delegated := false }

/-- The loop over the varbinds of the response, and whether requests or varbinds are left. -/
def answerRequests (requests : List AgentxRequest) (vars : List VariableList) :
    List AgentxRequest × Bool :=
  match requests, vars with
  | [], [] => ([], false)
  | request :: requests, var :: vars =>
      let rest := answerRequests requests vars
      (request.answer var :: rest.1, rest.2)
  | requests, _ => (requests, true)

/-- The body of the loop of `netsnmp_bulk_to_next_fix_requests`. -/
def AgentxRequest.fixBulk (request : AgentxRequest) : AgentxRequest :=
  match request.nextVariables with
  | [] => request
  | next :: nextVariables =>
      if 0 < request.repeats ∧ request.requestvb.type ≠ asnNull ∧
          request.requestvb.type ≠ asnPrivRetry ∧
          snmpOidCompare request.requestvb.name request.rangeEnd < 0 then
        { request with
          repeats := request.repeats - 1
          answered := request.answered ++ [request.requestvb]
          requestvb := { next with name := request.requestvb.name, type := asnPrivRetry }
          nextVariables := nextVariables
          inclusive := if request.inclusive = 2 then 0 else request.inclusive }
      else request

/-- The response of a subagent; `agentx_parse_short` reads the error and its index. -/
structure AgentxResponse where
  errstat : UInt16
  errindex : UInt16
  variables_ : List VariableList
  /-- The values of the variables have been stored by `snmp_pdu_add_variable`. -/
  stored : ∀ var ∈ variables_, snmpSetVarValue var.type var.val = some var.val

/-- What `agentx_got_response` is told at the end of a request. -/
inductive AgentxCallback where
  /-- `NETSNMP_CALLBACK_OP_TIMED_OUT` -/
  | timedOut
  /-- `NETSNMP_CALLBACK_OP_DISCONNECT` -/
  | disconnect
  /-- `NETSNMP_CALLBACK_OP_SEND_FAILED` -/
  | sendFailed
  /-- `NETSNMP_CALLBACK_OP_RECEIVED_MESSAGE` -/
  | receivedMessage (pdu : AgentxResponse)

def agentxGotNoResponse (mode : AgentxMode) (closed : Nat → Bool) (requests : List AgentxRequest) :
    List AgentxRequest :=
  closeAgentxSession mode closed
    (setRequestError mode snmpErrGenerr (markRequestsAsDelegated requests false))

def agentxGotError (mode : AgentxMode) (requests : List AgentxRequest)
    (errstat errindex : UInt16) : List AgentxRequest :=
  let marked := markErrors mode (agentxErr errstat) errindex.toNat 1 requests
  if marked.2 then marked.1 else setRequestError mode snmpErrGenerr marked.1

def agentxGotData (mode : AgentxMode) (requests : List AgentxRequest) (vars : List VariableList) :
    List AgentxRequest :=
  let answered := answerRequests requests vars
  let requests :=
    if answered.2 then setRequestError mode snmpErrGenerr answered.1 else answered.1
  if mode = .getBulk then requests.map AgentxRequest.fixBulk else requests

def agentxGotResponse (mode : AgentxMode) (closed : Nat → Bool) (requests : List AgentxRequest) :
    AgentxCallback → List AgentxRequest
  | .timedOut => agentxGotNoResponse mode closed requests
  | .disconnect => agentxGotNoResponse mode closed requests
  | .sendFailed => agentxGotNoResponse mode closed requests
  | .receivedMessage pdu =>
      if pdu.errstat ≠ 0 then agentxGotError mode requests pdu.errstat pdu.errindex
      else if mode.isData then agentxGotData mode requests pdu.variables_
      else markRequestsAsDelegated requests false

theorem snmpSetVarValue_stored {type : Byte} {val stored : Vardata}
    (eq_some : snmpSetVarValue type val = some stored) :
    snmpSetVarValue type stored = some stored := by
  unfold snmpSetVarValue at eq_some ⊢
  by_cases long : isLong type = true
  · simp only [long, if_true] at eq_some ⊢
    cases val with
    | integer v =>
        cases eq_some
        by_cases large : 0xffffffff < v
        · have small : ¬ 0xffffffff < v % 2 ^ 32 := by omega
          simp only [if_pos large, if_neg small]
        · simp only [if_neg large]
    | _ =>
        cases eq_some
        rfl
  · simp only [long, Bool.false_eq_true, if_false] at eq_some ⊢
    split at eq_some
    next copied =>
      cases eq_some
      exact if_pos copied
    next copied =>
      rw [if_neg copied]
      split at eq_some
      next null =>
        cases eq_some
        exact if_pos null
      · nomatch eq_some

def AgentxResponse.ofParsed (errstat errindex : UInt16) (parsed : List VariableList) :
    AgentxResponse where
  errstat := errstat
  errindex := errindex
  variables_ := parsed.filterMap fun var =>
    (snmpSetVarValue var.type var.val).map fun val => { var with val := val }
  stored := by
    intro var mem
    rcases List.mem_filterMap.mp mem with ⟨var', _, eq_some⟩
    rcases Option.map_eq_some_iff.mp eq_some with ⟨val, stored, rfl⟩
    exact snmpSetVarValue_stored stored

end NetSnmp
