import Mathlib.Data.List.Basic

/-!
# The phases of a SET request

`handle_set_loop` and what it calls, and `check_delayed_request` for a request that was
delegated. What a handler does is a parameter: it reports, for each of its requests,
success, an error or that the request is delegated, and it returns a status.
-/

namespace NetSnmp

inductive AgentMode where
  | setBegin
  | setReserve1
  | setReserve2
  | setAction
  | setCommit
  | setFree
  | setUndo
  | finishedSuccess
  | finishedFailure
  deriving DecidableEq, Repr

abbrev snmpErrNoerror : Int := 0
abbrev snmpErrGenerr : Int := 5
abbrev snmpErrCommitfailed : Int := 14
abbrev snmpErrUndofailed : Int := 15
abbrev snmpErrNotwritable : Int := 17

abbrev ErrorStatus := { status : Int // status ≠ snmpErrNoerror }

/-- A `netsnmp_request_info` with the index of its varbind. -/
structure RequestInfo where
  index : Nat
  status : Int
  delegated : Bool
  deriving DecidableEq, Repr

inductive Report where
  | success
  | error (status : ErrorStatus)
  | delegated

namespace Report

/-- `netsnmp_request_set_error`, or the request is marked as delegated. -/
def apply (request : RequestInfo) : Report → RequestInfo
  | success => request
  | error status => { request with status := status.val, delegated := false }
  | delegated => { request with delegated := true }

def error? : Report → Option Int
  | error status => some status.val
  | _ => none

end Report

/-- What a handler reports of the requests with an index, and the status that it returns. -/
structure Reply where
  status : Int
  reports : Nat → Report

/-- An entry of the tree cache: a registration of a session and the requests for it. -/
structure TreeCache where
  session : Nat
  /-- `HANDLER_CAN_SET` -/
  canSet : Bool
  requests : List RequestInfo
  nonempty : requests ≠ []

/-- An error that was reported: returned by a handler, or set on a request. -/
structure HandlerError where
  mode : AgentMode
  status : Int
  returned : Bool
  deriving DecidableEq, Repr

/-- A `netsnmp_agent_session` of a SET request, and what happened to it so far: the handlers called
in each mode by their place in the tree cache, the errors that were reported, and the modes in
which it was put on the delegated list. -/
structure SetSession where
  mode : AgentMode
  status : Int
  index : Nat
  treecache : List TreeCache
  /-- `UCD_MSG_FLAG_ONE_PASS_ONLY` -/
  onePassOnly : Bool
  /-- `SNMP_AGENT_FLAGS_CANCEL_IN_PROGRESS` -/
  cancelInProgress : Bool
  calls : List (Nat × AgentMode)
  errors : List HandlerError
  waits : List AgentMode

abbrev Handlers := SetSession → Nat → Reply

namespace TreeCache

def mapRequests (entry : TreeCache) (f : RequestInfo → RequestInfo) : TreeCache :=
  { entry with
    requests := entry.requests.map f
    nonempty := by simpa using entry.nonempty }

def report (entry : TreeCache) (reports : Nat → Report) : TreeCache :=
  entry.mapRequests fun request => (reports request.index).apply request

def errors (entry : TreeCache) (mode : AgentMode) (reports : Nat → Report) : List HandlerError :=
  entry.requests.filterMap fun request =>
    (reports request.index).error?.map fun status => ⟨mode, status, false⟩

end TreeCache

def returnedError (mode : AgentMode) (status : Int) : List HandlerError :=
  if status = snmpErrNoerror then [] else [⟨mode, status, true⟩]

def notWritableReport (_ : Nat) : Report := .error ⟨snmpErrNotwritable, by decide⟩

namespace SetSession

def netsnmpCallHandlers (handlers : Handlers) (asp : SetSession) (i : Nat) (entry : TreeCache) :
    Int × TreeCache × SetSession :=
  if entry.canSet then
    let reply := handlers asp i
    (reply.status, entry.report reply.reports,
      { asp with
        calls := asp.calls ++ [(i, asp.mode)]
        errors := asp.errors ++
          (entry.errors asp.mode reply.reports ++ returnedError asp.mode reply.status) })
  else
    (snmpErrNoerror, entry.report notWritableReport,
      { asp with errors := asp.errors ++ entry.errors asp.mode notWritableReport })

/-- `netsnmp_check_requests_status`; the status is that of the session. -/
def netsnmpCheckRequestsStatus (asp : SetSession) (lookForSpecific : Int) :
    List RequestInfo → SetSession
  | [] => asp
  | request :: rest =>
      if request.status ≠ snmpErrNoerror ∧
          (lookForSpecific = 0 ∨ request.status = lookForSpecific) ∧
          (lookForSpecific ≠ 0 ∨ asp.index = 0 ∨ request.index ≤ asp.index) then
        netsnmpCheckRequestsStatus { asp with index := request.index, status := request.status }
          lookForSpecific rest
      else netsnmpCheckRequestsStatus asp lookForSpecific rest

def netsnmpCheckAllRequestsStatus (asp : SetSession) (lookForSpecific : Int) : SetSession :=
  asp.treecache.foldl
    (fun asp entry => asp.netsnmpCheckRequestsStatus lookForSpecific entry.requests) asp

def lookForSpecific : AgentMode → Int
  | .setCommit => snmpErrCommitfailed
  | .setUndo => snmpErrUndofailed
  | _ => 0

/-- The loop of `handle_var_requests` from place `i` of the tree cache, with the entries as they are
left. -/
def handleVarRequestsLoop (handlers : Handlers) (asp : SetSession) (i : Nat) (finalStatus : Int) :
    List TreeCache → Int × List TreeCache × SetSession
  | [] => (finalStatus, [], asp)
  | entry :: rest =>
      let (status, entry, asp) := asp.netsnmpCallHandlers handlers i entry
      let asp := asp.netsnmpCheckRequestsStatus (lookForSpecific asp.mode) entry.requests
      let status := if asp.status ≠ snmpErrNoerror then asp.status else status
      let finalStatus :=
        if finalStatus = snmpErrNoerror ∧ status ≠ snmpErrNoerror then status else finalStatus
      let (finalStatus, entries, asp) := handleVarRequestsLoop handlers asp (i + 1) finalStatus rest
      (finalStatus, entry :: entries, asp)

def handleVarRequests (handlers : Handlers) (asp : SetSession) : Int × SetSession :=
  let (finalStatus, treecache, asp) :=
    handleVarRequestsLoop handlers asp 0 snmpErrNoerror asp.treecache
  (finalStatus, { asp with treecache })

def isFinished (asp : SetSession) : Bool :=
  asp.mode = .finishedSuccess || asp.mode = .finishedFailure

def nextMode (asp : SetSession) : SetSession :=
  match asp.mode with
  | .setBegin => { asp with mode := .setReserve1, status := snmpErrNoerror }
  | .setReserve1 =>
      { asp with mode := if asp.status ≠ snmpErrNoerror then .setFree else .setReserve2 }
  | .setReserve2 =>
      { asp with mode := if asp.status ≠ snmpErrNoerror then .setFree else .setAction }
  | .setAction =>
      { asp with mode := if asp.status ≠ snmpErrNoerror then .setUndo else .setCommit }
  | .setCommit =>
      { asp with
        mode := if asp.status ≠ snmpErrNoerror then .finishedFailure else .finishedSuccess }
  | .setUndo => { asp with mode := .finishedFailure }
  | .setFree => { asp with mode := .finishedFailure }
  | .finishedSuccess | .finishedFailure => asp

/-- The first part of `handle_set`. -/
def enterMode (asp : SetSession) : SetSession := if asp.onePassOnly then asp else asp.nextMode

/-- The second part of `handle_set`, in a mode that is not finished. -/
def doMode (handlers : Handlers) (asp : SetSession) : SetSession :=
  let (status, asp) := asp.handleVarRequests handlers
  if (status ≠ snmpErrNoerror ∧ asp.status = snmpErrNoerror) ∨
      status = snmpErrCommitfailed ∨ status = snmpErrUndofailed then
    { asp with status }
  else asp

/-- `handle_set`; the status is that of the session. -/
def handleSet (handlers : Handlers) (asp : SetSession) : SetSession :=
  if asp.enterMode.isFinished then asp.enterMode else asp.enterMode.doMode handlers

def netsnmpCheckForDelegated (asp : SetSession) : Bool :=
  !asp.cancelInProgress &&
    asp.treecache.any fun entry => entry.requests.any fun request => request.delegated

def rank : AgentMode → Nat
  | .setBegin => 5
  | .setReserve1 => 4
  | .setReserve2 => 3
  | .setAction => 2
  | .setCommit | .setFree | .setUndo => 1
  | .finishedSuccess | .finishedFailure => 0

@[simp]
theorem netsnmpCheckRequestsStatus_mode (asp : SetSession) (specific : Int)
    (requests : List RequestInfo) :
    (asp.netsnmpCheckRequestsStatus specific requests).mode = asp.mode := by
  induction requests generalizing asp with
  | nil => rfl
  | cons request rest ih =>
      rw [netsnmpCheckRequestsStatus]
      split
      · exact ih _
      · exact ih asp

@[simp]
theorem netsnmpCheckRequestsStatus_onePassOnly (asp : SetSession) (specific : Int)
    (requests : List RequestInfo) :
    (asp.netsnmpCheckRequestsStatus specific requests).onePassOnly = asp.onePassOnly := by
  induction requests generalizing asp with
  | nil => rfl
  | cons request rest ih =>
      rw [netsnmpCheckRequestsStatus]
      split
      · exact ih _
      · exact ih asp

theorem netsnmpCallHandlers_mode (handlers : Handlers) (asp : SetSession) (i : Nat)
    (entry : TreeCache) :
    (asp.netsnmpCallHandlers handlers i entry).2.2.mode = asp.mode ∧
      (asp.netsnmpCallHandlers handlers i entry).2.2.onePassOnly = asp.onePassOnly := by
  rw [netsnmpCallHandlers]
  split <;> exact ⟨rfl, rfl⟩

theorem handleVarRequestsLoop_mode (handlers : Handlers) (asp : SetSession) (i : Nat)
    (finalStatus : Int) (entries : List TreeCache) :
    (handleVarRequestsLoop handlers asp i finalStatus entries).2.2.mode = asp.mode ∧
      (handleVarRequestsLoop handlers asp i finalStatus entries).2.2.onePassOnly =
        asp.onePassOnly := by
  induction entries generalizing asp i finalStatus with
  | nil => exact ⟨rfl, rfl⟩
  | cons entry rest ih =>
      rw [handleVarRequestsLoop]
      rcases netsnmpCallHandlers_mode handlers asp i entry with ⟨mode_eq, onePass_eq⟩
      constructor
      · rw [(ih _ _ _).1, netsnmpCheckRequestsStatus_mode, mode_eq]
      · rw [(ih _ _ _).2, netsnmpCheckRequestsStatus_onePassOnly, onePass_eq]

theorem doMode_mode (handlers : Handlers) (asp : SetSession) :
    (asp.doMode handlers).mode = asp.mode ∧
      (asp.doMode handlers).onePassOnly = asp.onePassOnly := by
  rw [doMode]
  dsimp only
  split <;> exact handleVarRequestsLoop_mode handlers asp 0 snmpErrNoerror asp.treecache

theorem enterMode_onePassOnly (asp : SetSession) :
    asp.enterMode.onePassOnly = asp.onePassOnly := by
  rw [enterMode]
  split
  · rfl
  · rw [nextMode]
    split <;> rfl

theorem handleSet_mode (handlers : Handlers) (asp : SetSession) :
    (asp.handleSet handlers).mode = asp.enterMode.mode ∧
      (asp.handleSet handlers).onePassOnly = asp.onePassOnly := by
  rw [handleSet]
  split
  · exact ⟨rfl, enterMode_onePassOnly asp⟩
  · rw [(doMode_mode handlers asp.enterMode).1, (doMode_mode handlers asp.enterMode).2]
    exact ⟨rfl, enterMode_onePassOnly asp⟩

theorem rank_nextMode {asp : SetSession} (unfinished : ¬ asp.isFinished = true) :
    rank asp.nextMode.mode < rank asp.mode := by
  rcases asp with ⟨mode, status, index, treecache, onePassOnly, cancel, calls, errors, waits⟩
  simp only [isFinished, nextMode] at unfinished ⊢
  cases mode with
  | finishedSuccess => exact absurd rfl unfinished
  | finishedFailure => exact absurd rfl unfinished
  | setBegin => exact (by decide : 4 < 5)
  | setUndo => exact (by decide : 0 < 1)
  | setFree => exact (by decide : 0 < 1)
  | setReserve1 | setReserve2 | setAction | setCommit =>
      dsimp only
      split <;> exact (by decide)

def handleSetLoop (handlers : Handlers) (asp : SetSession) : Int × SetSession :=
  if asp.isFinished then (asp.status, asp)
  else if (asp.handleSet handlers).netsnmpCheckForDelegated then
    (snmpErrNoerror, asp.handleSet handlers)
  else if asp.onePassOnly then ((asp.handleSet handlers).status, asp.handleSet handlers)
  else handleSetLoop handlers (asp.handleSet handlers)
termination_by rank asp.mode
decreasing_by
  rename_i unfinished _ onePass
  rw [(handleSet_mode handlers asp).1, enterMode, if_neg onePass]
  exact rank_nextMode unfinished

end SetSession

inductive SetPlace where
  /-- It is in `agent_delegated_list`. -/
  | delegated
  /-- `netsnmp_wrap_up_request` was called. -/
  | wrappedUp
  /-- It is in no list, and was not wrapped up. -/
  | dropped
  deriving DecidableEq, Repr

structure SetState where
  asp : SetSession
  place : SetPlace

namespace SetSession

/-- `netsnmp_wrap_up_request`, up to the response. -/
def netsnmpWrapUpRequest (asp : SetSession) (status : Int) : SetState :=
  if status ≠ snmpErrNoerror ∧ asp.status = snmpErrNoerror then ⟨{ asp with status }, .wrappedUp⟩
  else ⟨asp, .wrappedUp⟩

def delegate (asp : SetSession) : SetState :=
  ⟨{ asp with waits := asp.waits ++ [asp.mode] }, .delegated⟩

/-- `netsnmp_handle_request` of a SET request that passes the access checks of `handle_pdu`. -/
def netsnmpHandleRequest (handlers : Handlers) (asp : SetSession) : SetState :=
  let (status, asp) := handleSetLoop handlers { asp with mode := .setBegin }
  if asp.netsnmpCheckForDelegated then delegate { asp with status }
  else asp.netsnmpWrapUpRequest status

/-- The errors of a mode that supersede others, in the `switch` of `check_delayed_request`. -/
def checkSpecific (asp : SetSession) : SetSession :=
  match asp.mode with
  | .setCommit => asp.netsnmpCheckAllRequestsStatus snmpErrCommitfailed
  | .setUndo => asp.netsnmpCheckAllRequestsStatus snmpErrUndofailed
  | _ => asp

/-- `check_delayed_request` in a mode of a SET request. -/
def checkDelayedRequest (handlers : Handlers) (asp : SetSession) : SetState :=
  let asp := asp.checkSpecific
  if asp.isFinished || asp.onePassOnly then
    if asp.netsnmpCheckForDelegated then ⟨asp, .dropped⟩
    else asp.netsnmpWrapUpRequest snmpErrNoerror
  else
    let (_, asp) := handleSetLoop handlers asp
    if !asp.isFinished then
      if asp.netsnmpCheckForDelegated then delegate asp else ⟨asp, .dropped⟩
    else if asp.netsnmpCheckForDelegated then ⟨asp, .dropped⟩
    else asp.netsnmpWrapUpRequest snmpErrNoerror

/-- What `netsnmp_check_delegated_requests` does with a session of the list. -/
def netsnmpCheckDelegatedRequest (handlers : Handlers) (asp : SetSession) : SetState :=
  if asp.netsnmpCheckForDelegated then ⟨asp, .delegated⟩
  else checkDelayedRequest handlers (asp.netsnmpCheckAllRequestsStatus 0)

def requestDone (asp : SetSession) (index : Nat) (outcome : Option ErrorStatus) : SetSession :=
  { asp with
    treecache := asp.treecache.map fun entry => entry.mapRequests fun request =>
      if request.index = index ∧ request.delegated then
        match outcome with
        | none => { request with delegated := false }
        | some status => (Report.error status).apply request
      else request
    errors := asp.errors ++ (outcome.map fun status => ⟨asp.mode, status.val, false⟩).toList }

def sessionClosedReport (_ : Nat) : Report := .error ⟨snmpErrGenerr, by decide⟩

/-- What `netsnmp_remove_delegated_requests_for_session` does with a request of the list. -/
def sessionClosed (asp : SetSession) (session : Nat) : SetSession :=
  { asp with
    treecache := asp.treecache.map fun entry =>
      if entry.session = session then entry.report sessionClosedReport else entry
    cancelInProgress :=
      asp.cancelInProgress || asp.treecache.any fun entry => entry.session = session
    errors := asp.errors ++ asp.treecache.flatMap fun entry =>
      if entry.session = session then entry.errors asp.mode sessionClosedReport else [] }

end SetSession

end NetSnmp
