import NetSnmp.Agentx.Master

/-!
# The answer of a subagent concludes its requests

What comes back for the requests of one PDU takes the delegation of all of them away, gives
them the varbinds of the answer or one of them an error. Each of the loops over the requests
has its own lemmas.
-/

namespace NetSnmp

variable {mode : AgentxMode} {closed : Nat → Bool} {requests : List AgentxRequest}
  {request : AgentxRequest} {vars : List VariableList} {var : VariableList}

theorem length_addRequests (mode : AgentxMode) (command : AgentxCommand)
    (requests : List AgentxRequest) (vars : List VariableList) :
    (addRequests mode command requests vars).1.length = requests.length := by
  induction requests generalizing vars with
  | nil => rfl
  | cons request requests ih => exact congrArg Nat.succ (ih _)

theorem addRequests_delegated {command : AgentxCommand} (answered : command ≠ .cleanupSet)
    (vars : List VariableList) :
    ∀ request ∈ (addRequests mode command requests vars).1, request.delegated = true := by
  induction requests generalizing vars with
  | nil =>
      intro request mem
      exact absurd mem List.not_mem_nil
  | cons request requests ih =>
      intro request' mem
      rcases List.mem_cons.mp mem with rfl | mem
      · exact decide_eq_true answered
      · exact ih _ request' mem

theorem agentxMasterHandler_delegated {sent : List AgentxRequest} {send : AgentxSend}
    (isSent : agentxMasterHandler mode requests = (sent, some send))
    (awaited : send.callback = true) :
    sent.length = requests.length ∧ ∀ request ∈ sent, request.delegated = true := by
  unfold agentxMasterHandler at isSent
  split at isSent
  · nomatch isSent
  next command _ =>
    cases isSent
    refine ⟨length_addRequests _ _ _ _, addRequests_delegated ?_ []⟩
    exact of_decide_eq_true awaited

theorem requestSetError_delegated (mode : AgentxMode) (errorValue : Int)
    (request : AgentxRequest) : (requestSetError mode errorValue request).delegated = false := by
  unfold requestSetError
  simp only
  split
  · split
    · rfl
    · split <;> rfl
  · split <;> rfl

theorem requestSetError_status {errorValue : Int} (isError : errorValue ≠ snmpErrNoerror)
    (noException : isException errorValue = false) :
    (requestSetError mode errorValue request).status ≠ snmpErrNoerror := by
  simp only [requestSetError, noException, Bool.false_eq_true, if_false]
  split
  · exact (by decide : snmpErrGenerr ≠ snmpErrNoerror)
  · exact isError

theorem requestSetError_exception {errorValue : Int} (data : mode.isData = true)
    (exception : isException errorValue = true) :
    (requestSetError mode errorValue request).status = request.status := by
  simp only [requestSetError, exception, data, if_true]

theorem requestSetError_generr (mode : AgentxMode) (request : AgentxRequest) :
    (requestSetError mode snmpErrGenerr request).status ≠ snmpErrNoerror :=
  requestSetError_status (by decide) (by decide)

theorem length_setRequestError (mode : AgentxMode) (errorValue : Int)
    (requests : List AgentxRequest) :
    (setRequestError mode errorValue requests).length = requests.length := by
  cases requests <;> rfl

theorem setRequestError_undelegated (mode : AgentxMode) (errorValue : Int)
    (undelegated : ∀ request ∈ requests, request.delegated = false) :
    ∀ request ∈ setRequestError mode errorValue requests, request.delegated = false := by
  cases requests with
  | nil => exact undelegated
  | cons request requests =>
      rcases List.forall_mem_cons.mp undelegated with ⟨_, rest⟩
      exact List.forall_mem_cons.mpr ⟨requestSetError_delegated mode errorValue request, rest⟩

theorem setRequestError_error (some_left : requests ≠ []) :
    ∃ request ∈ setRequestError mode snmpErrGenerr requests,
      request.status ≠ snmpErrNoerror := by
  cases requests with
  | nil => exact absurd rfl some_left
  | cons request requests =>
      exact ⟨_, List.mem_cons_self, requestSetError_generr mode request⟩

theorem markRequestsAsDelegated_undelegated (requests : List AgentxRequest) :
    ∀ request ∈ markRequestsAsDelegated requests false, request.delegated = false := by
  intro request mem
  rcases List.mem_map.mp mem with ⟨_, _, rfl⟩
  rfl

theorem length_agentxGotNoResponse :
    (agentxGotNoResponse mode closed requests).length = requests.length := by
  simp only [agentxGotNoResponse, closeAgentxSession, markRequestsAsDelegated, List.length_map,
    length_setRequestError]

theorem agentxGotNoResponse_undelegated :
    ∀ request ∈ agentxGotNoResponse mode closed requests, request.delegated = false := by
  intro request mem
  rcases List.mem_map.mp mem with ⟨request', mem', rfl⟩
  split
  · exact requestSetError_delegated _ _ _
  · exact setRequestError_undelegated mode snmpErrGenerr
      (markRequestsAsDelegated_undelegated requests) request' mem'

theorem agentxGotNoResponse_error (some_left : requests ≠ []) :
    ∃ request ∈ agentxGotNoResponse mode closed requests, request.status ≠ snmpErrNoerror := by
  have marked : markRequestsAsDelegated requests false ≠ [] :=
    fun none => some_left (List.map_eq_nil_iff.mp none)
  rcases setRequestError_error marked with ⟨request, mem, isError⟩
  refine ⟨_, List.mem_map_of_mem mem, ?_⟩
  split
  · exact requestSetError_generr mode request
  · exact isError

theorem length_markErrors (mode : AgentxMode) (err errindex : Int) (i : Nat)
    (requests : List AgentxRequest) :
    (markErrors mode err errindex i requests).1.length = requests.length := by
  induction requests generalizing i with
  | nil => rfl
  | cons request requests ih =>
      rw [markErrors]
      simp only
      split <;> exact congrArg Nat.succ (ih (i + 1))

theorem markErrors_undelegated (mode : AgentxMode) (err errindex : Int) (i : Nat)
    (requests : List AgentxRequest) :
    ∀ request ∈ (markErrors mode err errindex i requests).1, request.delegated = false := by
  induction requests generalizing i with
  | nil =>
      intro request mem
      exact absurd mem List.not_mem_nil
  | cons request requests ih =>
      rw [markErrors]
      simp only
      split
      · exact List.forall_mem_cons.mpr ⟨rfl, ih (i + 1)⟩
      · exact List.forall_mem_cons.mpr ⟨rfl, ih (i + 1)⟩

theorem markErrors_marked_iff (mode : AgentxMode) (err errindex : Int) (i : Nat)
    (requests : List AgentxRequest) :
    (markErrors mode err errindex i requests).2 = true ↔
      i ≤ errindex ∧ errindex < i + requests.length := by
  induction requests generalizing i with
  | nil =>
      simp only [markErrors, Bool.false_eq_true, List.length_nil, false_iff]
      omega
  | cons request requests ih =>
      rw [markErrors]
      simp only [List.length_cons]
      split
      · simp only [true_iff]
        omega
      · rw [ih (i + 1)]
        omega

theorem markErrors_error {err errindex : Int} {i : Nat} (isError : err ≠ snmpErrNoerror)
    (noException : isException err = false)
    (marked : (markErrors mode err errindex i requests).2 = true) :
    ∃ request ∈ (markErrors mode err errindex i requests).1,
      request.status ≠ snmpErrNoerror := by
  induction requests generalizing i with
  | nil => nomatch marked
  | cons request requests ih =>
      rw [markErrors] at marked ⊢
      simp only at marked ⊢
      split at marked
      next here =>
        rw [if_pos here]
        exact ⟨_, List.mem_cons_self, requestSetError_status isError noException⟩
      next elsewhere =>
        rw [if_neg elsewhere]
        rcases ih marked with ⟨request', mem, status⟩
        exact ⟨request', List.mem_cons_of_mem _ mem, status⟩

theorem markErrors_exception {err errindex : Int} (data : mode.isData = true)
    (exception : isException err = true) (i : Nat) (requests : List AgentxRequest) :
    (markErrors mode err errindex i requests).1.map AgentxRequest.status =
      requests.map AgentxRequest.status := by
  induction requests generalizing i with
  | nil => rfl
  | cons request requests ih =>
      rw [markErrors]
      simp only
      split
      · exact congrArg₂ List.cons (requestSetError_exception data exception) (ih (i + 1))
      · exact congrArg (request.status :: ·) (ih (i + 1))

theorem exists_status_iff {requests requests' : List AgentxRequest}
    (same : requests'.map AgentxRequest.status = requests.map AgentxRequest.status) :
    (∃ request ∈ requests', request.status ≠ snmpErrNoerror) ↔
      ∃ request ∈ requests, request.status ≠ snmpErrNoerror := by
  have mapped (requests : List AgentxRequest) :
      (∃ request ∈ requests, request.status ≠ snmpErrNoerror) ↔
        ∃ status ∈ requests.map AgentxRequest.status, status ≠ snmpErrNoerror := by
    simp only [List.mem_map, exists_exists_and_eq_and]
  rw [mapped, mapped, same]

theorem agentxErr_ne {errstat : UInt16} (isError : errstat ≠ 0) :
    agentxErr errstat ≠ snmpErrNoerror := by
  have positive : errstat.toNat ≠ 0 := fun zero => isError (UInt16.toNat_inj.mp zero)
  unfold agentxErr
  split
  · decide
  · simpa using positive

theorem length_agentxGotError {errstat errindex : UInt16} :
    (agentxGotError mode requests errstat errindex).length = requests.length := by
  unfold agentxGotError
  simp only
  split
  · exact length_markErrors _ _ _ _ _
  · rw [length_setRequestError]
    exact length_markErrors _ _ _ _ _

theorem agentxGotError_undelegated {errstat errindex : UInt16} :
    ∀ request ∈ agentxGotError mode requests errstat errindex, request.delegated = false := by
  unfold agentxGotError
  simp only
  split
  · exact markErrors_undelegated _ _ _ _ _
  · exact setRequestError_undelegated mode snmpErrGenerr (markErrors_undelegated _ _ _ _ _)

theorem agentxGotError_error_iff {errstat errindex : UInt16} (data : mode.isData = true)
    (some_left : requests ≠ []) (isError : errstat ≠ 0) :
    (∃ request ∈ agentxGotError mode requests errstat errindex,
        request.status ≠ snmpErrNoerror) ↔
      (errindex ≠ 0 ∧ errindex.toNat ≤ requests.length →
        isException (agentxErr errstat) = false ∨
          ∃ request ∈ requests, request.status ≠ snmpErrNoerror) := by
  have inside := markErrors_marked_iff mode (agentxErr errstat) errindex.toNat 1 requests
  have positive : errindex ≠ 0 ↔ 1 ≤ errindex.toNat := by
    rw [Nat.one_le_iff_ne_zero, ne_eq, ne_eq, ← UInt16.toNat_inj]
    rfl
  rw [positive]
  unfold agentxGotError
  simp only
  split
  next marked =>
    have within := inside.mp marked
    by_cases exception : isException (agentxErr errstat) = true
    · rw [exists_status_iff (markErrors_exception data exception 1 requests)]
      simp only [exception, Bool.true_eq_false, false_or]
      constructor
      · intro error _
        exact error
      · intro error
        exact error ⟨by omega, by omega⟩
    · have noException := Bool.eq_false_iff.mpr exception
      simp only [noException, true_or, implies_true, iff_true]
      exact markErrors_error (agentxErr_ne isError) noException marked
  next unmarked =>
    have outside := mt inside.mpr unmarked
    have left : (markErrors mode (agentxErr errstat) errindex.toNat 1 requests).1 ≠ [] := by
      apply List.ne_nil_of_length_pos
      rw [length_markErrors]
      exact List.length_pos_iff.mpr some_left
    constructor
    · rintro _ ⟨_, _⟩
      omega
    · intro _
      exact setRequestError_error left

theorem length_answerRequests (requests : List AgentxRequest) (vars : List VariableList) :
    (answerRequests requests vars).1.length = requests.length := by
  induction requests generalizing vars with
  | nil => cases vars <;> rfl
  | cons request requests ih =>
      cases vars with
      | nil => rfl
      | cons var vars => exact congrArg Nat.succ (ih vars)

theorem answerRequests_left_iff (requests : List AgentxRequest) (vars : List VariableList) :
    (answerRequests requests vars).2 = true ↔ requests.length ≠ vars.length := by
  induction requests generalizing vars with
  | nil => cases vars <;> simp [answerRequests]
  | cons request requests ih =>
      cases vars with
      | nil => simp [answerRequests]
      | cons var vars => simpa [answerRequests] using ih vars

theorem answerRequests_eq_zipWith (same : requests.length = vars.length) :
    (answerRequests requests vars).1 = List.zipWith AgentxRequest.answer requests vars := by
  induction requests generalizing vars with
  | nil => cases vars <;> rfl
  | cons request requests ih =>
      cases vars with
      | nil => nomatch same
      | cons var vars =>
          exact congrArg (request.answer var :: ·) (ih (Nat.succ.inj same))

theorem answerRequests_undelegated_iff
    (delegated : ∀ request ∈ requests, request.delegated = true) (vars : List VariableList) :
    (∀ request ∈ (answerRequests requests vars).1, request.delegated = false) ↔
      requests.length ≤ vars.length := by
  induction requests generalizing vars with
  | nil => cases vars <;> simp [answerRequests]
  | cons request requests ih =>
      rcases List.forall_mem_cons.mp delegated with ⟨head, rest⟩
      cases vars with
      | nil => simp [answerRequests, head]
      | cons var vars =>
          simp only [answerRequests, List.forall_mem_cons, ih rest vars, List.length_cons,
            Nat.add_le_add_iff_right]
          exact and_iff_right rfl

theorem fixBulk_delegated (request : AgentxRequest) :
    request.fixBulk.delegated = request.delegated := by
  unfold AgentxRequest.fixBulk
  split
  · rfl
  · split <;> rfl

theorem fixBulk_status (request : AgentxRequest) : request.fixBulk.status = request.status := by
  unfold AgentxRequest.fixBulk
  split
  · rfl
  · split <;> rfl

theorem fixBulk_varbind (request : AgentxRequest) :
    request.fixBulk.varbinds[request.answered.length]? = some request.requestvb := by
  have here : request.varbinds[request.answered.length]? = some request.requestvb := by
    simp [AgentxRequest.varbinds]
  unfold AgentxRequest.fixBulk
  split
  · exact here
  · split
    · simp [AgentxRequest.varbinds]
    · exact here

theorem agentxGotData_eq (mode : AgentxMode) (requests : List AgentxRequest)
    (vars : List VariableList) : ∃ fix : AgentxRequest → AgentxRequest,
      (∀ request, (fix request).delegated = request.delegated ∧
        (fix request).status = request.status ∧
        (fix request).varbinds[request.answered.length]? = some request.requestvb) ∧
      agentxGotData mode requests vars =
        (if (answerRequests requests vars).2 then
          setRequestError mode snmpErrGenerr (answerRequests requests vars).1
        else (answerRequests requests vars).1).map fix := by
  by_cases bulk : mode = .getBulk
  · refine ⟨AgentxRequest.fixBulk, fun request => ?_, if_pos bulk⟩
    exact ⟨fixBulk_delegated request, fixBulk_status request, fixBulk_varbind request⟩
  · refine ⟨id, fun request => ⟨rfl, rfl, by simp [AgentxRequest.varbinds]⟩, ?_⟩
    rw [List.map_id]
    exact if_neg bulk

theorem length_agentxGotData (mode : AgentxMode) (requests : List AgentxRequest)
    (vars : List VariableList) :
    (agentxGotData mode requests vars).length = requests.length := by
  rcases agentxGotData_eq mode requests vars with ⟨fix, _, data_eq⟩
  rw [data_eq, List.length_map]
  split
  · rw [length_setRequestError, length_answerRequests]
  · exact length_answerRequests requests vars

theorem setRequestError_ite_undelegated (mode : AgentxMode) (left : Bool)
    (head : AgentxRequest) (undelegated : head.delegated = false) (rest : List AgentxRequest) :
    (∀ request ∈ if left then setRequestError mode snmpErrGenerr (head :: rest)
        else head :: rest, request.delegated = false) ↔
      ∀ request ∈ rest, request.delegated = false := by
  cases left with
  | false => exact List.forall_mem_cons.trans (and_iff_right undelegated)
  | true => exact List.forall_mem_cons.trans (and_iff_right (requestSetError_delegated _ _ _))

theorem agentxGotData_undelegated_iff (mode : AgentxMode)
    (delegated : ∀ request ∈ requests, request.delegated = true) (some_left : requests ≠ [])
    (vars : List VariableList) :
    (∀ request ∈ agentxGotData mode requests vars, request.delegated = false) ↔
      requests.length ≤ max 1 vars.length := by
  rcases agentxGotData_eq mode requests vars with ⟨fix, keeps, data_eq⟩
  have fixed (requests : List AgentxRequest) :
      (∀ request ∈ requests.map fix, request.delegated = false) ↔
        ∀ request ∈ requests, request.delegated = false := by
    simp only [List.forall_mem_map, (keeps _).1]
  rw [data_eq, fixed]
  cases requests with
  | nil => exact absurd rfl some_left
  | cons request requests =>
      rcases List.forall_mem_cons.mp delegated with ⟨_, rest⟩
      cases vars with
      | nil =>
          -- the first request has the error, and the others are left as they are
          have all := answerRequests_undelegated_iff rest []
          have same : (answerRequests requests []).1 = requests := by cases requests <;> rfl
          rw [same] at all
          simp only [answerRequests, if_true, setRequestError, List.forall_mem_cons,
            requestSetError_delegated, true_and, all, List.length_cons, List.length_nil]
          omega
      | cons var vars =>
          have all := answerRequests_undelegated_iff rest vars
          have tail := setRequestError_ite_undelegated mode (answerRequests requests vars).2
            (request.answer var) rfl (answerRequests requests vars).1
          refine (tail.trans all).trans ?_
          simp only [List.length_cons]
          omega

theorem agentxGotData_error (some_left : requests ≠ [])
    (differ : vars.length ≠ requests.length) :
    ∃ request ∈ agentxGotData mode requests vars, request.status ≠ snmpErrNoerror := by
  rcases agentxGotData_eq mode requests vars with ⟨fix, keeps, data_eq⟩
  have left := (answerRequests_left_iff requests vars).mpr (Ne.symm differ)
  have some_left' : (answerRequests requests vars).1 ≠ [] := by
    apply List.ne_nil_of_length_pos
    rw [length_answerRequests]
    exact List.length_pos_iff.mpr some_left
  rcases setRequestError_error some_left' with ⟨request, mem, isError⟩
  refine ⟨fix request, ?_, ?_⟩
  · rw [data_eq, if_pos left]
    exact List.mem_map_of_mem mem
  · rw [(keeps request).2.1]
    exact isError

/-- The request carries a varbind of the answer at the place that it had come to; the end of the
MIB view leaves it as it was. -/
def Carries (request request' : AgentxRequest) (var : VariableList) : Prop :=
  request'.varbinds[request.answered.length]? =
    some (if var.type = snmpEndofmibview then request.requestvb else var)

theorem answer_requestvb (stored : snmpSetVarValue var.type var.val = some var.val) :
    (request.answer var).requestvb =
      if var.type = snmpEndofmibview then request.requestvb else var := by
  unfold AgentxRequest.answer
  by_cases endOfView : var.type = snmpEndofmibview
  · simp only [endOfView, ne_eq, not_true_eq_false, if_false, if_true]
  · simp only [ne_eq, endOfView, not_false_eq_true, if_true, if_false, snmpSetVarTypedValue,
      stored, Option.getD_some]

theorem agentxGotData_carries {pdu : AgentxResponse} {i : Nat}
    (same : pdu.variables_.length = requests.length) (at_i : requests[i]? = some request)
    (var_i : pdu.variables_[i]? = some var) :
    ∃ request', (agentxGotData mode requests pdu.variables_)[i]? = some request' ∧
      Carries request request' var := by
  rcases agentxGotData_eq mode requests pdu.variables_ with ⟨fix, keeps, data_eq⟩
  have noneLeft : ¬ (answerRequests requests pdu.variables_).2 = true := by
    rw [answerRequests_left_iff]
    exact not_not.mpr same.symm
  rw [if_neg noneLeft, answerRequests_eq_zipWith same.symm] at data_eq
  refine ⟨fix (request.answer var), ?_, ?_⟩
  · rw [data_eq, List.getElem?_map, List.getElem?_zipWith, at_i, var_i]
    rfl
  · have stored := pdu.stored var (List.mem_of_getElem? var_i)
    have carried := (keeps (request.answer var)).2.2
    rw [answer_requestvb stored] at carried
    exact carried

/-- The answer concludes the requests that were sent. -/
structure AgentxConcludes (mode : AgentxMode) (sent after : List AgentxRequest)
    (callback : AgentxCallback) : Prop where
  length : after.length = sent.length
  undelegated : ∀ request ∈ after, request.delegated = false
  carries : mode.isData = true → ∀ pdu, callback = .receivedMessage pdu → pdu.errstat = 0 →
    pdu.variables_.length = sent.length → ∀ (i : Nat) (request : AgentxRequest)
      (var : VariableList), sent[i]? = some request → pdu.variables_[i]? = some var →
        ∃ request', after[i]? = some request' ∧ Carries request request' var
  error : mode.isData = true → (∀ pdu, callback = .receivedMessage pdu → pdu.errstat = 0 →
    pdu.variables_.length ≠ sent.length) → ∃ request ∈ after, request.status ≠ snmpErrNoerror

/-- An answer to a data request has varbinds for all requests but one at most that is the first,
and an error at one of their indices is no exception. -/
def AgentxAnswers (mode : AgentxMode) (sent : List AgentxRequest) (callback : AgentxCallback) :
    Prop :=
  mode.isData = true → ∀ pdu, callback = .receivedMessage pdu →
    if pdu.errstat = 0 then sent.length ≤ max 1 pdu.variables_.length
    else pdu.errindex ≠ 0 ∧ pdu.errindex.toNat ≤ sent.length →
      isException (agentxErr pdu.errstat) = false ∨
        ∃ request ∈ sent, request.status ≠ snmpErrNoerror

theorem agentxGotNoResponse_concludes {sent : List AgentxRequest} (some_left : sent ≠ [])
    {callback : AgentxCallback} (noMessage : ∀ pdu, callback ≠ .receivedMessage pdu) :
    AgentxConcludes mode sent (agentxGotNoResponse mode closed sent) callback ↔
      AgentxAnswers mode sent callback := by
  constructor
  · intro _ _ pdu received
    exact absurd received (noMessage pdu)
  · intro _
    constructor
    · exact length_agentxGotNoResponse
    · exact agentxGotNoResponse_undelegated
    · intro _ pdu received
      exact absurd received (noMessage pdu)
    · intro _ _
      exact agentxGotNoResponse_error some_left

theorem agentxGotError_concludes {sent : List AgentxRequest} (some_left : sent ≠ [])
    {pdu : AgentxResponse} (isError : pdu.errstat ≠ 0) :
    AgentxConcludes mode sent (agentxGotError mode sent pdu.errstat pdu.errindex)
        (.receivedMessage pdu) ↔
      AgentxAnswers mode sent (.receivedMessage pdu) := by
  constructor
  · intro concludes data pdu' received
    cases received
    rw [if_neg isError]
    apply (agentxGotError_error_iff data some_left isError).mp
    apply concludes.error data
    intro pdu' received noError
    cases received
    exact absurd noError isError
  · intro answers
    constructor
    · exact length_agentxGotError
    · exact agentxGotError_undelegated
    · intro _ pdu' received noError
      cases received
      exact absurd noError isError
    · intro data _
      have reports := answers data pdu rfl
      rw [if_neg isError] at reports
      exact (agentxGotError_error_iff data some_left isError).mpr reports

theorem agentxGotData_concludes {sent : List AgentxRequest} (some_left : sent ≠ [])
    (delegated : ∀ request ∈ sent, request.delegated = true) (data : mode.isData = true)
    {pdu : AgentxResponse} (noError : pdu.errstat = 0) :
    AgentxConcludes mode sent (agentxGotData mode sent pdu.variables_) (.receivedMessage pdu) ↔
      AgentxAnswers mode sent (.receivedMessage pdu) := by
  have undelegated_iff :=
    agentxGotData_undelegated_iff mode delegated some_left pdu.variables_
  constructor
  · intro concludes _ pdu' received
    cases received
    rw [if_pos noError]
    exact undelegated_iff.mp concludes.undelegated
  · intro answers
    constructor
    · exact length_agentxGotData mode sent pdu.variables_
    · have enough := answers data pdu rfl
      rw [if_pos noError] at enough
      exact undelegated_iff.mpr enough
    · intro _ pdu' received _ same i request var at_i var_i
      cases received
      exact agentxGotData_carries same at_i var_i
    · intro _ differ
      exact agentxGotData_error some_left (differ pdu rfl noError)

theorem markRequestsAsDelegated_concludes {sent : List AgentxRequest}
    (noData : mode.isData = false) (callback : AgentxCallback) :
    AgentxConcludes mode sent (markRequestsAsDelegated sent false) callback ↔
      AgentxAnswers mode sent callback := by
  have never : ¬ mode.isData = true := Bool.eq_false_iff.mp noData
  constructor
  · intro _ data
    exact absurd data never
  · intro _
    constructor
    · exact List.length_map _
    · exact markRequestsAsDelegated_undelegated sent
    · intro data
      exact absurd data never
    · intro data
      exact absurd data never

/-- What comes back for the requests of a PDU concludes them exactly if an answer to a data request
has enough varbinds, and no exception for an error. -/
theorem agentxGotResponse_concludes_iff (mode : AgentxMode) (closed : Nat → Bool)
    (first : AgentxRequest) (others sent : List AgentxRequest) (send : AgentxSend)
    (callback : AgentxCallback)
    (isSent : agentxMasterHandler mode (first :: others) = (sent, some send))
    (awaited : send.callback = true) :
    AgentxConcludes mode sent (agentxGotResponse mode closed sent callback) callback ↔
      AgentxAnswers mode sent callback := by
  rcases agentxMasterHandler_delegated isSent awaited with ⟨length_eq, delegated⟩
  have some_left : sent ≠ [] := by
    apply List.ne_nil_of_length_pos
    rw [length_eq]
    exact Nat.succ_pos _
  cases callback with
  | timedOut => exact agentxGotNoResponse_concludes some_left nofun
  | disconnect => exact agentxGotNoResponse_concludes some_left nofun
  | sendFailed => exact agentxGotNoResponse_concludes some_left nofun
  | receivedMessage pdu =>
      rw [agentxGotResponse]
      by_cases noError : pdu.errstat = 0
      · rw [if_neg (not_not.mpr noError)]
        by_cases data : mode.isData = true
        · rw [if_pos data]
          exact agentxGotData_concludes some_left delegated data noError
        · rw [if_neg data]
          exact markRequestsAsDelegated_concludes (Bool.eq_false_iff.mpr data) _
      · rw [if_pos noError]
        exact agentxGotError_concludes some_left noError

def exampleRequest (name : Oid) : AgentxRequest where
  requestvb := ⟨name, asnNull, .unset 0⟩
  rangeEnd := [2]
  subtree := ⟨name, 0⟩

def passedOn : List AgentxRequest :=
  [{ exampleRequest [1] with delegated := true }, { exampleRequest [2] with delegated := true }]

theorem agentxGotResponse_concludes_timedOut :
    AgentxConcludes .get passedOn (agentxGotResponse .get (fun _ => true) passedOn .timedOut)
        .timedOut ↔
      AgentxAnswers .get passedOn .timedOut :=
  agentxGotResponse_concludes_iff .get (fun _ => true) (exampleRequest [1]) [exampleRequest [2]] _
    ⟨.get, [⟨[1], asnNull, .unset 0⟩, ⟨[2], asnNull, .unset 0⟩], true⟩ .timedOut
    (by decide +kernel) rfl

/-- Of two requests, one varbind of an answer without an error leaves the second one waiting. -/
theorem not_agentxGotResponse_concludes :
    ¬ ∀ (mode : AgentxMode) (closed : Nat → Bool) (first : AgentxRequest)
      (others sent : List AgentxRequest) (send : AgentxSend) (callback : AgentxCallback),
      agentxMasterHandler mode (first :: others) = (sent, some send) → send.callback = true →
        AgentxConcludes mode sent (agentxGotResponse mode closed sent callback) callback := by
  intro concludes
  let pdu : AgentxResponse := .ofParsed 0 0 [⟨[1, 0], asnInteger, .integer 5⟩]
  have concluded := concludes .get (fun _ => false) (exampleRequest [1]) [exampleRequest [2]] _ _
    (.receivedMessage pdu) rfl rfl
  have waits := concluded.undelegated { exampleRequest [2] with delegated := true }
    (List.mem_cons_of_mem _ List.mem_cons_self)
  nomatch waits

end NetSnmp
