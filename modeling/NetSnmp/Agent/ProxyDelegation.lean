import NetSnmp.Agent.Proxy

/-!
# Requests that the proxy delegates

`proxy_handler` with its exits behind the loop over the requests, and `proxy_got_response` for what
it is told at the end of a request: whether a request can be left that waits for an answer.
-/

namespace NetSnmp

inductive SessionVersion where
  | v1
  | v2c
  | v3
  deriving DecidableEq, Repr

/-- What `proxy_fill_in_session` reads of a session, and whether the version is disabled. -/
structure ProxySession where
  version : SessionVersion
  disabled : Bool
  community : List Byte

/-- `proxy_fill_in_session`; the community of the PDU is empty where there is no PDU. -/
def proxyFillInSession (session : Option ProxySession) (pduCommunity : List Byte) : Bool :=
  match session with
  | none => false
  | some session =>
      if (session.version = .v1 ∨ session.version = .v2c) ∧ session.disabled = false then
        !(session.community.isEmpty && pduCommunity.isEmpty)
      else true

/-- The modes of `proxy_handler`: those in which a PDU is sent, and those without anything to do. -/
inductive HandlerMode where
  | sends (mode : ProxyMode)
  | setUndo
  | idle

/-- What the calls of `proxy_handler` find: whether a PDU can be created, the proxy and its session,
the community of the request, and whether `snmp_async_send` accepts the PDU. -/
structure ProxyState where
  created : Bool
  sp : Option SimpleProxy
  session : Option ProxySession
  pduCommunity : List Byte
  accepted : Bool

/-- `proxy_handler`: the requests, and the variables of the PDU that was accepted. -/
def proxyHandlerCall (state : ProxyState) (mode : HandlerMode) (requests : List ProxyRequest) :
    List ProxyRequest × Option (List VariableList) :=
  match mode with
  | .idle => (requests, none)
  | .setUndo =>
      if requests.any fun request => request.status = snmpErrNoerror then
        (setFirstError snmpErrUndofailed requests, none)
      else (requests, none)
  | .sends mode =>
      match state.created, state.sp with
      | true, some sp =>
          let sent := proxyHandler sp mode requests
          match sent.2 with
          | none => (sent.1, none)
          | some vars =>
              if proxyFillInSession state.session state.pduCommunity then
                (sent.1, if state.accepted then some vars else none)
              else (setFirstError snmpErrGenerr sent.1, none)
      | _, _ => (setFirstError snmpErrGenerr requests, none)

inductive ProxyCallback where
  | timedOut
  | disconnect
  | sendFailed
  | secError
  | receivedMessage (pdu : ProxyResponse)

/-- `proxy_got_response` for a cache that is valid. -/
def proxyGotCallback (sp : SimpleProxy) (mode : ProxyMode) (requests : List ProxyRequest) :
    ProxyCallback → List ProxyRequest
  | .timedOut =>
      let undelegated := requests.map fun request => { request with delegated := false }
      if mode ≠ .getNext then setFirstError snmpErrGenerr undelegated else undelegated
  | .receivedMessage pdu => proxyGotResponse sp mode requests pdu
  | _ => requests

variable {sp : SimpleProxy} {mode : ProxyMode} {requests : List ProxyRequest}
  {request : ProxyRequest} {requestvb var : VariableList} {vars : List VariableList}

def NoneDelegated (requests : List ProxyRequest) : Prop :=
  ∀ request ∈ requests, request.delegated = false

def SendsTooLong (sp : SimpleProxy) (mode : ProxyMode) (requestvb : VariableList) : Prop :=
  sp.base ≠ [] ∧ ¬ (mode = .getNext ∧ requestvb.name < sp.name) ∧
    (requestvb.name.length + sp.base.length < sp.name.length ∨
      maxOidLen < requestvb.name.length + sp.base.length - sp.name.length)

def IsStored (requestvb : VariableList) : Prop :=
  (snmpSetVarValue requestvb.type requestvb.val).isSome

theorem proxyOut_eq_none_iff : proxyOut sp mode requestvb = none ↔ SendsTooLong sp mode requestvb := by
  simp only [proxyOut, snmpOidCompare_neg_iff, SendsTooLong]
  by_cases base : sp.base = []
  · simp [base]
  · by_cases before : mode = .getNext ∧ requestvb.name < sp.name
    · simp [base, before]
    · have other : ¬ (sp.base ≠ [] ∧ mode = .getNext ∧ requestvb.name < sp.name) :=
        fun all => before all.2
      rw [if_neg other, if_pos base, and_iff_right base, and_iff_right before]
      split
      next long => exact iff_of_true rfl long
      next short => exact iff_of_false nofun short

theorem proxyOut_value {out : VariableList} {name : Oid}
    (sent : proxyOut sp mode requestvb = some (out, name)) :
    out.type = requestvb.type ∧ out.val = requestvb.val := by
  simp only [proxyOut] at sent
  split at sent
  · cases sent
    exact ⟨rfl, rfl⟩
  · split at sent
    · split at sent
      · nomatch sent
      · cases sent
        exact ⟨rfl, rfl⟩
    · cases sent
      exact ⟨rfl, rfl⟩

def CarriesAll (sp : SimpleProxy) (mode : ProxyMode) (requests : List ProxyRequest)
    (vars : List VariableList) : Prop :=
  List.Forall₂ (fun request var =>
    ∃ out, proxyOut sp mode request.requestvb = some (out, var.name) ∧
      var.type = request.requestvb.type) requests vars

theorem proxyHandler_tooLong (fresh : NoneDelegated requests)
    (tooLong : ∃ request ∈ requests, SendsTooLong sp mode request.requestvb) :
    (proxyHandler sp mode requests).2 = none ∧
      (NoneDelegated (proxyHandler sp mode requests).1 ↔
        ∃ first ∈ requests.head?, SendsTooLong sp mode first.requestvb) := by
  induction requests with
  | nil =>
      rcases tooLong with ⟨request, mem, -⟩
      nomatch mem
  | cons request requests ih =>
      rw [proxyHandler]
      by_cases here : SendsTooLong sp mode request.requestvb
      · rw [proxyOut_eq_none_iff.mpr here]
        exact ⟨rfl, iff_of_true fresh ⟨request, rfl, here⟩⟩
      · have tooLong' : ∃ request ∈ requests, SendsTooLong sp mode request.requestvb := by
          rcases tooLong with ⟨request', mem, isLong⟩
          rcases List.mem_cons.mp mem with rfl | mem
          · exact absurd isLong here
          · exact ⟨request', mem, isLong⟩
        have rest := (ih (fun other mem => fresh other (List.mem_cons_of_mem _ mem)) tooLong').1
        cases sent : proxyOut sp mode request.requestvb with
        | none => exact absurd (proxyOut_eq_none_iff.mp sent) here
        | some out =>
            refine ⟨?_, iff_of_false ?_ ?_⟩
            · simp only [rest, Option.map_none]
            · intro noneDelegated
              nomatch noneDelegated _ List.mem_cons_self
            · rintro ⟨first, isFirst, isLong⟩
              rcases Option.some.inj isFirst with rfl
              exact here isLong

theorem proxyHandler_fits
    (fits : ∀ request ∈ requests, ¬ SendsTooLong sp mode request.requestvb) :
    (∀ request ∈ (proxyHandler sp mode requests).1, request.delegated = true) ∧
      (proxyHandler sp mode requests).1.length = requests.length ∧
      ∃ vars, (proxyHandler sp mode requests).2 = some vars ∧ vars.length ≤ requests.length ∧
        (CarriesAll sp mode requests vars ↔ ∀ request ∈ requests, IsStored request.requestvb) := by
  induction requests with
  | nil => exact ⟨nofun, rfl, [], rfl, le_rfl, iff_of_true .nil nofun⟩
  | cons request requests ih =>
      rcases ih fun other mem => fits other (List.mem_cons_of_mem _ mem) with
        ⟨marked, length_eq, vars, vars_eq, short, carries_iff⟩
      cases sent : proxyOut sp mode request.requestvb with
      | none =>
          exact absurd (proxyOut_eq_none_iff.mp sent) (fits request List.mem_cons_self)
      | some out =>
          rcases out with ⟨out, name⟩
          have value := proxyOut_value sent
          simp only [proxyHandler, sent, vars_eq, Option.map_some]
          refine ⟨?_, congrArg Nat.succ length_eq, ?_⟩
          · intro other mem
            rcases List.mem_cons.mp mem with rfl | mem
            · rfl
            · exact marked other mem
          · rw [value.1, value.2]
            cases stored : snmpSetVarValue request.requestvb.type request.requestvb.val with
            | none =>
                refine ⟨vars, rfl, Nat.le_succ_of_le short, iff_of_false ?_ ?_⟩
                · intro carries
                  have same := carries.length_eq
                  rw [List.length_cons] at same
                  omega
                · intro all
                  have here := all request List.mem_cons_self
                  rw [IsStored, stored] at here
                  nomatch here
            | some val =>
                refine ⟨_, rfl, Nat.succ_le_succ short, ?_⟩
                rw [CarriesAll, List.forall₂_cons, ← CarriesAll, carries_iff, List.forall_mem_cons]
                apply and_congr_left'
                apply iff_of_true
                · exact ⟨out, sent, rfl⟩
                · rw [IsStored, stored]
                  rfl

theorem noneDelegated_setFirstError_iff {status : Int} (marked : ∀ request ∈ requests,
    request.delegated = true) :
    NoneDelegated (setFirstError status requests) ↔ requests.length ≤ 1 := by
  match requests with
  | [] => exact iff_of_true nofun (Nat.zero_le 1)
  | [request] =>
      apply iff_of_true _ le_rfl
      intro other mem
      rw [List.mem_singleton.mp mem]
  | request :: second :: requests =>
      apply iff_of_false
      · intro noneDelegated
        have second_eq := noneDelegated second (List.mem_cons_of_mem _ List.mem_cons_self)
        rw [marked second (List.mem_cons_of_mem _ List.mem_cons_self)] at second_eq
        nomatch second_eq
      · simp

theorem noneDelegated_setFirstError {status : Int} (fresh : NoneDelegated requests) :
    NoneDelegated (setFirstError status requests) := by
  cases requests with
  | nil => exact nofun
  | cons request requests =>
      intro other mem
      rcases List.mem_cons.mp mem with rfl | mem
      · rfl
      · exact fresh other (List.mem_cons_of_mem _ mem)

/-- What is sent carries all requests, or none waits. -/
def ProxySends (state : ProxyState) (mode : HandlerMode) (requests : List ProxyRequest) : Prop :=
  (∃ sp sendMode vars, state.sp = some sp ∧ mode = .sends sendMode ∧
      (proxyHandlerCall state mode requests).2 = some vars ∧ CarriesAll sp sendMode requests vars) ∨
    NoneDelegated (proxyHandlerCall state mode requests).1

/-- Before the first request is marked a name is found to be too long; or none is, and the PDU is
accepted with all values. Without the parameters of the session only one request is unmarked. -/
def SendSucceeds (state : ProxyState) (sp : SimpleProxy) (mode : ProxyMode) :
    List ProxyRequest → Prop
  | [] => True
  | first :: others =>
      SendsTooLong sp mode first.requestvb ∨
        ((∀ request ∈ first :: others, ¬ SendsTooLong sp mode request.requestvb) ∧
          if proxyFillInSession state.session state.pduCommunity = true then
            state.accepted = true ∧ ∀ request ∈ first :: others, IsStored request.requestvb
          else others = [])

/-- The condition for the calls of `proxy_handler`. -/
def HandlerFits (state : ProxyState) (mode : HandlerMode) (requests : List ProxyRequest) : Prop :=
  ∀ sendMode sp, mode = .sends sendMode → state.created = true → state.sp = some sp →
    SendSucceeds state sp sendMode requests

theorem proxySends_fits_iff {state : ProxyState} (created : state.created = true)
    (isSp : state.sp = some sp)
    (fits : ∀ request ∈ requests, ¬ SendsTooLong sp mode request.requestvb) :
    ProxySends state (.sends mode) requests ↔ SendSucceeds state sp mode requests := by
  rcases proxyHandler_fits fits with ⟨marked, length_eq, vars, vars_eq, -, carries_iff⟩
  have call_eq : proxyHandlerCall state (.sends mode) requests =
      if proxyFillInSession state.session state.pduCommunity then
        ((proxyHandler sp mode requests).1, if state.accepted then some vars else none)
      else (setFirstError snmpErrGenerr (proxyHandler sp mode requests).1, none) := by
    simp only [proxyHandlerCall, created, isSp, vars_eq]
  have empty_iff : NoneDelegated (proxyHandler sp mode requests).1 ↔ requests = [] := by
    rw [← List.length_eq_zero_iff, ← length_eq, List.length_eq_zero_iff]
    constructor
    · intro noneDelegated
      by_contra nonempty
      rcases List.exists_mem_of_ne_nil _ nonempty with ⟨request, mem⟩
      have clear := noneDelegated request mem
      rw [marked request mem] at clear
      nomatch clear
    · intro isEmpty
      rw [isEmpty]
      exact nofun
  cases requests with
  | nil =>
      apply iff_of_true _ trivial
      apply Or.inr
      rw [call_eq]
      split <;> exact nofun
  | cons first others =>
      rw [SendSucceeds, or_iff_right (fits first List.mem_cons_self), and_iff_right fits]
      rw [ProxySends, call_eq]
      by_cases filled : proxyFillInSession state.session state.pduCommunity = true
      · simp only [if_pos filled, isSp, Option.some.injEq, HandlerMode.sends.injEq]
        rw [or_iff_left (fun none => List.cons_ne_nil _ _ (empty_iff.mp none))]
        constructor
        · rintro ⟨sp', sendMode, vars', rfl, rfl, sent, carries⟩
          split at sent
          next accepted =>
            cases sent
            exact ⟨accepted, carries_iff.mp carries⟩
          · nomatch sent
        · rintro ⟨accepted, stored⟩
          exact ⟨sp, mode, vars, rfl, rfl, if_pos accepted, carries_iff.mpr stored⟩
      · simp only [if_neg filled]
        rw [or_iff_right (by rintro ⟨_, _, _, -, -, sent, -⟩; nomatch sent),
          noneDelegated_setFirstError_iff marked, length_eq, List.length_cons]
        simp

theorem proxySends_iff {state : ProxyState} {mode : HandlerMode} (fresh : NoneDelegated requests) :
    ProxySends state mode requests ↔ HandlerFits state mode requests := by
  cases mode with
  | idle => exact iff_of_true (.inr fresh) nofun
  | setUndo =>
      apply iff_of_true _ nofun
      apply Or.inr
      rw [proxyHandlerCall]
      split
      · exact noneDelegated_setFirstError fresh
      · exact fresh
  | sends mode =>
      by_cases ready : state.created = true ∧ ∃ sp, state.sp = some sp
      · rcases ready with ⟨created, sp, isSp⟩
        have fits_iff : HandlerFits state (.sends mode) requests ↔
            SendSucceeds state sp mode requests := by
          constructor
          · intro fits
            exact fits mode sp rfl created isSp
          · rintro succeeds sendMode sp' sameMode - isSp'
            cases sameMode
            rcases Option.some.inj (isSp.symm.trans isSp') with rfl
            exact succeeds
        rw [fits_iff]
        by_cases tooLong : ∃ request ∈ requests, SendsTooLong sp mode request.requestvb
        · rcases proxyHandler_tooLong fresh tooLong with ⟨none, clear_iff⟩
          have call_eq : proxyHandlerCall state (.sends mode) requests =
              ((proxyHandler sp mode requests).1, Option.none) := by
            simp only [proxyHandlerCall, created, isSp, none]
          rw [ProxySends, call_eq, or_iff_right (by rintro ⟨_, _, _, -, -, sent, -⟩; nomatch sent),
            clear_iff]
          cases requests with
          | nil =>
              rcases tooLong with ⟨request, mem, -⟩
              nomatch mem
          | cons first others =>
              rw [SendSucceeds, or_iff_left]
              · constructor
                · rintro ⟨first', isFirst, isLong⟩
                  rcases Option.some.inj isFirst with rfl
                  exact isLong
                · intro isLong
                  exact ⟨first, rfl, isLong⟩
              · rintro ⟨fits, -⟩
                rcases tooLong with ⟨request, mem, isLong⟩
                exact fits request mem isLong
        · apply proxySends_fits_iff created isSp
          intro request mem isLong
          exact tooLong ⟨request, mem, isLong⟩
      · have call_eq : proxyHandlerCall state (.sends mode) requests =
            (setFirstError snmpErrGenerr requests, none) := by
          rcases state with ⟨created, sp, session, pduCommunity, accepted⟩
          cases created with
          | false => rfl
          | true =>
              cases sp with
              | none => rfl
              | some sp => exact absurd ⟨rfl, sp, rfl⟩ ready
        apply iff_of_true
        · apply Or.inr
          rw [call_eq]
          exact noneDelegated_setFirstError fresh
        · rintro sendMode sp - created isSp
          exact absurd ⟨created, sp, isSp⟩ ready

def AnswersTooLong (sp : SimpleProxy) (var : VariableList) : Prop :=
  sp.base ≠ [] ∧ isLegitimate sp.base var.name = true ∧
    maxOidLen < sp.name.length + var.name.length - sp.base.length

theorem proxyIn_eq_none_iff : proxyIn sp requestvb var = none ↔ AnswersTooLong sp var := by
  simp only [proxyIn, AnswersTooLong]
  by_cases base : sp.base = []
  · simp only [base, ne_eq, not_true_eq_false, if_false, false_and]
    split <;> simp
  · rw [if_pos base, and_iff_right base]
    cases legitimate : isLegitimate sp.base var.name with
    | false => simp
    | true =>
        simp only [Bool.not_true, Bool.false_eq_true, if_false, true_and]
        split
        next long => exact iff_of_true rfl long
        next short => exact iff_of_false nofun short

/-- The response has a varbind for the request at a place, and the name of none in front of it
becomes too long. -/
def IsReached (sp : SimpleProxy) (vars : List VariableList) (place : Nat) : Prop :=
  place < vars.length ∧ ∀ var ∈ vars.take place, ¬ AnswersTooLong sp var

theorem isReached_cons_iff {place : Nat} :
    IsReached sp (var :: vars) (place + 1) ↔ ¬ AnswersTooLong sp var ∧ IsReached sp vars place := by
  rw [IsReached, IsReached, List.length_cons, List.take_succ_cons, List.forall_mem_cons,
    Nat.succ_lt_succ_iff]
  exact and_left_comm

theorem proxyUpdate_delegated (place : Nat) :
    (∃ request ∈ (proxyUpdate sp requests vars).1[place]?, request.delegated = true) ↔
      (∃ request ∈ requests[place]?, request.delegated = true) ∧ ¬ IsReached sp vars place := by
  induction requests generalizing vars place with
  | nil =>
      have unchanged : (proxyUpdate sp [] vars).1 = [] := by cases vars <;> rfl
      rw [unchanged]
      simp
  | cons request requests ih =>
      cases vars with
      | nil =>
          have notReached : ¬ IsReached sp [] place := fun reached => Nat.not_lt_zero _ reached.1
          rw [and_iff_left notReached]
          exact Iff.rfl
      | cons var vars =>
          rw [proxyUpdate]
          cases answered : proxyIn sp request.requestvb var with
          | none =>
              have isLong := proxyIn_eq_none_iff.mp answered
              cases place with
              | zero => simp [IsReached]
              | succ place =>
                  rw [isReached_cons_iff, and_iff_left fun both => both.1 isLong]
                  exact Iff.rfl
          | some requestvb =>
              have notLong : ¬ AnswersTooLong sp var := by
                intro isLong
                rw [proxyIn_eq_none_iff.mpr isLong] at answered
                nomatch answered
              cases place with
              | zero => simp [IsReached]
              | succ place =>
                  rw [isReached_cons_iff, and_iff_right notLong]
                  exact ih place

theorem proxyUpdate_complete (complete : (proxyUpdate sp (request :: requests) vars).2 = true) :
    IsReached sp vars 0 := by
  cases vars with
  | nil => nomatch complete
  | cons var vars => exact ⟨Nat.succ_pos _, nofun⟩

theorem noneDelegated_iff :
    NoneDelegated requests ↔
      ∀ place : Nat, ¬ ∃ request ∈ requests[place]?, request.delegated = true := by
  constructor
  · rintro clear place ⟨request, isRequest, marked⟩
    rw [clear request (List.mem_of_getElem? isRequest)] at marked
    nomatch marked
  · intro clear request mem
    rcases List.mem_iff_getElem?.mp mem with ⟨place, isRequest⟩
    by_contra marked
    exact clear place ⟨request, isRequest, by simpa using marked⟩

theorem setFirstError_delegated {status : Int} (place : Nat) :
    (∃ request ∈ (setFirstError status requests)[place]?, request.delegated = true) ↔
      place ≠ 0 ∧ ∃ request ∈ requests[place]?, request.delegated = true := by
  cases requests with
  | nil => simp [setFirstError]
  | cons request requests => cases place <;> simp [setFirstError]

theorem noneDelegated_update_iff :
    NoneDelegated (if (proxyUpdate sp requests vars).2 then (proxyUpdate sp requests vars).1
        else setFirstError snmpErrGenerr (proxyUpdate sp requests vars).1) ↔
      ∀ place, (∃ request ∈ requests[place]?, request.delegated = true) →
        place = 0 ∨ IsReached sp vars place := by
  rw [noneDelegated_iff]
  apply forall_congr'
  intro place
  by_cases complete : (proxyUpdate sp requests vars).2 = true
  · rw [if_pos complete, proxyUpdate_delegated]
    have first : place = 0 → (∃ request ∈ requests[place]?, request.delegated = true) →
        IsReached sp vars place := by
      rintro rfl ⟨request, isRequest, -⟩
      cases requests with
      | nil => nomatch isRequest
      | cons request requests => exact proxyUpdate_complete complete
    constructor
    · intro unmarked marked
      by_contra unreached
      exact unmarked ⟨marked, fun reached => unreached (.inr reached)⟩
    · rintro reached ⟨marked, unreached⟩
      rcases reached marked with isFirst | reached
      · exact unreached (first isFirst marked)
      · exact unreached reached
  · rw [if_neg complete, setFirstError_delegated, proxyUpdate_delegated]
    constructor
    · intro unmarked marked
      by_contra unreached
      rw [not_or] at unreached
      exact unmarked ⟨unreached.1, marked, unreached.2⟩
    · rintro reached ⟨notFirst, marked, unreached⟩
      rcases reached marked with isFirst | reached
      · exact notFirst isFirst
      · exact unreached reached

/-- A message with an error, or one that reaches all requests but the first; or a timeout. With any
other callback the requests must not be marked. -/
def CallbackClears (sp : SimpleProxy) (requests : List ProxyRequest) : ProxyCallback → Prop
  | .timedOut => True
  | .receivedMessage pdu => pdu.errstat ≠ snmpErrNoerror ∨
      ∀ place, (∃ request ∈ requests[place]?, request.delegated = true) →
        place = 0 ∨ IsReached sp pdu.variables_ place
  | _ => NoneDelegated requests

theorem noneDelegated_map (requests : List ProxyRequest) :
    NoneDelegated (requests.map fun request => { request with delegated := false }) := by
  intro request mem
  rcases List.mem_map.mp mem with ⟨request', -, rfl⟩
  rfl

theorem noneDelegated_setErrorIdx {status idx : Int} (clear : NoneDelegated requests) :
    NoneDelegated (setErrorIdx requests status idx) := by
  intro request mem
  rcases List.mem_append.mp mem with mem | mem
  · exact clear request (List.mem_of_mem_take mem)
  · apply noneDelegated_setFirstError _ request mem
    intro other mem
    exact clear other (List.mem_of_mem_drop mem)

theorem proxyGotCallback_clears_iff (callback : ProxyCallback) :
    NoneDelegated (proxyGotCallback sp mode requests callback) ↔
      CallbackClears sp requests callback := by
  cases callback with
  | timedOut =>
      apply iff_of_true _ trivial
      have clear := noneDelegated_map requests
      rw [proxyGotCallback]
      split
      · exact noneDelegated_setFirstError clear
      · exact clear
  | disconnect => exact Iff.rfl
  | sendFailed => exact Iff.rfl
  | secError => exact Iff.rfl
  | receivedMessage pdu =>
      have clear := noneDelegated_map requests
      rw [proxyGotCallback, proxyGotResponse, CallbackClears]
      by_cases error : pdu.errstat ≠ snmpErrNoerror
      · rw [if_pos error]
        apply iff_of_true _ (.inl error)
        dsimp only
        split
        · exact clear
        · exact noneDelegated_setErrorIdx clear
      · rw [if_neg error, or_iff_right error]
        exact noneDelegated_update_iff

/-- When the proxy leaves no request waiting: at the return of its handler, and at that of its
callback. -/
theorem proxy_delegation_iff (state : ProxyState) (handlerMode : HandlerMode)
    (requests : List ProxyRequest) (fresh : NoneDelegated requests) (sp : SimpleProxy)
    (mode : ProxyMode) (waiting : List ProxyRequest) (callback : ProxyCallback) :
    (ProxySends state handlerMode requests ↔ HandlerFits state handlerMode requests) ∧
      (NoneDelegated (proxyGotCallback sp mode waiting callback) ↔
        CallbackClears sp waiting callback) :=
  ⟨proxySends_iff fresh, proxyGotCallback_clears_iff callback⟩

def smallProxy : SimpleProxy := ⟨[1, 1], [1, 2]⟩

def delegableGet (name : Oid) (delegated : Bool) : ProxyRequest :=
  ⟨⟨name, asnNull, .unset 0⟩, delegated, snmpErrNoerror⟩

def delegableGets (delegated : Bool) : List ProxyRequest :=
  [delegableGet [1, 1, 1] delegated, delegableGet [1, 1, 7, 2] delegated]

def shortResponse : ProxyCallback := .receivedMessage ⟨0, 0, [⟨[1, 2, 1], asnInteger, .integer 5⟩]⟩

theorem proxy_delegation_get :
    NoneDelegated (delegableGets false) ∧
      (ProxySends ⟨true, some smallProxy, none, [], true⟩ (.sends .get) (delegableGets false) ↔
        HandlerFits ⟨true, some smallProxy, none, [], true⟩ (.sends .get) (delegableGets false)) ∧
      (NoneDelegated (proxyGotCallback smallProxy .get (delegableGets true) shortResponse) ↔
        CallbackClears smallProxy (delegableGets true) shortResponse) := by
  have fresh : NoneDelegated (delegableGets false) := by
    intro request mem
    rcases List.mem_pair.mp mem with rfl | rfl
    · rfl
    · rfl
  exact ⟨fresh, proxy_delegation_iff _ _ _ fresh smallProxy .get _ shortResponse⟩

/-- A request stays marked when the session is disconnected. -/
theorem not_proxy_delegation :
    ¬ ∀ (state : ProxyState) (handlerMode : HandlerMode) (requests : List ProxyRequest),
      NoneDelegated requests → ∀ (sp : SimpleProxy) (mode : ProxyMode)
        (waiting : List ProxyRequest) (callback : ProxyCallback),
          ProxySends state handlerMode requests ∧
            NoneDelegated (proxyGotCallback sp mode waiting callback) := by
  intro clears
  have clear := (clears ⟨true, some smallProxy, none, [], true⟩ .idle [] nofun smallProxy .get
    [delegableGet [1, 1, 1] true] .disconnect).2 _ List.mem_cons_self
  nomatch clear

end NetSnmp
