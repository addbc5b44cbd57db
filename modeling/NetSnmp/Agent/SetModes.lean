import NetSnmp.Agent.SetPhases

/-!
# What happens in a mode of a SET request

The handlers are called once each, the errors that they report are found again in the
status of the session.
-/

namespace NetSnmp

def ErrorAt (requests : List RequestInfo) (index : Nat) : Prop :=
  ∃ request ∈ requests, request.index = index ∧ request.status ≠ snmpErrNoerror

def HasError (requests : List RequestInfo) : Prop :=
  ∃ request ∈ requests, request.status ≠ snmpErrNoerror

def allRequests (entries : List TreeCache) : List RequestInfo := entries.flatMap TreeCache.requests

/-- The calls in a mode of the handlers from place `i` on; those of registrations that cannot be set
are not called. -/
def calledEntries (mode : AgentMode) : (i : Nat) → (canSet : List Bool) → List (Nat × AgentMode)
  | _, [] => []
  | i, true :: rest => (i, mode) :: calledEntries mode (i + 1) rest
  | i, false :: rest => calledEntries mode (i + 1) rest

def HandlerError.IsFound (specific : Int) (error : HandlerError) : Prop :=
  specific = 0 ∨ error.returned = true ∨ error.status = specific

structure Reported (mode : AgentMode) (requests requests' : List RequestInfo)
    (errors : List HandlerError) : Prop where
  sticky : ∀ index, ErrorAt requests index → ErrorAt requests' index
  statuses : ∀ error ∈ errors, error.mode = mode ∧ error.status ≠ snmpErrNoerror
  marked : ∀ error ∈ errors, error.returned = false →
    ∃ request ∈ requests', request.status = error.status
  reported : ∀ request ∈ requests', request.status ≠ snmpErrNoerror → HasError requests ∨
    ∃ error ∈ errors, error.returned = false ∧ error.status = request.status

theorem hasError_iff {requests : List RequestInfo} :
    HasError requests ↔ ∃ index, ErrorAt requests index := by
  constructor
  · rintro ⟨request, mem, isError⟩
    exact ⟨request.index, request, mem, rfl, isError⟩
  · rintro ⟨_, request, mem, -, isError⟩
    exact ⟨request, mem, isError⟩

namespace Reported

variable {mode : AgentMode} {requests requests' others others' : List RequestInfo}
  {errors errors' : List HandlerError}

theorem nil : Reported mode [] [] [] := by
  refine ⟨fun _ errorAt => errorAt, ?_, ?_, ?_⟩
  all_goals
    intro _ mem
    cases mem

theorem refl : Reported mode requests requests [] := by
  refine ⟨fun _ errorAt => errorAt, ?_, ?_, fun request mem isError => .inl ⟨request, mem, isError⟩⟩
  all_goals
    intro _ mem
    cases mem

theorem append (first : Reported mode requests requests' errors)
    (second : Reported mode others others' errors') :
    Reported mode (requests ++ others) (requests' ++ others') (errors ++ errors') := by
  constructor
  · rintro index ⟨request, mem, isError⟩
    rcases List.mem_append.mp mem with mem | mem
    · rcases first.sticky index ⟨request, mem, isError⟩ with ⟨request', mem', isError'⟩
      exact ⟨request', List.mem_append_left _ mem', isError'⟩
    · rcases second.sticky index ⟨request, mem, isError⟩ with ⟨request', mem', isError'⟩
      exact ⟨request', List.mem_append_right _ mem', isError'⟩
  · intro error mem
    rcases List.mem_append.mp mem with mem | mem
    · exact first.statuses error mem
    · exact second.statuses error mem
  · intro error mem onRequest
    rcases List.mem_append.mp mem with mem | mem
    · rcases first.marked error mem onRequest with ⟨request, requestMem, same⟩
      exact ⟨request, List.mem_append_left _ requestMem, same⟩
    · rcases second.marked error mem onRequest with ⟨request, requestMem, same⟩
      exact ⟨request, List.mem_append_right _ requestMem, same⟩
  · intro request mem isError
    rcases List.mem_append.mp mem with mem | mem
    · rcases first.reported request mem isError with
        ⟨old, oldMem, oldError⟩ | ⟨error, errorMem, same⟩
      · exact .inl ⟨old, List.mem_append_left _ oldMem, oldError⟩
      · exact .inr ⟨error, List.mem_append_left _ errorMem, same⟩
    · rcases second.reported request mem isError with
        ⟨old, oldMem, oldError⟩ | ⟨error, errorMem, same⟩
      · exact .inl ⟨old, List.mem_append_right _ oldMem, oldError⟩
      · exact .inr ⟨error, List.mem_append_right _ errorMem, same⟩

theorem hasError (report : Reported mode requests requests' errors) (old : HasError requests) :
    HasError requests' := by
  rw [hasError_iff] at old ⊢
  exact old.imp report.sticky

theorem returned (report : Reported mode requests requests' errors) (status : Int) :
    Reported mode requests requests' (errors ++ returnedError mode status) := by
  refine ⟨report.sticky, ?_, ?_, ?_⟩
  · intro error mem
    rcases List.mem_append.mp mem with mem | mem
    · exact report.statuses error mem
    · rw [returnedError] at mem
      split at mem
      · cases mem
      · rename_i isError
        rw [List.mem_singleton.mp mem]
        exact ⟨rfl, isError⟩
  · intro error mem onRequest
    rcases List.mem_append.mp mem with mem | mem
    · exact report.marked error mem onRequest
    · rw [returnedError] at mem
      split at mem
      · cases mem
      · rw [List.mem_singleton.mp mem] at onRequest
        cases onRequest
  · intro request mem isError
    apply (report.reported request mem isError).imp_right
    rintro ⟨error, errorMem, same⟩
    exact ⟨error, List.mem_append_left _ errorMem, same⟩

end Reported

section Report

theorem Report.apply_sticky (report : Report) {request : RequestInfo}
    (hasError : request.status ≠ snmpErrNoerror) :
    (report.apply request).index = request.index ∧
      (report.apply request).status ≠ snmpErrNoerror := by
  cases report with
  | success => exact ⟨rfl, hasError⟩
  | error status => exact ⟨rfl, status.property⟩
  | delegated => exact ⟨rfl, hasError⟩

theorem Report.error?_ne {report : Report} {status : Int} (reported : report.error? = some status) :
    status ≠ snmpErrNoerror := by
  cases report with
  | success => cases reported
  | error errorStatus =>
      cases reported
      exact errorStatus.property
  | delegated => cases reported

theorem Report.apply_status {report : Report} {status : Int}
    (reported : report.error? = some status)
    (request : RequestInfo) : (report.apply request).status = status := by
  cases report with
  | success => cases reported
  | error errorStatus =>
      cases reported
      rfl
  | delegated => cases reported

theorem reported_report (entry : TreeCache) (mode : AgentMode) (reports : Nat → Report) :
    Reported mode entry.requests (entry.report reports).requests (entry.errors mode reports) := by
  constructor
  · rintro index ⟨request, mem, rfl, isError⟩
    exact ⟨_, List.mem_map_of_mem mem, (reports request.index).apply_sticky isError⟩
  · intro error mem
    rcases List.mem_filterMap.mp mem with ⟨request, -, reported⟩
    rcases Option.map_eq_some_iff.mp reported with ⟨status, status_eq, rfl⟩
    exact ⟨rfl, Report.error?_ne status_eq⟩
  · intro error mem _
    rcases List.mem_filterMap.mp mem with ⟨request, requestMem, reported⟩
    rcases Option.map_eq_some_iff.mp reported with ⟨status, status_eq, rfl⟩
    refine ⟨_, List.mem_map_of_mem requestMem, ?_⟩
    exact Report.apply_status status_eq request
  · intro request mem isError
    rcases List.mem_map.mp mem with ⟨old, oldMem, rfl⟩
    cases report_eq : reports old.index with
    | success =>
        rw [report_eq] at isError
        exact .inl ⟨old, oldMem, isError⟩
    | delegated =>
        rw [report_eq] at isError
        exact .inl ⟨old, oldMem, isError⟩
    | error status =>
        refine .inr ⟨⟨mode, status.val, false⟩, List.mem_filterMap.mpr ⟨old, oldMem, ?_⟩, rfl, rfl⟩
        rw [report_eq]
        rfl

end Report

namespace SetSession

section Check

variable (asp : SetSession) (specific : Int) (requests : List RequestInfo)

theorem netsnmpCheckRequestsStatus_eq : ∃ index status,
    asp.netsnmpCheckRequestsStatus specific requests = { asp with index, status } := by
  induction requests generalizing asp with
  | nil => exact ⟨asp.index, asp.status, rfl⟩
  | cons request rest ih =>
      rw [netsnmpCheckRequestsStatus]
      split
      · rcases ih { asp with index := request.index, status := request.status } with
          ⟨index, status, checked⟩
        exact ⟨index, status, checked⟩
      · exact ih asp

variable {asp specific requests}

theorem netsnmpCheckRequestsStatus_status :
    (asp.netsnmpCheckRequestsStatus specific requests).status ≠ snmpErrNoerror ↔
      asp.status ≠ snmpErrNoerror ∨ ∃ request ∈ requests, request.status ≠ snmpErrNoerror ∧
        (specific = 0 ∨ request.status = specific) ∧
          (specific ≠ 0 ∨ asp.index = 0 ∨ request.index ≤ asp.index) := by
  induction requests generalizing asp with
  | nil =>
      rw [netsnmpCheckRequestsStatus]
      simp
  | cons request rest ih =>
      rw [netsnmpCheckRequestsStatus]
      split
      · rename_i found
        rw [ih]
        exact iff_of_true (.inl found.1) (.inr ⟨request, List.mem_cons_self, found⟩)
      · rename_i notFound
        rw [ih]
        constructor
        · rintro (old | ⟨other, mem, found⟩)
          · exact .inl old
          · exact .inr ⟨other, List.mem_cons_of_mem _ mem, found⟩
        · rintro (old | ⟨other, mem, found⟩)
          · exact .inl old
          · rcases List.mem_cons.mp mem with rfl | mem
            · exact absurd found notFound
            · exact .inr ⟨other, mem, found⟩

theorem netsnmpCheckRequestsStatus_index :
    (asp.netsnmpCheckRequestsStatus specific requests).index = asp.index ∨
      ErrorAt requests (asp.netsnmpCheckRequestsStatus specific requests).index := by
  induction requests generalizing asp with
  | nil => exact .inl rfl
  | cons request rest ih =>
      rw [netsnmpCheckRequestsStatus]
      split
      · rename_i found
        right
        rcases @ih { asp with index := request.index, status := request.status } with
          same | ⟨other, mem, isError⟩
        · exact ⟨request, List.mem_cons_self, same.symm, found.1⟩
        · exact ⟨other, List.mem_cons_of_mem _ mem, isError⟩
      · rcases @ih asp with same | ⟨other, mem, isError⟩
        · exact .inl same
        · exact .inr ⟨other, List.mem_cons_of_mem _ mem, isError⟩

theorem netsnmpCheckRequestsStatus_clean (clean : asp.status = snmpErrNoerror → asp.index = 0)
    (unfound : (asp.netsnmpCheckRequestsStatus specific requests).status = snmpErrNoerror) :
    (asp.netsnmpCheckRequestsStatus specific requests).index = 0 := by
  induction requests generalizing asp with
  | nil => exact clean unfound
  | cons request rest ih =>
      rw [netsnmpCheckRequestsStatus] at unfound ⊢
      split
      · rename_i found
        rw [if_pos found] at unfound
        exact ih (fun noError => absurd noError found.1) unfound
      · rename_i notFound
        rw [if_neg notFound] at unfound
        exact ih clean unfound

end Check

/-- What `netsnmp_call_handlers` does with an entry. -/
theorem netsnmpCallHandlers_spec (handlers : Handlers) (asp : SetSession) (i : Nat)
    (entry : TreeCache) : ∃ status entry' errors,
      asp.netsnmpCallHandlers handlers i entry = (status, entry',
        { asp with
          calls := asp.calls ++ calledEntries asp.mode i [entry.canSet]
          errors := asp.errors ++ errors }) ∧
      entry'.canSet = entry.canSet ∧
      Reported asp.mode entry.requests entry'.requests errors ∧
      (status ≠ snmpErrNoerror ↔ ∃ error ∈ errors, error.returned = true) := by
  rw [netsnmpCallHandlers]
  have onRequests (mode : AgentMode) (reports : Nat → Report) :
      ∀ error ∈ entry.errors mode reports, error.returned = false := by
    intro error mem
    rcases List.mem_filterMap.mp mem with ⟨request, -, reported⟩
    rcases Option.map_eq_some_iff.mp reported with ⟨status, -, rfl⟩
    rfl
  cases canSet : entry.canSet with
  | true =>
      refine ⟨_, entry.report (handlers asp i).reports, _, rfl, canSet,
        (reported_report entry asp.mode _).returned _, ?_⟩
      constructor
      · intro isError
        refine ⟨⟨asp.mode, (handlers asp i).status, true⟩, List.mem_append_right _ ?_, rfl⟩
        rw [returnedError, if_neg isError]
        exact List.mem_cons_self
      · rintro ⟨error, mem, returned⟩ noError
        rcases List.mem_append.mp mem with mem | mem
        · rw [onRequests _ _ error mem] at returned
          cases returned
        · rw [returnedError, if_pos noError] at mem
          cases mem
  | false =>
      refine ⟨snmpErrNoerror, entry.report notWritableReport,
        entry.errors asp.mode notWritableReport, ?_, canSet,
        reported_report entry asp.mode _, ?_⟩
      · simp only [calledEntries, List.append_nil]
        rfl
      · refine iff_of_false (fun absurdity => absurdity rfl) ?_
        rintro ⟨error, mem, returned⟩
        rw [onRequests _ _ error mem] at returned
        cases returned

theorem netsnmpCheckRequestsStatus_reported {asp : SetSession} {mode : AgentMode} {specific : Int}
    {requests requests' : List RequestInfo} {errors : List HandlerError}
    (reported : Reported mode requests requests' errors)
    (clean : asp.status = snmpErrNoerror → asp.index = 0) (noError : ¬ HasError requests) :
    (asp.netsnmpCheckRequestsStatus specific requests').status ≠ snmpErrNoerror ↔
      asp.status ≠ snmpErrNoerror ∨
        ∃ error ∈ errors, error.returned = false ∧ (specific = 0 ∨ error.status = specific) := by
  rw [netsnmpCheckRequestsStatus_status]
  by_cases old : asp.status ≠ snmpErrNoerror
  · exact iff_of_true (.inl old) (.inl old)
  have indexZero := clean (not_not.mp old)
  apply or_congr_right
  constructor
  · rintro ⟨request, mem, isError, isSpecific, -⟩
    rcases (reported.reported request mem isError).resolve_left noError with
      ⟨error, errorMem, onRequest, same⟩
    exact ⟨error, errorMem, onRequest, same ▸ isSpecific⟩
  · rintro ⟨error, errorMem, onRequest, isSpecific⟩
    rcases reported.marked error errorMem onRequest with ⟨request, mem, same⟩
    refine ⟨request, mem, ?_, same ▸ isSpecific, .inr (.inl indexZero)⟩
    rw [same]
    exact (reported.statuses error errorMem).2

theorem mergedStatus_ne {finalStatus status replied : Int} :
    (if finalStatus = snmpErrNoerror ∧
        (if status ≠ snmpErrNoerror then status else replied) ≠ snmpErrNoerror then
      (if status ≠ snmpErrNoerror then status else replied) else finalStatus) ≠ snmpErrNoerror ↔
      finalStatus ≠ snmpErrNoerror ∨ status ≠ snmpErrNoerror ∨ replied ≠ snmpErrNoerror := by
  grind

theorem handleVarRequestsLoop_spec (handlers : Handlers) (asp : SetSession) (i : Nat)
    (finalStatus : Int) (entries : List TreeCache) : ∃ finalStatus' entries' index status errors,
      handleVarRequestsLoop handlers asp i finalStatus entries = (finalStatus', entries',
        { asp with
          index, status
          calls := asp.calls ++ calledEntries asp.mode i (entries.map TreeCache.canSet)
          errors := asp.errors ++ errors }) ∧
      entries'.map TreeCache.canSet = entries.map TreeCache.canSet ∧
      Reported asp.mode (allRequests entries) (allRequests entries') errors ∧
      (index = asp.index ∨ ErrorAt (allRequests entries') index) ∧
      (asp.status ≠ snmpErrNoerror → status ≠ snmpErrNoerror) ∧
      ((asp.status = snmpErrNoerror → asp.index = 0) → ¬ HasError (allRequests entries) →
        (status = snmpErrNoerror → index = 0) ∧
        (status ≠ snmpErrNoerror ∨ finalStatus' ≠ snmpErrNoerror ↔
          asp.status ≠ snmpErrNoerror ∨ finalStatus ≠ snmpErrNoerror ∨
            ∃ error ∈ errors, error.IsFound (lookForSpecific asp.mode))) := by
  induction entries generalizing asp i finalStatus with
  | nil =>
      refine ⟨finalStatus, [], asp.index, asp.status, [], ?_, rfl, .nil, .inl rfl, id, ?_⟩
      · simp [handleVarRequestsLoop, calledEntries]
      · intro clean _
        exact ⟨clean, by simp⟩
  | cons entry rest ih =>
      rcases asp.netsnmpCallHandlers_spec handlers i entry with
        ⟨replied, entry', errors, called, canSet_eq, reported, returned⟩
      let called' : SetSession :=
        { asp with
          calls := asp.calls ++ calledEntries asp.mode i [entry.canSet]
          errors := asp.errors ++ errors }
      let specific := lookForSpecific asp.mode
      rcases called'.netsnmpCheckRequestsStatus_eq specific entry'.requests with
        ⟨index, status, checked⟩
      have found := @netsnmpCheckRequestsStatus_status called' specific entry'.requests
      have foundIndex := @netsnmpCheckRequestsStatus_index called' specific entry'.requests
      rw [checked] at found foundIndex
      rcases ih { called' with index, status } (i + 1)
          (if finalStatus = snmpErrNoerror ∧
              (if status ≠ snmpErrNoerror then status else replied) ≠ snmpErrNoerror then
            (if status ≠ snmpErrNoerror then status else replied) else finalStatus) with
        ⟨finalStatus', entries', index', status', errors', looped, canSets, reported', indices,
          kept, founds⟩
      refine ⟨finalStatus', entry' :: entries', index', status', errors ++ errors', ?_, ?_,
        reported.append reported', ?_, ?_, ?_⟩
      · rw [handleVarRequestsLoop, called]
        dsimp only
        rw [show SetSession.netsnmpCheckRequestsStatus _ (lookForSpecific asp.mode)
          entry'.requests =
          _ from checked]
        dsimp only
        rw [looped]
        cases canSet : entry.canSet with
        | true => simp [called', calledEntries, canSet]
        | false => simp [called', calledEntries, canSet]
      · rw [List.map_cons, List.map_cons, canSet_eq, canSets]
      · rcases indices with same | errorAt
        · rcases foundIndex with old | ⟨request, mem, isError⟩
          · exact .inl (same.trans old)
          · right
            rw [same]
            exact ⟨request, List.mem_append_left _ mem, isError⟩
        · rcases errorAt with ⟨request, mem, isError⟩
          exact .inr ⟨request, List.mem_append_right _ mem, isError⟩
      · intro old
        exact kept (found.mpr (.inl old))
      · intro clean noError
        have noErrorFirst : ¬ HasError entry.requests := by
          rintro ⟨request, mem, isError⟩
          exact noError ⟨request, List.mem_append_left _ mem, isError⟩
        have noErrorRest : ¬ HasError (allRequests rest) := by
          rintro ⟨request, mem, isError⟩
          exact noError ⟨request, List.mem_append_right _ mem, isError⟩
        have firstClean := @netsnmpCheckRequestsStatus_clean called' specific entry'.requests clean
        have first := @netsnmpCheckRequestsStatus_reported called' _ specific _ _ _ reported
          clean noErrorFirst
        rw [checked] at firstClean first
        rcases founds firstClean noErrorRest with ⟨clean', found'⟩
        refine ⟨clean', found'.trans ?_⟩
        rw [mergedStatus_ne, first, returned]
        constructor
        · rintro ((old | ⟨error, mem, -, isSpecific⟩) | (old | (old | ⟨error, mem, -, isSpecific⟩) |
            ⟨error, mem, isReturned⟩) | ⟨error, mem, isFound⟩)
          · exact .inl old
          · exact .inr (.inr ⟨error, List.mem_append_left _ mem, isSpecific.imp_right .inr⟩)
          · exact .inr (.inl old)
          · exact .inl old
          · exact .inr (.inr ⟨error, List.mem_append_left _ mem, isSpecific.imp_right .inr⟩)
          · exact .inr (.inr ⟨error, List.mem_append_left _ mem, .inr (.inl isReturned)⟩)
          · exact .inr (.inr ⟨error, List.mem_append_right _ mem, isFound⟩)
        · rintro (old | old | ⟨error, mem, isFound⟩)
          · exact .inl (.inl old)
          · exact .inr (.inl (.inl old))
          · rcases List.mem_append.mp mem with mem | mem
            · cases isReturned : error.returned with
              | true => exact .inr (.inl (.inr (.inr ⟨error, mem, isReturned⟩)))
              | false =>
                  left
                  right
                  refine ⟨error, mem, isReturned, isFound.imp_right fun isFound => ?_⟩
                  exact isFound.resolve_left (by simp [isReturned])
            · exact .inr (.inr ⟨error, mem, isFound⟩)

end SetSession

end NetSnmp
