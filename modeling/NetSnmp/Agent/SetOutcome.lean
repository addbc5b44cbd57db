import NetSnmp.Agent.SetRuns

/-!
# The outcome of a SET request

All handlers of a SET request are called in the same modes, in one of four sequences,
and the response is an error when one was reported.
-/

namespace NetSnmp

namespace SetSession

variable {handlers : Handlers} {asp : SetSession} {modes : List AgentMode}

theorem netsnmpCheckRequestsStatus_append (asp : SetSession) (specific : Int)
    (requests others : List RequestInfo) :
    asp.netsnmpCheckRequestsStatus specific (requests ++ others) =
      (asp.netsnmpCheckRequestsStatus specific requests).netsnmpCheckRequestsStatus specific
        others := by
  induction requests generalizing asp with
  | nil => rfl
  | cons request rest ih =>
      rw [List.cons_append, netsnmpCheckRequestsStatus, netsnmpCheckRequestsStatus]
      split
      · exact ih _
      · exact ih asp

theorem netsnmpCheckAllRequestsStatus_eq (asp : SetSession) (specific : Int) :
    asp.netsnmpCheckAllRequestsStatus specific =
      asp.netsnmpCheckRequestsStatus specific (allRequests asp.treecache) := by
  have folded (entries : List TreeCache) (asp : SetSession) :
      entries.foldl (fun asp entry => asp.netsnmpCheckRequestsStatus specific entry.requests) asp =
        asp.netsnmpCheckRequestsStatus specific (allRequests entries) := by
    induction entries generalizing asp with
    | nil => rfl
    | cons entry rest ih =>
        rw [List.foldl_cons, ih, ← netsnmpCheckRequestsStatus_append]
        rfl
  exact folded asp.treecache asp

theorem WentThrough.checked (went : asp.WentThrough modes) (specific : Int) :
    ∃ index status, asp.netsnmpCheckAllRequestsStatus specific = { asp with index, status } ∧
      { asp with index, status }.WentThrough modes ∧
      (status ≠ snmpErrNoerror ↔ asp.status ≠ snmpErrNoerror ∨
        ∃ request ∈ allRequests asp.treecache, request.status ≠ snmpErrNoerror ∧
          (specific = 0 ∨ request.status = specific) ∧
            (specific ≠ 0 ∨ asp.index = 0 ∨ request.index ≤ asp.index)) := by
  rw [netsnmpCheckAllRequestsStatus_eq]
  rcases asp.netsnmpCheckRequestsStatus_eq specific (allRequests asp.treecache) with
    ⟨index, status, checked⟩
  have found := @netsnmpCheckRequestsStatus_status asp specific (allRequests asp.treecache)
  have indices := @netsnmpCheckRequestsStatus_index asp specific (allRequests asp.treecache)
  rw [checked] at found indices ⊢
  refine ⟨index, status, rfl, ⟨went.onePass, went.calls, ?_, went.marked, went.reported,
    went.inOrder, went.waited⟩, found⟩
  intro nonzero
  rcases indices with same | errorAt
  · dsimp only at same nonzero ⊢
    rw [same] at nonzero ⊢
    exact went.indexed nonzero
  · exact errorAt

theorem Settled.checked (settled : asp.Settled modes)
    (noted : HasError (allRequests asp.treecache) → asp.status ≠ snmpErrNoerror) (specific : Int) :
    (asp.netsnmpCheckAllRequestsStatus specific).Settled modes := by
  rcases settled.toWentThrough.checked specific with ⟨index, status, checked, went, found⟩
  have same : status ≠ snmpErrNoerror ↔ asp.status ≠ snmpErrNoerror := by
    rw [found]
    refine ⟨?_, .inl⟩
    rintro (old | ⟨request, mem, isError, -⟩)
    · exact old
    · exact noted ⟨request, mem, isError⟩
  rw [checked]
  refine ⟨went, settled.traced, same.trans settled.status, ?_, ?_, ?_⟩
  · intro _ noErrors
    by_contra nonzero
    exact went.reported (hasError_iff.mpr ⟨_, went.indexed nonzero⟩) noErrors
  · exact fun failing => same.mpr (settled.failing failing)
  · intro successful
    by_contra isError
    exact same.mp isError (settled.successful successful)

theorem Traced.commit_mem {mode : AgentMode} (traced : Traced mode modes)
    (unfinished : mode ≠ .finishedSuccess ∧ mode ≠ .finishedFailure) (mem : .setCommit ∈ modes) :
    mode = .setCommit := by
  rcases unfinished with ⟨notSuccess, notFailure⟩
  cases traced with
  | commit => rfl
  | committed => exact absurd rfl notSuccess
  | commitFailed | freed1 | freed2 | undone => exact absurd rfl notFailure
  | reserve1 | reserve2 | action | free1 | free2 | undo => exact absurd mem (by decide)

theorem isFinished_eq_false_iff : asp.isFinished = false ↔
    asp.mode ≠ .finishedSuccess ∧ asp.mode ≠ .finishedFailure := by
  simp [isFinished]

theorem Waiting.checked (waiting : asp.Waiting modes) :
    (asp.netsnmpCheckAllRequestsStatus 0).Settled modes ∧
      ((asp.netsnmpCheckAllRequestsStatus 0).status ≠ snmpErrNoerror ↔ asp.errors ≠ []) := by
  rcases waiting.toWentThrough.checked 0 with ⟨index, status, checked, went, found⟩
  have noted : status ≠ snmpErrNoerror ↔ asp.errors ≠ [] := by
    rw [found, ← waiting.status]
    apply or_congr_right
    constructor
    · rintro ⟨request, mem, isError, -⟩
      exact ⟨request, mem, isError⟩
    · rintro ⟨request, mem, isError⟩
      -- The request of the index has an error, and is not behind itself.
      by_cases indexZero : asp.index = 0
      · exact ⟨request, mem, isError, .inl rfl, .inr (.inl indexZero)⟩
      · rcases waiting.indexed indexZero with ⟨indexed, indexedMem, same, indexedError⟩
        exact ⟨indexed, indexedMem, indexedError, .inl rfl, .inr (.inr (le_of_eq same))⟩
  have counts (error : HandlerError) (mem : error ∈ asp.errors) : asp.Counts error := by
    by_cases committed : error.mode = .setCommit
    · have mode_eq := Traced.commit_mem waiting.traced
        (isFinished_eq_false_iff.mp waiting.unfinished)
        (committed ▸ waiting.inOrder.inModes error mem)
      exact .inr (.inr (.inr (waiting.commit mode_eq)))
    · exact .inl committed
  rw [checked]
  refine ⟨⟨went, waiting.traced, noted.trans ?_, ?_, ?_, ?_⟩, noted⟩
  · constructor
    · intro errors
      rcases List.exists_mem_of_ne_nil _ errors with ⟨error, mem⟩
      exact ⟨error, mem, counts error mem⟩
    · rintro ⟨error, mem, -⟩ noErrors
      dsimp only at mem
      rw [noErrors] at mem
      cases mem
  · intro _ noErrors
    by_contra nonzero
    exact went.reported (hasError_iff.mpr ⟨_, went.indexed nonzero⟩) noErrors
  · rintro (mode_eq | mode_eq | mode_eq)
    · exact noted.mpr (waiting.failing (.inl mode_eq))
    · exact noted.mpr (waiting.failing (.inr mode_eq))
    · exact absurd mode_eq (isFinished_eq_false_iff.mp waiting.unfinished).2
  · intro mode_eq
    exact absurd mode_eq (isFinished_eq_false_iff.mp waiting.unfinished).1

theorem Settled.delegate {status : Int} (settled : asp.Settled modes)
    (unfinished : asp.isFinished = false)
    (kept : asp.errors ≠ [] → status ≠ snmpErrNoerror ∨ HasError (allRequests asp.treecache))
    (noNew : status ≠ snmpErrNoerror → asp.status ≠ snmpErrNoerror) :
    { asp with status, waits := asp.waits ++ [asp.mode] }.Waiting modes := by
  have current : asp.mode ∈ modes := by
    have traced := settled.traced
    rcases isFinished_eq_false_iff.mp unfinished with ⟨notSuccess, notFailure⟩
    generalize asp.mode = mode at traced notSuccess notFailure
    cases traced with
    | committed => exact absurd rfl notSuccess
    | commitFailed | freed1 | freed2 | undone => exact absurd rfl notFailure
    | reserve1 | reserve2 | action | commit | free1 | free2 | undo => decide
  have errors_of_status (isError : asp.status ≠ snmpErrNoerror) : asp.errors ≠ [] := by
    intro noErrors
    rcases settled.status.mp isError with ⟨error, mem, -⟩
    rw [noErrors] at mem
    cases mem
  refine ⟨⟨settled.onePass, settled.calls, settled.indexed, settled.marked, settled.reported,
    settled.inOrder, ?_⟩, settled.traced, unfinished, ⟨?_, kept⟩, ?_, ?_⟩
  · intro mode mem
    rcases List.mem_append.mp mem with mem | mem
    · exact settled.waited mode mem
    · rw [List.mem_singleton.mp mem]
      exact current
  · rintro (isError | hasError)
    · exact errors_of_status (noNew isError)
    · exact settled.reported hasError
  · intro failing
    exact errors_of_status (settled.failing (failing.imp_right .inl))
  · intro mode_eq
    dsimp only at mode_eq ⊢
    rw [mode_eq]
    exact List.mem_append_right _ (List.mem_singleton_self _)

theorem Waiting.of_reported {asp' : SetSession} {errors : List HandlerError}
    (waiting : asp.Waiting modes) (mode_eq : asp'.mode = asp.mode)
    (status_eq : asp'.status = asp.status) (index_eq : asp'.index = asp.index)
    (onePass_eq : asp'.onePassOnly = asp.onePassOnly) (canSets_eq : asp'.canSets = asp.canSets)
    (calls_eq : asp'.calls = asp.calls) (waits_eq : asp'.waits = asp.waits)
    (errors_eq : asp'.errors = asp.errors ++ errors)
    (reported : Reported asp.mode (allRequests asp.treecache) (allRequests asp'.treecache) errors)
    (onRequests : ∀ error ∈ errors, error.returned = false) : asp'.Waiting modes := by
  have unfinished := isFinished_eq_false_iff.mp waiting.unfinished
  have went : asp'.WentThrough modes := by
    apply waiting.toWentThrough.of_reported waiting.traced unfinished waiting.inOrder
      (fun _ mem => mem) onePass_eq _ errors_eq reported (.inl index_eq) waits_eq
    rw [calls_eq, canSets_eq]
    exact waiting.calls
  refine ⟨went, mode_eq ▸ waiting.traced, ?_, ⟨?_, ?_⟩, ?_, ?_⟩
  · rw [isFinished_eq_false_iff, mode_eq]
    exact unfinished
  · rintro (isError | hasError)
    · rw [errors_eq]
      rw [status_eq] at isError
      exact List.append_ne_nil_of_left_ne_nil (waiting.status.mp (.inl isError)) _
    · exact went.reported hasError
  · intro someError
    rw [errors_eq] at someError
    by_cases old : asp.errors = []
    · rw [old, List.nil_append] at someError
      rcases List.exists_mem_of_ne_nil _ someError with ⟨error, mem⟩
      exact .inr (went.marked error (errors_eq ▸ List.mem_append_right _ mem)
        (onRequests error mem))
    · rcases waiting.status.mpr old with isError | hasError
      · exact .inl (status_eq ▸ isError)
      · exact .inr (reported.hasError hasError)
  · intro failing
    rw [mode_eq] at failing
    rw [errors_eq]
    exact List.append_ne_nil_of_left_ne_nil (waiting.failing failing) _
  · intro committing
    rw [waits_eq]
    exact waiting.commit (mode_eq ▸ committing)

theorem allRequests_mapRequests (entries : List TreeCache) (f : RequestInfo → RequestInfo) :
    allRequests (entries.map fun entry => entry.mapRequests f) = (allRequests entries).map f := by
  induction entries with
  | nil => rfl
  | cons entry rest ih =>
      rw [allRequests, allRequests, List.map_cons, List.flatMap_cons, List.flatMap_cons,
        List.map_append]
      exact congrArg (_ ++ ·) ih

def IsDelegated (asp : SetSession) (index : Nat) : Prop :=
  ∃ request ∈ allRequests asp.treecache, request.index = index ∧ request.delegated = true

theorem requestDone_reported {index : Nat} (isDelegated : asp.IsDelegated index)
    (outcome : Option ErrorStatus) :
    Reported asp.mode (allRequests asp.treecache)
      (allRequests (asp.requestDone index outcome).treecache)
      (outcome.map fun status => HandlerError.mk asp.mode status.val false).toList := by
  have done_eq : allRequests (asp.requestDone index outcome).treecache =
      (allRequests asp.treecache).map _ := allRequests_mapRequests _ _
  rw [done_eq]
  rcases isDelegated with ⟨delegated, delegatedMem, here⟩
  cases outcome with
  | none =>
      refine ⟨?_, by simp, by simp, ?_⟩
      · rintro other ⟨request, mem, rfl, isError⟩
        refine ⟨_, List.mem_map_of_mem mem, ?_⟩
        split <;> exact ⟨rfl, isError⟩
      · intro request mem isError
        rcases List.mem_map.mp mem with ⟨old, oldMem, rfl⟩
        refine .inl ⟨old, oldMem, ?_⟩
        split at isError <;> exact isError
  | some status =>
      refine ⟨?_, ?_, ?_, ?_⟩
      · rintro other ⟨request, mem, rfl, isError⟩
        refine ⟨_, List.mem_map_of_mem mem, ?_⟩
        split
        · exact ⟨rfl, status.property⟩
        · exact ⟨rfl, isError⟩
      · intro error mem
        rw [List.mem_singleton.mp mem]
        exact ⟨rfl, status.property⟩
      · intro error mem _
        rw [List.mem_singleton.mp mem]
        refine ⟨_, List.mem_map_of_mem delegatedMem, ?_⟩
        rw [if_pos here]
        rfl
      · intro request mem isError
        rcases List.mem_map.mp mem with ⟨old, oldMem, rfl⟩
        split
        · exact .inr ⟨_, List.mem_singleton_self _, rfl, rfl⟩
        · rename_i notHere
          rw [if_neg notHere] at isError
          exact .inl ⟨old, oldMem, isError⟩

theorem Waiting.requestDone (waiting : asp.Waiting modes) {index : Nat}
    (isDelegated : asp.IsDelegated index) (outcome : Option ErrorStatus) :
    (asp.requestDone index outcome).Waiting modes := by
  refine waiting.of_reported rfl rfl rfl rfl ?_ rfl rfl rfl
    (requestDone_reported isDelegated outcome) ?_
  · rw [canSets, SetSession.requestDone, List.map_map]
    rfl
  · intro error mem
    rcases Option.mem_toList.mp mem with reported
    rcases Option.map_eq_some_iff.mp reported with ⟨status, -, rfl⟩
    rfl

theorem sessionClosed_reported (session : Nat) (mode : AgentMode) (entries : List TreeCache) :
    Reported mode (allRequests entries)
      (allRequests (entries.map fun entry =>
        if entry.session = session then entry.report sessionClosedReport else entry))
      (entries.flatMap fun entry =>
        if entry.session = session then entry.errors mode sessionClosedReport else []) := by
  induction entries with
  | nil => exact .nil
  | cons entry rest ih =>
      rw [List.flatMap_cons, List.map_cons]
      refine Reported.append ?_ ih
      split
      · exact reported_report entry mode sessionClosedReport
      · exact .refl

theorem Waiting.sessionClosed (waiting : asp.Waiting modes) (session : Nat) :
    (asp.sessionClosed session).Waiting modes := by
  refine waiting.of_reported rfl rfl rfl rfl ?_ rfl rfl rfl
    (sessionClosed_reported session asp.mode asp.treecache) ?_
  · rw [canSets, SetSession.sessionClosed, List.map_map]
    apply List.map_congr_left
    intro entry _
    rw [Function.comp_apply]
    split <;> rfl
  · intro error mem
    rcases List.mem_flatMap.mp mem with ⟨entry, -, mem⟩
    split at mem
    · rcases List.mem_filterMap.mp mem with ⟨request, -, reported⟩
      rcases Option.map_eq_some_iff.mp reported with ⟨status, -, rfl⟩
      rfl
    · cases mem

end SetSession

end NetSnmp
