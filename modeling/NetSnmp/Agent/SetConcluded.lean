import NetSnmp.Agent.SetOutcome

/-!
# Every run of a SET request

From the request that is received, through its delegated requests that are done in any
order, to the response.
-/

namespace NetSnmp

namespace SetSession

variable {handlers : Handlers} {asp : SetSession} {modes : List AgentMode}

def callsOf (asp : SetSession) (i : Nat) : List AgentMode :=
  asp.calls.filterMap fun call => if call.1 = i then some call.2 else none

theorem filterMap_calledEntries (mode : AgentMode) (i j : Nat) (canSets : List Bool) :
    ((calledEntries mode j canSets).filterMap fun call => if call.1 =
      i then some call.2 else none) =
      if j ≤ i ∧ canSets[i - j]? = some true then [mode] else [] := by
  induction canSets generalizing j with
  | nil => simp [calledEntries]
  | cons canSet rest ih =>
      have later : (if j + 1 ≤ i ∧ rest[i - (j + 1)]? = some true then [mode] else []) =
          if j < i ∧ (canSet :: rest)[i - j]? = some true then [mode] else [] := by
        by_cases lt : j < i
        · rw [show i - j = i - (j + 1) + 1 by omega, List.getElem?_cons_succ]
          rfl
        · rw [if_neg (fun both => lt both.1), if_neg (fun both => lt both.1)]
      cases canSet with
      | true =>
          rw [calledEntries, List.filterMap_cons, ih, later]
          by_cases here : j = i
          · subst here
            simp
          · have lt_iff : j ≤ i ↔ j < i := by omega
            simp [here, lt_iff]
      | false =>
          rw [calledEntries, ih, later]
          by_cases here : j = i
          · subst here
            simp
          · have lt_iff : j ≤ i ↔ j < i := by omega
            simp [lt_iff]

theorem WentThrough.callsOf_eq (went : asp.WentThrough modes) {i : Nat}
    (canSet : asp.canSets[i]? = some true) : asp.callsOf i = modes := by
  rw [callsOf, went.calls, List.filterMap_flatMap]
  have each (mode : AgentMode) : ((calledEntries mode 0 asp.canSets).filterMap fun call =>
      if call.1 = i then some call.2 else none) = [mode] := by
    rw [filterMap_calledEntries, if_pos ⟨Nat.zero_le i, canSet⟩]
  simp only [each]
  exact List.flatMap_singleton' modes

theorem handleSet_canSets (handlers : Handlers) (asp : SetSession) :
    (asp.handleSet handlers).canSets = asp.canSets := by
  have entered : asp.enterMode.canSets = asp.canSets := by
    rw [enterMode]
    split
    · rfl
    · rw [nextMode]
      split <;> rfl
  rw [handleSet]
  split
  · exact entered
  · rcases doMode_spec handlers asp.enterMode with ⟨_, _, _, _, done, canSets_eq, -⟩
    rw [done]
    exact canSets_eq.trans entered

theorem handleSetLoop_canSets (handlers : Handlers) (asp : SetSession) :
    (handleSetLoop handlers asp).2.canSets = asp.canSets := by
  induction asp using handleSetLoop.induct handlers with
  | case1 asp finished => rw [handleSetLoop, if_pos finished]
  | case2 asp unfinished delegated =>
      rw [handleSetLoop, if_neg unfinished, if_pos delegated]
      exact handleSet_canSets handlers asp
  | case3 asp unfinished done onePass =>
      rw [handleSetLoop, if_neg unfinished, if_neg done, if_pos onePass]
      exact handleSet_canSets handlers asp
  | case4 asp unfinished done onePass ih =>
      rw [handleSetLoop, if_neg unfinished, if_neg done, if_neg onePass, ih]
      exact handleSet_canSets handlers asp

theorem netsnmpCheckAllRequestsStatus_frame (asp : SetSession) (specific : Int) :
    (asp.netsnmpCheckAllRequestsStatus specific).canSets = asp.canSets ∧
      (asp.netsnmpCheckAllRequestsStatus specific).mode = asp.mode ∧
      (asp.netsnmpCheckAllRequestsStatus specific).onePassOnly = asp.onePassOnly ∧
      (asp.netsnmpCheckAllRequestsStatus specific).netsnmpCheckForDelegated =
        asp.netsnmpCheckForDelegated := by
  rw [netsnmpCheckAllRequestsStatus_eq]
  rcases asp.netsnmpCheckRequestsStatus_eq specific (allRequests asp.treecache) with ⟨_, _, checked⟩
  rw [checked]
  exact ⟨rfl, rfl, rfl, rfl⟩

/-- A session as `init_agent_snmp_session` and `netsnmp_create_subtree_cache` leave it. -/
structure Fresh (asp : SetSession) : Prop where
  onePass : asp.onePassOnly = false
  cancel : asp.cancelInProgress = false
  index : asp.index = 0
  requests : ∀ request ∈ allRequests asp.treecache,
    request.status = snmpErrNoerror ∧ request.delegated = false
  calls : asp.calls = []
  errors : asp.errors = []
  waits : asp.waits = []

theorem Fresh.handleSetLoop (handlers : Handlers) (fresh : asp.Fresh) :
    (handleSetLoop handlers { asp with mode := .setBegin }).2.Looped
        (SetSession.handleSetLoop handlers { asp with mode := .setBegin }).1 ∧
      rank (SetSession.handleSetLoop handlers { asp with mode := .setBegin }).2.mode < 5 := by
  have notDelegated : asp.netsnmpCheckForDelegated = false := by
    rw [netsnmpCheckForDelegated, Bool.and_eq_false_iff]
    right
    rw [List.any_eq_false]
    intro entry entryMem
    rw [Bool.not_eq_true, List.any_eq_false]
    intro request mem
    rw [(fresh.requests request (List.mem_flatMap.mpr ⟨entry, entryMem, mem⟩)).2]
    exact Bool.false_ne_true
  have noError : ¬ HasError (allRequests asp.treecache) := by
    rintro ⟨request, mem, isError⟩
    exact isError (fresh.requests request mem).1
  have went : { asp with mode := .setReserve1, status := snmpErrNoerror }.WentThrough [] :=
    ⟨fresh.onePass, fresh.calls, fun nonzero => absurd fresh.index nonzero,
      fun error mem => absurd mem (fresh.errors ▸ List.not_mem_nil),
      fun hasError => absurd hasError noError,
      ⟨fun error mem => absurd mem (fresh.errors ▸ List.not_mem_nil), by simp, by simp⟩,
      fun mode mem => absurd mem (fresh.waits ▸ List.not_mem_nil)⟩
  have settled : ({ asp with mode := .setReserve1, status := snmpErrNoerror }.doMode
      handlers).Settled [.setReserve1] :=
    went.forward fresh.errors rfl fresh.index (fresh.waits ▸ List.not_mem_nil) .reserve1 (.inl rfl)
  have first : { asp with mode := .setBegin }.handleSet handlers =
      { asp with mode := .setReserve1, status := snmpErrNoerror }.doMode handlers := by
    have entered : { asp with mode := .setBegin }.enterMode =
        { asp with mode := .setReserve1, status := snmpErrNoerror } := by
      rw [enterMode, fresh.onePass]
      rfl
    rw [handleSet, entered]
    rfl
  rw [← first] at settled
  have unfinished : ({ asp with mode := .setBegin }.handleSet handlers).isFinished = false := by
    rw [isFinished, first, (doMode_mode handlers _).1]
    rfl
  exact handleSetLoop_looped rfl notDelegated fresh.onePass settled
    (fun finished => absurd finished (by rw [unfinished]; exact Bool.false_ne_true))

end SetSession

open SetSession

def SetState.Good (s : SetState) : Prop :=
  match s.place with
  | .delegated => ∃ modes, s.asp.Waiting modes
  | .wrappedUp => s.asp.isFinished = true ∧ ∃ modes, s.asp.Settled modes
  | .dropped => False

variable {handlers : Handlers} {asp : SetSession} {modes : List AgentMode}

theorem wrapUp_eq {status : Int} (same : status = asp.status ∨ status = snmpErrNoerror) :
    asp.netsnmpWrapUpRequest status = ⟨asp, .wrappedUp⟩ := by
  rw [netsnmpWrapUpRequest, if_neg]
  rintro ⟨isError, noError⟩
  rcases same with same | same
  · exact isError (same.trans noError)
  · exact isError same

/-- If a request waits for others, an error was not only returned by handlers. -/
def SetState.ErrorsMarked (s : SetState) : Prop :=
  s.place = .delegated → s.asp.errors ≠ [] → ∃ error ∈ s.asp.errors, error.returned = false

theorem received_good (fresh : asp.Fresh)
    (marked : (asp.netsnmpHandleRequest handlers).ErrorsMarked) :
    (asp.netsnmpHandleRequest handlers).Good ∧
      rank (asp.netsnmpHandleRequest handlers).asp.mode < 5 := by
  rcases fresh.handleSetLoop handlers with ⟨⟨⟨modes, settled⟩, ended⟩, rank_lt⟩
  rw [netsnmpHandleRequest] at marked ⊢
  dsimp only at marked ⊢
  generalize handleSetLoop handlers { asp with mode := .setBegin } = looped at *
  rcases looped with ⟨status, asp'⟩
  dsimp only at *
  rcases ended with ⟨finished, notDelegated, rfl⟩ | ⟨unfinished, delegated, rfl⟩
  · rw [if_neg (by rw [notDelegated]; exact Bool.false_ne_true), wrapUp_eq (.inl rfl)]
    exact ⟨⟨finished, modes, settled⟩, rank_lt⟩
  · rw [if_pos delegated] at marked ⊢
    refine ⟨⟨modes, settled.delegate unfinished ?_ ?_⟩, rank_lt⟩
    · intro errors
      rcases marked rfl errors with ⟨error, mem, onRequest⟩
      exact .inr (settled.marked error mem onRequest)
    · intro absurdity
      exact absurd rfl absurdity

theorem checkSpecific_settled (settled : asp.Settled modes)
    (noted : HasError (allRequests asp.treecache) → asp.status ≠ snmpErrNoerror) :
    asp.checkSpecific.Settled modes := by
  rw [checkSpecific]
  split
  · exact settled.checked noted _
  · exact settled.checked noted _
  · exact settled

theorem checkSpecific_frame (asp : SetSession) :
    asp.checkSpecific.canSets = asp.canSets ∧ asp.checkSpecific.mode = asp.mode ∧
      asp.checkSpecific.netsnmpCheckForDelegated = asp.netsnmpCheckForDelegated := by
  rw [checkSpecific]
  split
  · rcases asp.netsnmpCheckAllRequestsStatus_frame snmpErrCommitfailed with
      ⟨canSets_eq, mode_eq, -, delegated_eq⟩
    exact ⟨canSets_eq, mode_eq, delegated_eq⟩
  · rcases asp.netsnmpCheckAllRequestsStatus_frame snmpErrUndofailed with
      ⟨canSets_eq, mode_eq, -, delegated_eq⟩
    exact ⟨canSets_eq, mode_eq, delegated_eq⟩
  · exact ⟨rfl, rfl, rfl⟩

theorem resumed_good (handlers : Handlers) (waiting : asp.Waiting modes)
    (ready : asp.netsnmpCheckForDelegated = false) :
    (netsnmpCheckDelegatedRequest handlers asp).Good ∧
      rank (netsnmpCheckDelegatedRequest handlers asp).asp.mode < rank asp.mode := by
  rcases waiting.checked with ⟨settled, noted⟩
  rcases asp.netsnmpCheckAllRequestsStatus_frame 0 with ⟨-, mode_eq, -, delegated_eq⟩
  have unfinished := waiting.unfinished
  rw [netsnmpCheckDelegatedRequest, if_neg (by rw [ready]; exact Bool.false_ne_true),
    checkDelayedRequest]
  dsimp only
  have settledAgain := checkSpecific_settled settled fun hasError => noted.mpr <| by
    intro noErrors
    rcases asp.netsnmpCheckRequestsStatus_eq 0 (allRequests asp.treecache) with ⟨_, _, checked⟩
    have same := netsnmpCheckAllRequestsStatus_eq asp 0
    rw [checked] at same
    rw [same] at hasError
    exact waiting.reported hasError noErrors
  rcases checkSpecific_frame (asp.netsnmpCheckAllRequestsStatus 0) with
    ⟨-, mode_eq', delegated_eq'⟩
  generalize (asp.netsnmpCheckAllRequestsStatus 0).checkSpecific = again at *
  have againUnfinished : again.isFinished = false := by
    rw [isFinished, mode_eq', mode_eq]
    exact unfinished
  rw [againUnfinished, settledAgain.onePass, Bool.or_false, if_neg Bool.false_ne_true]
  rcases settledAgain.handleSetLoop handlers againUnfinished
    (delegated_eq'.trans (delegated_eq.trans ready)) with ⟨⟨⟨modes', settled'⟩, ended⟩, rank_lt⟩
  rw [mode_eq', mode_eq] at rank_lt
  generalize handleSetLoop handlers again = looped at *
  rcases looped with ⟨status, asp'⟩
  dsimp only at *
  rcases ended with ⟨finished, notDelegated, -⟩ | ⟨unfinished', delegated, -⟩
  · rw [finished, notDelegated, wrapUp_eq (.inr rfl)]
    exact ⟨⟨finished, modes', settled'⟩, rank_lt⟩
  · rw [unfinished', delegated]
    refine ⟨⟨modes', settled'.delegate unfinished' ?_ id⟩, rank_lt⟩
    intro errors
    rcases List.exists_mem_of_ne_nil _ errors with ⟨error, mem⟩
    cases onRequest : error.returned with
    | true => exact .inl (settled'.status.mpr ⟨error, mem, .inr (.inl onRequest)⟩)
    | false => exact .inr (settled'.marked error mem onRequest)

/-- A request is received, and then its delegated requests are done in any order; the number is that
of the times that it was taken up again. -/
inductive SetRun (handlers : Handlers) (asp : SetSession) : Nat → SetState → Prop
  | received : SetRun handlers asp 0 (asp.netsnmpHandleRequest handlers)
  | requestDone {n : Nat} {s : SetState} (run : SetRun handlers asp n s)
      (waits : s.place = .delegated) (index : Nat) (isDelegated : s.asp.IsDelegated index)
      (outcome : Option ErrorStatus) :
      SetRun handlers asp n ⟨s.asp.requestDone index outcome, .delegated⟩
  | sessionClosed {n : Nat} {s : SetState} (run : SetRun handlers asp n s)
      (waits : s.place = .delegated) (session : Nat) :
      SetRun handlers asp n ⟨s.asp.sessionClosed session, .delegated⟩
  | resumed {n : Nat} {s : SetState} (run : SetRun handlers asp n s)
      (waits : s.place = .delegated) (ready : s.asp.netsnmpCheckForDelegated = false) :
      SetRun handlers asp (n + 1) (netsnmpCheckDelegatedRequest handlers s.asp)

theorem Good.waiting {s : SetState} (good : s.Good) (waits : s.place = .delegated) :
    ∃ modes, s.asp.Waiting modes := by
  rw [SetState.Good, waits] at good
  exact good

theorem run_good {n : Nat} {s : SetState} (fresh : asp.Fresh)
    (marked : (asp.netsnmpHandleRequest handlers).ErrorsMarked) (run : SetRun handlers asp n s) :
    s.Good ∧ n + rank s.asp.mode < 5 := by
  induction run with
  | received =>
      rw [Nat.zero_add]
      exact received_good fresh marked
  | requestDone run waits index isDelegated outcome ih =>
      rcases Good.waiting ih.1 waits with ⟨modes, waiting⟩
      exact ⟨⟨modes, waiting.requestDone isDelegated outcome⟩, ih.2⟩
  | sessionClosed run waits session ih =>
      rcases Good.waiting ih.1 waits with ⟨modes, waiting⟩
      exact ⟨⟨modes, waiting.sessionClosed session⟩, ih.2⟩
  | resumed run waits ready ih =>
      rcases Good.waiting ih.1 waits with ⟨modes, waiting⟩
      rcases resumed_good handlers waiting ready with ⟨good, rank_lt⟩
      refine ⟨good, ?_⟩
      have := ih.2
      omega

theorem run_canSets {n : Nat} {s : SetState} (run : SetRun handlers asp n s) :
    s.asp.canSets = asp.canSets := by
  induction run with
  | received =>
      have looped := handleSetLoop_canSets handlers { asp with mode := .setBegin }
      rw [netsnmpHandleRequest]
      dsimp only
      split
      · exact looped
      · rw [netsnmpWrapUpRequest]
        split <;> exact looped
  | requestDone run waits index isDelegated outcome ih =>
      refine Eq.trans ?_ ih
      rw [canSets, requestDone, List.map_map]
      rfl
  | sessionClosed run waits session ih =>
      refine Eq.trans ?_ ih
      rw [canSets, sessionClosed, List.map_map]
      apply List.map_congr_left
      intro entry _
      rw [Function.comp_apply]
      split <;> rfl
  | @resumed _ s run waits ready ih =>
      refine Eq.trans ?_ ih
      have again : (s.asp.netsnmpCheckAllRequestsStatus 0).checkSpecific.canSets = s.asp.canSets :=
        (checkSpecific_frame _).1.trans (s.asp.netsnmpCheckAllRequestsStatus_frame 0).1
      have looped := (handleSetLoop_canSets handlers
        (s.asp.netsnmpCheckAllRequestsStatus 0).checkSpecific).trans again
      rw [netsnmpCheckDelegatedRequest, if_neg (by rw [ready]; exact Bool.false_ne_true),
        checkDelayedRequest]
      dsimp only
      split
      · split
        · exact again
        · rw [netsnmpWrapUpRequest]
          split <;> exact again
      · split
        · split <;> exact looped
        · split
          · exact looped
          · rw [netsnmpWrapUpRequest]
            split <;> exact looped

def setSequences : List (List AgentMode) :=
  [[.setReserve1, .setFree], [.setReserve1, .setReserve2, .setFree],
    [.setReserve1, .setReserve2, .setAction, .setUndo],
    [.setReserve1, .setReserve2, .setAction, .setCommit]]

theorem Traced.exists_prefix {mode : AgentMode} (traced : Traced mode modes) :
    ∃ sequence ∈ setSequences, modes.IsPrefix sequence := by
  cases traced <;> decide

theorem Traced.finished {mode : AgentMode} (traced : Traced mode modes)
    (finished : mode = .finishedSuccess ∨ mode = .finishedFailure) : modes ∈ setSequences := by
  cases traced with
  | committed | commitFailed | freed1 | freed2 | undone => decide
  | reserve1 | reserve2 | action | commit | free1 | free2 | undo =>
      rcases finished with finished | finished <;> cases finished

/-- What holds of a SET request, received with the tree cache of `asp`, after it was taken up again
`n` times. -/
structure SetProtocol (asp : SetSession) (n : Nat) (s : SetState) : Prop where
  /-- All handlers are called in the same modes, and nothing failed before they act or commit. -/
  modes : ∃ modes, (∀ i, asp.canSets[i]? = some true → s.asp.callsOf i = modes) ∧
    (∃ sequence ∈ setSequences, modes.IsPrefix sequence) ∧
    (s.place = .wrappedUp → modes ∈ setSequences) ∧ ErrorsInOrder modes s.asp.errors
  notDropped : s.place ≠ .dropped
  ends : n ≤ 4
  outcome : s.place = .wrappedUp →
    (s.asp.status ≠ snmpErrNoerror ↔ ∃ error ∈ s.asp.errors, s.asp.Counts error)

theorem setProtocol_of_run (handlers : Handlers) (asp : SetSession) (n : Nat) (s : SetState)
    (fresh : asp.Fresh) (marked : (asp.netsnmpHandleRequest handlers).ErrorsMarked)
    (run : SetRun handlers asp n s) : SetProtocol asp n s := by
  rcases run_good fresh marked run with ⟨good, ends⟩
  have canSets_eq := run_canSets run
  have le : n ≤ 4 := by omega
  have traced_of {modes : List AgentMode} (went : s.asp.WentThrough modes)
      (traced : Traced s.asp.mode modes)
      (finished : s.place = .wrappedUp → modes ∈ setSequences) :
      ∃ modes, (∀ i, asp.canSets[i]? = some true → s.asp.callsOf i = modes) ∧
        (∃ sequence ∈ setSequences, modes.IsPrefix sequence) ∧
        (s.place = .wrappedUp → modes ∈ setSequences) ∧ ErrorsInOrder modes s.asp.errors := by
    refine ⟨modes, ?_, traced.exists_prefix, finished, went.inOrder⟩
    intro i canSet
    rw [← canSets_eq] at canSet
    exact went.callsOf_eq canSet
  rw [SetState.Good] at good
  cases place_eq : s.place with
  | delegated =>
      rw [place_eq] at good
      rcases good with ⟨modes, waiting⟩
      refine ⟨traced_of waiting.toWentThrough waiting.traced ?_, ?_, le, ?_⟩
      · intro absurdity
        rw [place_eq] at absurdity
        cases absurdity
      · rw [place_eq]
        decide
      · intro absurdity
        rw [place_eq] at absurdity
        cases absurdity
  | wrappedUp =>
      rw [place_eq] at good
      rcases good with ⟨finished, modes, settled⟩
      refine ⟨traced_of settled.toWentThrough settled.traced ?_, ?_, le, fun _ => settled.status⟩
      · intro _
        apply settled.traced.finished
        simpa [isFinished] using finished
      · rw [place_eq]
        decide
  | dropped =>
      rw [place_eq] at good
      exact good.elim

def oneVarbind : SetSession where
  mode := .setBegin
  status := snmpErrNoerror
  index := 0
  treecache := [⟨1, true, [⟨1, snmpErrNoerror, false⟩], by decide⟩]
  onePassOnly := false
  cancelInProgress := false
  calls := []
  errors := []
  waits := []

theorem oneVarbind_fresh : oneVarbind.Fresh := by
  refine ⟨rfl, rfl, rfl, ?_, rfl, rfl, rfl⟩
  intro request mem
  rw [List.mem_singleton.mp mem]
  exact ⟨rfl, rfl⟩

theorem setProtocol_delegated : ∃ handlers s,
    SetRun handlers oneVarbind 1 s ∧ SetProtocol oneVarbind 1 s := by
  let handlers : Handlers := fun asp _ =>
    ⟨snmpErrNoerror, fun _ => if asp.mode = .setReserve1 then .delegated else .success⟩
  have received : oneVarbind.netsnmpHandleRequest handlers =
      (oneVarbind.handleSet handlers).delegate := by
    rw [netsnmpHandleRequest, handleSetLoop, if_neg (by decide), if_pos (by rfl)]
    rfl
  have marked : (oneVarbind.netsnmpHandleRequest handlers).ErrorsMarked := by
    rw [received]
    intro _ errors
    exact absurd rfl errors
  have waiting : SetRun handlers oneVarbind 0 _ := .received
  rw [received] at waiting
  have failed := waiting.requestDone rfl 1 ⟨_, List.mem_singleton_self _, rfl, rfl⟩
    (some ⟨snmpErrGenerr, by decide⟩)
  have resumed := failed.resumed rfl rfl
  exact ⟨handlers, _, resumed, setProtocol_of_run handlers oneVarbind 1 _ oneVarbind_fresh
    marked resumed⟩

/-- In the commit mode a handler sets genErr on its request, and the response is no error. -/
theorem not_error_iff_reported : ¬ ∀ handlers asp n s, asp.Fresh →
    (asp.netsnmpHandleRequest handlers).ErrorsMarked → SetRun handlers asp n s →
      s.place = .wrappedUp → (s.asp.status ≠ snmpErrNoerror ↔ s.asp.errors ≠ []) := by
  intro claimed
  let handlers : Handlers := fun asp _ =>
    ⟨snmpErrNoerror, fun _ =>
      if asp.mode = .setCommit then .error ⟨snmpErrGenerr, by decide⟩ else .success⟩
  have loop_next {asp next : SetSession} (set_eq : asp.handleSet handlers = next)
      (unfinished : asp.isFinished = false) (notDelegated : next.netsnmpCheckForDelegated = false)
      (onePass : asp.onePassOnly = false) :
      handleSetLoop handlers asp = handleSetLoop handlers next := by
    rw [handleSetLoop, set_eq, unfinished, notDelegated, onePass]
    rfl
  let reserved1 := { oneVarbind with mode := .setReserve1, calls := [(0, .setReserve1)] }
  let reserved2 := { reserved1 with
    mode := .setReserve2
    calls := [(0, .setReserve1), (0, .setReserve2)] }
  let acted := { reserved2 with
    mode := .setAction
    calls := [(0, .setReserve1), (0, .setReserve2), (0, .setAction)] }
  let committed := { acted with
    mode := .setCommit
    treecache := [⟨1, true, [⟨1, snmpErrGenerr, false⟩], by decide⟩]
    calls := [(0, .setReserve1), (0, .setReserve2), (0, .setAction), (0, .setCommit)]
    errors := [⟨.setCommit, snmpErrGenerr, false⟩] }
  let finished := { committed with mode := .finishedSuccess }
  have reserved1_eq : oneVarbind.handleSet handlers = reserved1 := rfl
  have reserved2_eq : reserved1.handleSet handlers = reserved2 := rfl
  have acted_eq : reserved2.handleSet handlers = acted := rfl
  have committed_eq : acted.handleSet handlers = committed := rfl
  have finished_eq : committed.handleSet handlers = finished := rfl
  have looped : handleSetLoop handlers oneVarbind = (snmpErrNoerror, finished) := by
    rw [loop_next reserved1_eq rfl rfl rfl, loop_next reserved2_eq rfl rfl rfl,
      loop_next acted_eq rfl rfl rfl, loop_next committed_eq rfl rfl rfl,
      loop_next finished_eq rfl rfl rfl, handleSetLoop_finished rfl]
    rfl
  have received : oneVarbind.netsnmpHandleRequest handlers = ⟨finished, .wrappedUp⟩ := by
    have looped : handleSetLoop handlers { oneVarbind with mode := .setBegin } =
      (snmpErrNoerror, finished) := looped
    rw [netsnmpHandleRequest, looped]
    rfl
  have run : SetRun handlers oneVarbind 0 _ := .received
  have outcome := claimed handlers oneVarbind 0 _ oneVarbind_fresh
    (by rw [received]; intro absurdity; cases absurdity) run
  rw [received] at outcome
  exact (outcome rfl).mpr (by decide) rfl

end NetSnmp
