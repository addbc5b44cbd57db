import Mathlib.Data.List.Infix
import NetSnmp.Agent.SetModes

/-!
# The protocol of a SET request

The modes that a SET request goes through, and which errors it has noted on the way,
whether its handlers answer at once or later.
-/

namespace NetSnmp

/-- The modes that a session in a mode has gone through. -/
inductive Traced : AgentMode → List AgentMode → Prop
  | reserve1 : Traced .setReserve1 [.setReserve1]
  | reserve2 : Traced .setReserve2 [.setReserve1, .setReserve2]
  | action : Traced .setAction [.setReserve1, .setReserve2, .setAction]
  | commit : Traced .setCommit [.setReserve1, .setReserve2, .setAction, .setCommit]
  | free1 : Traced .setFree [.setReserve1, .setFree]
  | free2 : Traced .setFree [.setReserve1, .setReserve2, .setFree]
  | undo : Traced .setUndo [.setReserve1, .setReserve2, .setAction, .setUndo]
  | committed : Traced .finishedSuccess [.setReserve1, .setReserve2, .setAction, .setCommit]
  | commitFailed : Traced .finishedFailure [.setReserve1, .setReserve2, .setAction, .setCommit]
  | freed1 : Traced .finishedFailure [.setReserve1, .setFree]
  | freed2 : Traced .finishedFailure [.setReserve1, .setReserve2, .setFree]
  | undone : Traced .finishedFailure [.setReserve1, .setReserve2, .setAction, .setUndo]

/-- An action follows only when nothing failed before, and a commit when the action did not fail. -/
structure ErrorsInOrder (modes : List AgentMode) (errors : List HandlerError) : Prop where
  inModes : ∀ error ∈ errors, error.mode ∈ modes
  action : .setAction ∈ modes → ∀ error ∈ errors,
    error.mode ≠ .setReserve1 ∧ error.mode ≠ .setReserve2
  commit : .setCommit ∈ modes → ∀ error ∈ errors, error.mode ≠ .setAction

theorem ErrorsInOrder.append {modes : List AgentMode} {errors errors' : List HandlerError}
    {mode : AgentMode}
    (inOrder : ErrorsInOrder modes errors) (traced : Traced mode modes)
    (unfinished : mode ≠ .finishedSuccess ∧ mode ≠ .finishedFailure)
    (inMode : ∀ error ∈ errors', error.mode = mode) :
    ErrorsInOrder modes (errors ++ errors') := by
  have current : mode ∈ modes ∧
      (.setAction ∈ modes → mode ≠ .setReserve1 ∧ mode ≠ .setReserve2) ∧
      (.setCommit ∈ modes → mode ≠ .setAction) := by
    rcases unfinished with ⟨notSuccess, notFailure⟩
    cases traced with
    | committed => exact absurd rfl notSuccess
    | commitFailed | freed1 | freed2 | undone => exact absurd rfl notFailure
    | reserve1 | reserve2 | action | commit | free1 | free2 | undo => decide
  constructor
  · intro error mem
    rcases List.mem_append.mp mem with mem | mem
    · exact inOrder.inModes error mem
    · rw [inMode error mem]
      exact current.1
  · intro acted error mem
    rcases List.mem_append.mp mem with mem | mem
    · exact inOrder.action acted error mem
    · rw [inMode error mem]
      exact current.2.1 acted
  · intro committed error mem
    rcases List.mem_append.mp mem with mem | mem
    · exact inOrder.commit committed error mem
    · rw [inMode error mem]
      exact current.2.2 committed

namespace SetSession

def canSets (asp : SetSession) : List Bool := asp.treecache.map TreeCache.canSet

/-- The error makes the request fail: in the commit mode an error on a request other than
commitFailed does so only when a request was delegated. -/
def Counts (asp : SetSession) (error : HandlerError) : Prop :=
  error.mode ≠ .setCommit ∨ error.returned = true ∨ error.status = snmpErrCommitfailed ∨
    .setCommit ∈ asp.waits

structure WentThrough (asp : SetSession) (modes : List AgentMode) : Prop where
  onePass : asp.onePassOnly = false
  calls : asp.calls = modes.flatMap fun mode => calledEntries mode 0 asp.canSets
  indexed : asp.index ≠ 0 → ErrorAt (allRequests asp.treecache) asp.index
  marked : ∀ error ∈ asp.errors, error.returned = false → HasError (allRequests asp.treecache)
  reported : HasError (allRequests asp.treecache) → asp.errors ≠ []
  inOrder : ErrorsInOrder modes asp.errors
  waited : ∀ mode ∈ asp.waits, mode ∈ modes

structure Settled (asp : SetSession) (modes : List AgentMode) : Prop
    extends WentThrough asp modes where
  traced : Traced asp.mode modes
  status : asp.status ≠ snmpErrNoerror ↔ ∃ error ∈ asp.errors, asp.Counts error
  index : asp.status = snmpErrNoerror → asp.errors = [] → asp.index = 0
  failing : asp.mode = .setFree ∨ asp.mode = .setUndo ∨ asp.mode = .finishedFailure →
    asp.status ≠ snmpErrNoerror
  successful : asp.mode = .finishedSuccess → asp.status = snmpErrNoerror

/-- The status, or else a request, tells whether there was an error. -/
structure Waiting (asp : SetSession) (modes : List AgentMode) : Prop
    extends WentThrough asp modes where
  traced : Traced asp.mode modes
  unfinished : asp.isFinished = false
  status : asp.status ≠ snmpErrNoerror ∨ HasError (allRequests asp.treecache) ↔ asp.errors ≠ []
  failing : asp.mode = .setFree ∨ asp.mode = .setUndo → asp.errors ≠ []
  commit : asp.mode = .setCommit → .setCommit ∈ asp.waits

variable {handlers : Handlers} {asp : SetSession} {modes : List AgentMode}

theorem doMode_spec (handlers : Handlers) (asp : SetSession) : ∃ index status treecache errors,
    asp.doMode handlers =
      { asp with
        index, status, treecache
        calls := asp.calls ++ calledEntries asp.mode 0 asp.canSets
        errors := asp.errors ++ errors } ∧
    treecache.map TreeCache.canSet = asp.canSets ∧
    Reported asp.mode (allRequests asp.treecache) (allRequests treecache) errors ∧
    (index = asp.index ∨ ErrorAt (allRequests treecache) index) ∧
    (asp.status ≠ snmpErrNoerror → status ≠ snmpErrNoerror) ∧
    ((asp.status = snmpErrNoerror → asp.index = 0) → ¬ HasError (allRequests asp.treecache) →
      (status = snmpErrNoerror → index = 0) ∧
      (status ≠ snmpErrNoerror ↔ asp.status ≠ snmpErrNoerror ∨
        ∃ error ∈ errors, error.IsFound (lookForSpecific asp.mode))) := by
  rcases handleVarRequestsLoop_spec handlers asp 0 snmpErrNoerror asp.treecache with
    ⟨finalStatus, treecache, index, status, errors, looped, canSets_eq, reported, indices, kept,
      found⟩
  have merged : ∀ final : Int, final ≠ snmpErrNoerror ∧ status = snmpErrNoerror ∨
      final = snmpErrCommitfailed ∨ final = snmpErrUndofailed → final ≠ snmpErrNoerror := by
    rintro _ (⟨isError, -⟩ | rfl | rfl)
    · exact isError
    · decide
    · decide
  rw [doMode, handleVarRequests]
  dsimp only
  rw [looped]
  dsimp only
  split
  · rename_i final
    refine ⟨index, finalStatus, treecache, errors, rfl, canSets_eq, reported, indices,
      fun _ => merged _ final, ?_⟩
    intro clean noError
    rcases found clean noError with ⟨-, found⟩
    refine ⟨fun noFinal => absurd noFinal (merged _ final), ?_⟩
    have isError := merged _ final
    refine iff_of_true isError ?_
    simpa using found.mp (.inr isError)
  · rename_i notFinal
    refine ⟨index, status, treecache, errors, rfl, canSets_eq, reported, indices, kept, ?_⟩
    intro clean noError
    rcases found clean noError with ⟨clean', found⟩
    refine ⟨clean', ?_⟩
    have noFinal : status ≠ snmpErrNoerror ∨ finalStatus ≠ snmpErrNoerror ↔
        status ≠ snmpErrNoerror := by
      refine ⟨?_, .inl⟩
      rintro (isError | isError)
      · exact isError
      · intro noStatus
        exact notFinal (.inl ⟨isError, noStatus⟩)
    rw [noFinal] at found
    simpa using found

theorem WentThrough.of_reported {asp' : SetSession} {modes' : List AgentMode}
    {errors : List HandlerError} (went : asp.WentThrough modes) (traced : Traced asp.mode modes')
    (unfinished : asp.mode ≠ .finishedSuccess ∧ asp.mode ≠ .finishedFailure)
    (inOrder : ErrorsInOrder modes' asp.errors) (subset : ∀ mode ∈ modes, mode ∈ modes')
    (onePass_eq : asp'.onePassOnly = asp.onePassOnly)
    (calls_eq : asp'.calls = modes'.flatMap fun mode => calledEntries mode 0 asp'.canSets)
    (errors_eq : asp'.errors = asp.errors ++ errors)
    (reported : Reported asp.mode (allRequests asp.treecache) (allRequests asp'.treecache) errors)
    (indices : asp'.index = asp.index ∨ ErrorAt (allRequests asp'.treecache) asp'.index)
    (waits_eq : asp'.waits = asp.waits) : asp'.WentThrough modes' := by
  refine ⟨onePass_eq.trans went.onePass, calls_eq, ?_, ?_, ?_, ?_, ?_⟩
  · intro nonzero
    rcases indices with same | errorAt
    · rw [same] at nonzero ⊢
      exact reported.sticky _ (went.indexed nonzero)
    · exact errorAt
  · intro error mem onRequest
    rw [errors_eq] at mem
    rcases List.mem_append.mp mem with mem | mem
    · exact reported.hasError (went.marked error mem onRequest)
    · rcases reported.marked error mem onRequest with ⟨request, requestMem, same⟩
      refine ⟨request, requestMem, ?_⟩
      rw [same]
      exact (reported.statuses error mem).2
  · rintro ⟨request, mem, isError⟩ noErrors
    rw [errors_eq, List.append_eq_nil_iff] at noErrors
    rcases reported.reported request mem isError with old | ⟨error, errorMem, -⟩
    · exact went.reported old noErrors.1
    · rw [noErrors.2] at errorMem
      cases errorMem
  · rw [errors_eq]
    exact inOrder.append traced unfinished fun error mem => (reported.statuses error mem).1
  · intro mode mem
    rw [waits_eq] at mem
    exact subset mode (went.waited mode mem)

theorem flatMap_calls {canSets canSets' : List Bool} (same : canSets' = canSets)
    (calls_eq : asp.calls = modes.flatMap fun mode => calledEntries mode 0 canSets)
    (mode : AgentMode) : asp.calls ++ calledEntries mode 0 canSets =
      (modes ++ [mode]).flatMap fun mode => calledEntries mode 0 canSets' := by
  rw [List.flatMap_append, same, calls_eq]
  simp

theorem WentThrough.forward (went : asp.WentThrough modes) (noErrors : asp.errors = [])
    (noStatus : asp.status = snmpErrNoerror) (noIndex : asp.index = 0)
    (noWait : .setCommit ∉ asp.waits) (traced : Traced asp.mode (modes ++ [asp.mode]))
    (isForward : asp.mode = .setReserve1 ∨ asp.mode = .setReserve2 ∨ asp.mode = .setAction ∨
      asp.mode = .setCommit) :
    (asp.doMode handlers).Settled (modes ++ [asp.mode]) := by
  rcases doMode_spec handlers asp with
    ⟨index, status, treecache, errors, done, canSets_eq, reported, indices, -, found⟩
  have noError : ¬ HasError (allRequests asp.treecache) := fun hasError =>
    went.reported hasError noErrors
  rcases found (fun _ => noIndex) noError with ⟨clean, found⟩
  have unfinished : asp.mode ≠ .finishedSuccess ∧ asp.mode ≠ .finishedFailure := by
    rcases isForward with mode_eq | mode_eq | mode_eq | mode_eq <;> rw [mode_eq] <;> decide
  have inOrder : ErrorsInOrder (modes ++ [asp.mode]) asp.errors := by
    rw [noErrors]
    exact ⟨by simp, by simp, by simp⟩
  rw [done]
  refine ⟨went.of_reported traced unfinished inOrder
    (fun mode mem => List.mem_append_left _ mem) rfl
    (flatMap_calls canSets_eq went.calls asp.mode) rfl reported indices rfl, traced, ?_,
    fun noError _ => clean noError, ?_, ?_⟩
  · dsimp only
    rw [found, noErrors, List.nil_append, or_iff_right (not_not.mpr noStatus)]
    refine exists_congr fun error => and_congr_right fun mem => ?_
    have inMode := (reported.statuses error mem).1
    rw [HandlerError.IsFound, Counts]
    rcases isForward with mode_eq | mode_eq | mode_eq | mode_eq
    · exact iff_of_true (.inl (by rw [mode_eq]; rfl)) (.inl (by rw [inMode, mode_eq]; decide))
    · exact iff_of_true (.inl (by rw [mode_eq]; rfl)) (.inl (by rw [inMode, mode_eq]; decide))
    · exact iff_of_true (.inl (by rw [mode_eq]; rfl)) (.inl (by rw [inMode, mode_eq]; decide))
    · simp [mode_eq, lookForSpecific, inMode, noWait, (by decide : snmpErrCommitfailed ≠ 0)]
  · rintro (mode_eq | mode_eq | mode_eq) <;>
      rcases isForward with forward | forward | forward | forward <;>
        exact absurd (forward.symm.trans mode_eq) (by decide)
  · intro mode_eq
    exact absurd mode_eq unfinished.1

theorem WentThrough.failure (went : asp.WentThrough modes)
    (isError : asp.status ≠ snmpErrNoerror) (counted : ∃ error ∈ asp.errors, asp.Counts error)
    (traced : Traced asp.mode (modes ++ [asp.mode]))
    (isFailing : asp.mode = .setFree ∨ asp.mode = .setUndo) :
    (asp.doMode handlers).Settled (modes ++ [asp.mode]) := by
  rcases doMode_spec handlers asp with
    ⟨index, status, treecache, errors, done, canSets_eq, reported, indices, kept, -⟩
  have unfinished : asp.mode ≠ .finishedSuccess ∧ asp.mode ≠ .finishedFailure := by
    rcases isFailing with mode_eq | mode_eq <;> rw [mode_eq] <;> decide
  have others (mode : AgentMode) (other : mode = .setAction ∨ mode = .setCommit)
      (mem : mode ∈ modes ++ [asp.mode]) : mode ∈ modes := by
    rcases List.mem_append.mp mem with mem | mem
    · exact mem
    · rw [List.mem_singleton.mp mem] at other
      rcases isFailing with mode_eq | mode_eq <;> rw [mode_eq] at other <;>
        exact absurd other (by decide)
  have inOrder : ErrorsInOrder (modes ++ [asp.mode]) asp.errors :=
    ⟨fun error mem => List.mem_append_left _ (went.inOrder.inModes error mem),
      fun acted => went.inOrder.action (others _ (.inl rfl) acted),
      fun committed => went.inOrder.commit (others _ (.inr rfl) committed)⟩
  rw [done]
  refine ⟨went.of_reported traced unfinished inOrder
    (fun mode mem => List.mem_append_left _ mem) rfl
    (flatMap_calls canSets_eq went.calls asp.mode) rfl reported indices rfl, traced, ?_,
    fun noError => absurd noError (kept isError), fun _ => kept isError, ?_⟩
  · refine iff_of_true (kept isError) ?_
    rcases counted with ⟨error, mem, counts⟩
    exact ⟨error, List.mem_append_left _ mem, counts⟩
  · intro mode_eq
    exact absurd mode_eq unfinished.1

end SetSession

end NetSnmp
