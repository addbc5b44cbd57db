import NetSnmp.Agent.SetProtocol

/-!
# Runs of a SET request

A SET request goes through its modes in the loop of `handle_set_loop`, and again each
time that its delegated requests are done.
-/

namespace NetSnmp

namespace SetSession

variable {handlers : Handlers} {asp : SetSession} {modes : List AgentMode}

theorem enterMode_cases (settled : asp.Settled modes) (unfinished : asp.isFinished = false) :
    ∃ mode, asp.enterMode = { asp with mode } ∧
      ((asp.status ≠ snmpErrNoerror ∧ (mode = .setFree ∨ mode = .setUndo) ∧
          Traced mode (modes ++ [mode])) ∨
        (asp.status = snmpErrNoerror ∧
          (mode = .setReserve2 ∨ mode = .setAction ∨ mode = .setCommit) ∧
          Traced mode (modes ++ [mode]) ∧ .setCommit ∉ modes) ∨
        (Traced mode modes ∧ (mode = .finishedSuccess ∧ asp.status = snmpErrNoerror ∨
          mode = .finishedFailure ∧ asp.status ≠ snmpErrNoerror))) := by
  have traced := settled.traced
  have failing := settled.failing
  have entered : asp.enterMode = asp.nextMode := by
    rw [enterMode, settled.onePass, if_neg Bool.false_ne_true]
  rw [isFinished] at unfinished
  rw [entered, nextMode]
  generalize mode_eq : asp.mode = mode at traced failing unfinished ⊢
  by_cases isError : asp.status ≠ snmpErrNoerror
  · cases traced with
    | reserve1 =>
        exact ⟨.setFree, by simp only [if_pos isError], .inl ⟨isError, .inl rfl, .free1⟩⟩
    | reserve2 =>
        exact ⟨.setFree, by simp only [if_pos isError], .inl ⟨isError, .inl rfl, .free2⟩⟩
    | action =>
        exact ⟨.setUndo, by simp only [if_pos isError], .inl ⟨isError, .inr rfl, .undo⟩⟩
    | commit =>
        exact ⟨.finishedFailure, by simp only [if_pos isError],
          .inr (.inr ⟨.commitFailed, .inr ⟨rfl, isError⟩⟩)⟩
    | free1 => exact ⟨.finishedFailure, rfl, .inr (.inr ⟨.freed1, .inr ⟨rfl, isError⟩⟩)⟩
    | free2 => exact ⟨.finishedFailure, rfl, .inr (.inr ⟨.freed2, .inr ⟨rfl, isError⟩⟩)⟩
    | undo => exact ⟨.finishedFailure, rfl, .inr (.inr ⟨.undone, .inr ⟨rfl, isError⟩⟩)⟩
    | committed | commitFailed | freed1 | freed2 | undone => cases unfinished
  · have noError := not_not.mp isError
    cases traced with
    | reserve1 =>
        exact ⟨.setReserve2, by simp only [if_neg isError],
          .inr (.inl ⟨noError, .inl rfl, .reserve2, by decide⟩)⟩
    | reserve2 =>
        exact ⟨.setAction, by simp only [if_neg isError],
          .inr (.inl ⟨noError, .inr (.inl rfl), .action, by decide⟩)⟩
    | action =>
        exact ⟨.setCommit, by simp only [if_neg isError],
          .inr (.inl ⟨noError, .inr (.inr rfl), .commit, by decide⟩)⟩
    | commit =>
        exact ⟨.finishedSuccess, by simp only [if_neg isError],
          .inr (.inr ⟨.committed, .inl ⟨rfl, noError⟩⟩)⟩
    | free1 | free2 => exact absurd noError (failing (.inl rfl))
    | undo => exact absurd noError (failing (.inr (.inl rfl)))
    | committed | commitFailed | freed1 | freed2 | undone => cases unfinished

theorem WentThrough.withMode (went : asp.WentThrough modes) (mode : AgentMode) (status : Int) :
    { asp with mode, status }.WentThrough modes :=
  ⟨went.onePass, went.calls, went.indexed, went.marked, went.reported, went.inOrder, went.waited⟩

theorem Settled.errors_eq_nil (settled : asp.Settled modes) (noError : asp.status = snmpErrNoerror)
    (noCommit : .setCommit ∉ modes) : asp.errors = [] := by
  apply List.eq_nil_iff_forall_not_mem.mpr
  intro error mem
  apply settled.status.mpr _ noError
  refine ⟨error, mem, .inl fun committed => noCommit ?_⟩
  exact committed ▸ settled.inOrder.inModes error mem

theorem Settled.handleSet (handlers : Handlers) (settled : asp.Settled modes)
    (unfinished : asp.isFinished = false) :
    ∃ modes', (asp.handleSet handlers).Settled modes' ∧
      ((asp.handleSet handlers).isFinished = true →
        (asp.handleSet handlers).netsnmpCheckForDelegated = asp.netsnmpCheckForDelegated) := by
  rcases enterMode_cases settled unfinished with ⟨mode, entered, cases⟩
  rw [SetSession.handleSet, entered]
  rcases cases with ⟨isError, isFailing, traced⟩ | ⟨noError, isForward, traced, noCommit⟩ |
    ⟨traced, finished⟩
  · have notFinished : { asp with mode }.isFinished = false := by
      rcases isFailing with rfl | rfl <;> rfl
    rw [notFinished, if_neg Bool.false_ne_true]
    have settled' : ({ asp with mode }.doMode handlers).Settled (modes ++ [mode]) :=
      (settled.toWentThrough.withMode mode asp.status).failure isError (settled.status.mp isError)
        traced isFailing
    refine ⟨_, settled', fun absurdity => ?_⟩
    rw [isFinished, (doMode_mode handlers _).1] at absurdity
    rw [isFinished] at notFinished
    rw [notFinished] at absurdity
    cases absurdity
  · have notFinished : { asp with mode }.isFinished = false := by
      rcases isForward with rfl | rfl | rfl <;> rfl
    rw [notFinished, if_neg Bool.false_ne_true]
    have noErrors := settled.errors_eq_nil noError noCommit
    have settled' : ({ asp with mode }.doMode handlers).Settled (modes ++ [mode]) :=
      (settled.toWentThrough.withMode mode asp.status).forward noErrors noError
        (settled.index noError noErrors) (fun waited => noCommit (settled.waited _ waited)) traced
        (.inr isForward)
    refine ⟨_, settled', fun absurdity => ?_⟩
    rw [isFinished, (doMode_mode handlers _).1] at absurdity
    rw [isFinished] at notFinished
    rw [notFinished] at absurdity
    cases absurdity
  · have isFinished : { asp with mode }.isFinished = true := by
      rcases finished with ⟨rfl, -⟩ | ⟨rfl, -⟩ <;> rfl
    rw [if_pos isFinished]
    refine ⟨modes, ⟨settled.toWentThrough.withMode mode asp.status, traced, settled.status,
      settled.index, ?_, ?_⟩, fun _ => rfl⟩
    · rcases finished with ⟨rfl, -⟩ | ⟨-, isError⟩
      · rintro (absurdity | absurdity | absurdity) <;> cases absurdity
      · exact fun _ => isError
    · rcases finished with ⟨-, noError⟩ | ⟨rfl, -⟩
      · exact fun _ => noError
      · intro absurdity
        cases absurdity

/-- What `handle_set_loop` leaves. -/
structure Looped (asp : SetSession) (status : Int) : Prop where
  settled : ∃ modes, asp.Settled modes
  ended : asp.isFinished = true ∧ asp.netsnmpCheckForDelegated = false ∧ status = asp.status ∨
    asp.isFinished = false ∧ asp.netsnmpCheckForDelegated = true ∧ status = snmpErrNoerror

theorem handleSetLoop_finished (finished : asp.isFinished = true) :
    handleSetLoop handlers asp = (asp.status, asp) := by
  rw [handleSetLoop, if_pos finished]

theorem handleSetLoop_looped (unfinished : asp.isFinished = false)
    (notDelegated : asp.netsnmpCheckForDelegated = false) (onePass : asp.onePassOnly = false)
    (settled : (asp.handleSet handlers).Settled modes)
    (finished : (asp.handleSet handlers).isFinished = true →
      (asp.handleSet handlers).netsnmpCheckForDelegated = asp.netsnmpCheckForDelegated) :
    (handleSetLoop handlers asp).2.Looped (handleSetLoop handlers asp).1 ∧
      rank (handleSetLoop handlers asp).2.mode < rank asp.mode := by
  induction rank_eq : rank asp.mode using Nat.strong_induction_on generalizing asp modes with
  | _ n ih =>
      have notFinished : ¬ asp.isFinished = true := by
        rw [unfinished]
        exact Bool.false_ne_true
      have lower : rank (asp.handleSet handlers).mode < n := by
        rw [(handleSet_mode handlers asp).1, enterMode, onePass,
          if_neg Bool.false_ne_true, ← rank_eq]
        exact rank_nextMode notFinished
      rw [handleSetLoop, if_neg notFinished]
      by_cases delegated : (asp.handleSet handlers).netsnmpCheckForDelegated = true
      · rw [if_pos delegated]
        refine ⟨⟨⟨modes, settled⟩, .inr ⟨?_, delegated, rfl⟩⟩, lower⟩
        by_contra isFinished
        rw [Bool.not_eq_false] at isFinished
        rw [finished isFinished, notDelegated] at delegated
        cases delegated
      · rw [if_neg delegated, onePass, if_neg Bool.false_ne_true]
        rw [Bool.not_eq_true] at delegated
        by_cases isFinished : (asp.handleSet handlers).isFinished = true
        · rw [handleSetLoop_finished isFinished]
          exact ⟨⟨⟨modes, settled⟩, .inl ⟨isFinished, delegated, rfl⟩⟩, lower⟩
        · rw [Bool.not_eq_true] at isFinished
          rcases settled.handleSet handlers isFinished with
            ⟨modes', settled', finished'⟩
          rcases ih _ lower isFinished delegated settled.onePass settled' finished' rfl with
            ⟨looped, rank_lt⟩
          exact ⟨looped, rank_lt.trans lower⟩

theorem Settled.handleSetLoop (handlers : Handlers) (settled : asp.Settled modes)
    (unfinished : asp.isFinished = false)
    (notDelegated : asp.netsnmpCheckForDelegated = false) :
    (handleSetLoop handlers asp).2.Looped (handleSetLoop handlers asp).1 ∧
      rank (SetSession.handleSetLoop handlers asp).2.mode < rank asp.mode := by
  rcases settled.handleSet handlers unfinished with ⟨modes', settled', finished⟩
  exact handleSetLoop_looped unfinished notDelegated settled.onePass settled' finished

end SetSession

end NetSnmp
