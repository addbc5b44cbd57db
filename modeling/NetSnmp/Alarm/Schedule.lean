import NetSnmp.Alarm.Termination

/-!
# The schedule of the alarms

As long as the counter of the ids does not come round to an id that is in use, the alarms
keep to their schedule in every run.
-/

namespace NetSnmp

structure AlarmsBehave (s : AlarmState) : Prop where
  ids : (s.thealarms.map Alarm.clientreg).Nodup
  /-- The callback of a one-shot alarm runs at most once, and is gone when it has returned. -/
  once : ∀ address flags, .registered address flags ∈ s.events → flags.repeats = false →
    s.calls address ≤ 1 ∧ (s.calls address = 1 →
      address ∉ s.thealarms.map Alarm.address ∨ address ∈ s.frames.filterMap AlarmFrame.callee)
  due : ∀ address due tNow, .called address due tNow ∈ s.events → due.micros ≤ tNow.micros
  /-- An alarm is rescheduled to a time later than the current one. -/
  later : ∀ address tNow due, .rescheduled address tNow due ∈ s.events → tNow.micros < due.micros
  /-- A repeating alarm that is still in the list is rescheduled when its callback returns. -/
  rescheduled : ∀ address clientreg tNow outer s', s.frames =
    .calling address clientreg tNow :: outer →
    s.step .callbackReturns = some s' → ∀ a ∈ s.thealarms, a.address = address →
      a.flags.repeats = true → a.t.isSet = true →
        a.again tNow ∈ s'.thealarms ∧ .rescheduled address tNow (tNow.add a.t) ∈ s'.events
  /-- A call of `run_alarms` always takes its next pass, or waits for a callback to return. -/
  continues : s.frames ≠ [] →
    (s.step .pass).isSome = true ∨ (s.step .callbackReturns).isSome = true
  /-- There are only so many passes when rescheduled alarms are due in the future. -/
  terminates : ∀ latest ops s',
    AlarmRun (fun s op => ProperOp s op ∧ DuesInFuture latest s op) s ops s' →
      ops.count .pass ≤ s.remaining latest + ops.countP AlarmOp.adds

theorem alarms_behave (clock : Timeval) (ops : List AlarmOp) (s : AlarmState)
    (run : AlarmRun ProperOp (.initial clock) ops s) : AlarmsBehave s := by
  rcases run_order run with ⟨order, history⟩
  refine ⟨order.ids, history.once, history.due, history.later, ?_, ?_, ?_⟩
  · intro address clientreg tNow outer s' frames_eq stepped a mem here repeats interval
    rw [AlarmState.step, frames_eq] at stepped
    cases stepped
    rcases callbackReturned_cases order frames_eq with ⟨-, gone⟩ |
      ⟨found, foundMem, foundHere, -, ⟨-, -, returned⟩ | ⟨oneShot, -⟩⟩
    · exact absurd here (gone a mem)
    · have same := List.inj_on_of_nodup_map order.addresses foundMem mem (foundHere.trans here.symm)
      rw [returned, same, ← here]
      exact ⟨List.mem_map.mpr ⟨a, mem, if_pos rfl⟩, List.mem_cons_self⟩
    · have same := List.inj_on_of_nodup_map order.addresses foundMem mem (foundHere.trans here.symm)
      rw [same, repeats, interval] at oneShot
      rcases oneShot with absurdity | absurdity <;> cases absurdity
  · intro running
    cases frames_eq : s.frames with
    | nil => exact absurd frames_eq running
    | cons frame outer =>
        cases frame with
        | scanning =>
            left
            rw [AlarmState.step, frames_eq]
            rfl
        | calling address clientreg tNow =>
            right
            rw [AlarmState.step, frames_eq]
            rfl
  · intro latest ops s' run
    have bound := (run_remaining order history run).1
    omega

theorem alarms_behave_oneShot : ∃ s,
    AlarmRun ProperOp (.initial ⟨1, 0, by decide⟩)
      [.callbackReturns, .pass, .runAlarms, .advance ⟨1, 0, by decide⟩,
        .register 1 ⟨false, false⟩] s ∧
    s.calls 0 = 1 ∧ AlarmsBehave s := by
  have newId : ProperOp (.initial ⟨1, 0, by decide⟩) (.register 1 ⟨false, false⟩) :=
    ⟨fun _ mem => (List.not_mem_nil mem).elim, fun _ _ mem => (List.not_mem_nil mem).elim⟩
  have registered := AlarmRun.step (.register 1 ⟨false, false⟩) .refl newId rfl
  have advanced := AlarmRun.step (.advance ⟨1, 0, by decide⟩) registered trivial rfl
  have started := AlarmRun.step .runAlarms advanced trivial rfl
  have called := AlarmRun.step .pass started rfl rfl
  have returned := AlarmRun.step .callbackReturns called trivial rfl
  exact ⟨_, returned, rfl, alarms_behave _ _ _ returned⟩

theorem AlarmRun.mono {allowed allowed' : AlarmState → AlarmOp → Prop} {s s' : AlarmState}
    {ops : List AlarmOp} (weaker : ∀ s op, allowed s op → allowed' s op)
    (run : AlarmRun allowed s ops s') : AlarmRun allowed' s ops s' := by
  induction run with
  | refl => exact .refl
  | step op run isAllowed stepped ih => exact .step op ih (weaker _ _ isAllowed) stepped

theorem exists_run_regnum (n : Nat) (small : n < 2 ^ 32) : ∃ ops s a,
    AlarmRun ProperOp (.initial ⟨1, 0, by decide⟩) ops s ∧ s.thealarms = [a] ∧ a.clientreg = 1 ∧
      s.regnum = (2 + n) % 2 ^ 32 ∧ s.frames = [] := by
  induction n with
  | zero =>
      have newId : ProperOp (.initial ⟨1, 0, by decide⟩) (.register 1 ⟨false, false⟩) :=
        ⟨fun _ mem => (List.not_mem_nil mem).elim, fun _ _ mem => (List.not_mem_nil mem).elim⟩
      exact ⟨_, _, _, .step (.register 1 ⟨false, false⟩) .refl newId rfl, rfl, rfl, rfl, rfl⟩
  | succ n ih =>
      rcases ih (by omega) with ⟨ops, s, a, run, alarms_eq, id_eq, regnum_eq, frames_eq⟩
      rcases run_order run with ⟨order, -⟩
      have idle : s.inApplication = true := by
        rw [AlarmState.inApplication, frames_eq]
      have otherId : a.clientreg ≠ s.regnum := by
        rw [id_eq, regnum_eq]
        omega
      have newId : s.NewId := by
        refine ⟨?_, ?_⟩
        · intro b mem
          rw [alarms_eq] at mem
          rw [List.mem_singleton.mp mem]
          exact otherId
        · intro address tNow mem
          rw [frames_eq] at mem
          cases mem
      have registered := AlarmRun.step (.register 1 ⟨false, false⟩) run newId (if_pos idle)
      rw [AlarmState.snmpAlarmRegister, registerHr_eq order] at registered
      have unregistered := AlarmRun.step (.unregister s.regnum) registered trivial (if_pos idle)
      refine ⟨_, _, a, unregistered, ?_, id_eq, ?_, frames_eq⟩
      · dsimp only
        rw [alarms_eq, List.singleton_append, snmpAlarmUnregister,
          List.eraseP_cons_of_neg (by simpa using otherId), List.eraseP_cons_of_pos]
        exact decide_eq_true rfl
      · dsimp only
        rw [regnum_eq]
        omega

/-- After `2 ^ 32` registrations the counter comes round to the id of a live alarm. -/
theorem not_alarms_behave : ¬ ∀ clock ops s,
    AlarmRun (fun s op => op = .pass → s.clock.isSet = true) (.initial clock) ops s →
      AlarmsBehave s := by
  intro behave
  rcases exists_run_regnum (2 ^ 32 - 1) (by decide) with
    ⟨ops, s, a, run, alarms_eq, id_eq, regnum_eq, frames_eq⟩
  rcases run_order run with ⟨order, -⟩
  have idle : s.inApplication = true := by
    rw [AlarmState.inApplication, frames_eq]
  have clockSet : ∀ s op, ProperOp s op → op = .pass → s.clock.isSet = true := by
    rintro s _ proper rfl
    exact proper
  have registered := AlarmRun.step (.register 1 ⟨false, false⟩) (run.mono clockSet)
    (fun absurdity => nomatch absurdity) (if_pos idle)
  rw [AlarmState.snmpAlarmRegister, registerHr_eq order] at registered
  have ids := (behave _ _ _ registered).ids
  dsimp only at ids
  rw [alarms_eq, List.singleton_append, List.map_cons, List.map_singleton, id_eq] at ids
  apply (List.nodup_cons.mp ids).1
  exact List.mem_singleton.mpr regnum_eq.symm

end NetSnmp
