import NetSnmp.Alarm.Runs

/-!
# Steps of the alarms

Each step keeps the order of the alarms and what is known about their history.
-/

namespace NetSnmp

variable {s s' : AlarmState} {outer : List AlarmFrame} {address : Addr} {clientreg : Nat}
  {tNow : Timeval}

theorem unregister_kept (s : AlarmState) (clientreg : Nat) :
    AlarmKept s { s with thealarms := snmpAlarmUnregister s.thealarms clientreg } := by
  have sublist : (snmpAlarmUnregister s.thealarms clientreg).Sublist s.thealarms :=
    List.eraseP_sublist
  refine ⟨rfl, ?_, sublist.map _, sublist.map _, List.Sublist.refl _, fun _ _ _ mem => mem,
    ⟨[], rfl, by simp⟩, fun _ mem => .inl mem⟩
  intro a mem
  exact ⟨a, mem_unregister mem, rfl, rfl, rfl, fun _ fired => fired⟩

theorem advance_kept (s : AlarmState) (time : Timeval) :
    AlarmKept s { s with clock := s.clock.add time } :=
  ⟨rfl, fun a mem => ⟨a, mem, rfl, rfl, rfl, fun _ fired => fired⟩, List.Sublist.refl _,
    List.Sublist.refl _, List.Sublist.refl _, fun _ _ _ mem => mem, ⟨[], rfl, by simp⟩,
    fun _ mem => .inl mem⟩

theorem runAlarms_kept (s : AlarmState) : AlarmKept s { s with frames := .scanning :: s.frames } :=
  ⟨rfl, fun a mem => ⟨a, mem, rfl, rfl, rfl, fun _ fired => fired⟩, List.Sublist.refl _,
    List.Sublist.refl _, List.Sublist.refl _,
    fun _ _ _ mem => (List.mem_cons.mp mem).resolve_left (by simp), ⟨[], rfl, by simp⟩,
    fun _ mem => .inl mem⟩

theorem reset_kept (order : AlarmOrder s) (clientreg : Nat) :
    AlarmKept s (s.snmpAlarmReset clientreg) := by
  rw [AlarmState.snmpAlarmReset]
  cases found : saFindSpecific s.thealarms clientreg with
  | none =>
      exact ⟨rfl, fun a mem => ⟨a, mem, rfl, rfl, rfl, fun _ fired => fired⟩, List.Sublist.refl _,
        List.Sublist.refl _, List.Sublist.refl _, fun _ _ _ mem => mem, ⟨[], rfl, by simp⟩,
        fun _ mem => .inl mem⟩
  | some a =>
      rcases saFindSpecific_mem found with ⟨aMem, -⟩
      have ids_eq : (storeAlarm s.thealarms
          { a with tLastM := s.clock, tNextM := s.clock.add a.t }).map Alarm.clientreg =
          s.thealarms.map Alarm.clientreg := map_storeAlarm _ order.addresses aMem rfl rfl
      have addresses_eq : (storeAlarm s.thealarms
          { a with tLastM := s.clock, tNextM := s.clock.add a.t }).map Alarm.address =
          s.thealarms.map Alarm.address := map_storeAlarm _ order.addresses aMem rfl rfl
      refine ⟨rfl, ?_, (ids_eq ▸ List.Sublist.refl _), (addresses_eq ▸ List.Sublist.refl _),
        List.Sublist.refl _,
        fun _ _ _ mem => mem, ⟨[_], rfl, ?_⟩, fun _ mem => .inl mem⟩
      · intro a' mem
        rcases mem_storeAlarm mem with rfl | ⟨mem, -⟩
        · exact ⟨a, aMem, rfl, rfl, rfl, fun _ fired => fired⟩
        · exact ⟨a', mem, rfl, rfl, rfl, fun _ fired => fired⟩
      · intro event mem
        rw [List.mem_singleton.mp mem]
        exact order.fresh a aMem

/-- The fields of a repeating alarm whose callback, called at `tNow`, has returned. -/
def Alarm.again (a : Alarm) (tNow : Timeval) : Alarm :=
  { a with tLastM := tNow, tNextM := tNow.add a.t, flags := { a.flags with fired := false } }

theorem callbackReturned_cases (order : AlarmOrder s)
    (frames_eq : s.frames = .calling address clientreg tNow :: outer) :
    (s.callbackReturned clientreg tNow outer = { s with frames := .scanning :: outer } ∧
        ∀ a ∈ s.thealarms, a.address ≠ address) ∨
      ∃ a ∈ s.thealarms, a.address = address ∧ a.clientreg = clientreg ∧
        ((a.flags.repeats = true ∧ a.t.isSet = true ∧
            s.callbackReturned clientreg tNow outer = { s with
              thealarms := storeAlarm s.thealarms (a.again tNow)
              frames := .scanning :: outer
              events := .rescheduled a.address tNow (tNow.add a.t) :: s.events }) ∨
          ((a.flags.repeats = false ∨ a.t.isSet = false) ∧
            s.callbackReturned clientreg tNow outer = { s with
              thealarms := snmpAlarmUnregister s.thealarms clientreg
              frames := .scanning :: outer })) := by
  have running : .calling address clientreg tNow ∈ s.frames := by
    rw [frames_eq]
    exact List.mem_cons_self
  rcases order.calling _ _ _ running with ⟨nowSet, -, callee⟩
  rw [AlarmState.callbackReturned]
  cases found : saFindSpecific s.thealarms clientreg with
  | none =>
      left
      refine ⟨rfl, fun a mem here => ?_⟩
      exact saFindSpecific_none found a mem ((callee a mem).1.mpr here)
  | some a =>
      rcases saFindSpecific_mem found with ⟨mem, same⟩
      right
      refine ⟨a, mem, (callee a mem).1.mp same, same, ?_⟩
      have zero : Timeval.zero.isSet = false := rfl
      cases repeats : a.flags.repeats with
      | false => simp [saUpdateEntry, nowSet, zero, repeats, same]
      | true =>
          cases interval : a.t.isSet with
          | false => simp [saUpdateEntry, nowSet, zero, repeats, interval, same]
          | true => simp [saUpdateEntry, nowSet, zero, repeats, interval, Alarm.again]

theorem callbackReturned_kept (order : AlarmOrder s)
    (frames_eq : s.frames = .calling address clientreg tNow :: outer) :
    AlarmKept s (s.callbackReturned clientreg tNow outer) := by
  have running : .calling address clientreg tNow ∈ s.frames := by
    rw [frames_eq]
    exact List.mem_cons_self
  have callees_eq : s.frames.filterMap AlarmFrame.callee =
      address :: outer.filterMap AlarmFrame.callee := by
    rw [frames_eq]
    rfl
  have notOuter : address ∉ outer.filterMap AlarmFrame.callee := by
    have nodup := order.callees
    rw [callees_eq] at nodup
    exact (List.nodup_cons.mp nodup).1
  have callees : (outer.filterMap AlarmFrame.callee).Sublist
    (s.frames.filterMap AlarmFrame.callee) := by
    rw [callees_eq]
    exact List.sublist_cons_self _ _
  have calling : ∀ other id time, AlarmFrame.calling other id time ∈ AlarmFrame.scanning :: outer →
      AlarmFrame.calling other id time ∈ s.frames := by
    intro other id time mem
    rw [frames_eq]
    exact List.mem_cons_of_mem _ ((List.mem_cons.mp mem).resolve_left (by simp))
  have finished {thealarms : List Alarm}
      (repeating : ∀ a ∈ thealarms, a.address = address → a.flags.repeats = true) :
      ∀ other ∈ s.frames.filterMap AlarmFrame.callee, other ∈ outer.filterMap AlarmFrame.callee ∨
        ∀ a ∈ thealarms, a.address = other → a.flags.repeats = true := by
    intro other mem
    rw [callees_eq] at mem
    rcases List.mem_cons.mp mem with rfl | mem
    · exact .inr repeating
    · exact .inl mem
  rcases callbackReturned_cases order frames_eq with ⟨returned, gone⟩ |
    ⟨a, aMem, here, same, ⟨repeats, interval, returned⟩ | ⟨-, returned⟩⟩
  · rw [returned]
    exact ⟨rfl, fun a mem => ⟨a, mem, rfl, rfl, rfl, fun _ fired => fired⟩, List.Sublist.refl _,
      List.Sublist.refl _, callees, calling, ⟨[], rfl, by simp⟩,
      finished fun a mem here => absurd here (gone a mem)⟩
  · rw [returned]
    have ids_eq : (storeAlarm s.thealarms (a.again tNow)).map Alarm.clientreg =
        s.thealarms.map Alarm.clientreg := map_storeAlarm _ order.addresses aMem rfl rfl
    have addresses_eq : (storeAlarm s.thealarms (a.again tNow)).map Alarm.address =
        s.thealarms.map Alarm.address := map_storeAlarm _ order.addresses aMem rfl rfl
    refine ⟨rfl, ?_, (ids_eq ▸ List.Sublist.refl _), (addresses_eq ▸ List.Sublist.refl _),
      callees, calling,
      ⟨[_], rfl, ?_⟩, finished ?_⟩
    · intro a' mem
      rcases mem_storeAlarm mem with rfl | ⟨mem, -⟩
      · refine ⟨a, aMem, rfl, rfl, rfl, fun called => ?_⟩
        rw [here] at called
        exact absurd called notOuter
      · exact ⟨a', mem, rfl, rfl, rfl, fun _ fired => fired⟩
    · intro event mem
      rw [List.mem_singleton.mp mem]
      refine ⟨order.fresh a aMem, ?_⟩
      rw [Timeval.micros_add]
      have := (Timeval.isSet_iff _).mp interval
      omega
    · intro a' mem same
      rcases mem_storeAlarm mem with rfl | ⟨-, ne⟩
      · exact repeats
      · exact absurd (same.trans here.symm) ne
  · rw [returned]
    have sublist : (snmpAlarmUnregister s.thealarms clientreg).Sublist s.thealarms :=
      List.eraseP_sublist
    refine ⟨rfl, ?_, sublist.map _, sublist.map _, callees, calling, ⟨[], rfl, by simp⟩,
      finished ?_⟩
    · intro a' mem
      exact ⟨a', mem_unregister mem, rfl, rfl, rfl, fun _ fired => fired⟩
    · intro a' mem here'
      rcases order.calling _ _ _ running with ⟨-, -, callee⟩
      have same' := (callee a' (mem_unregister mem)).1.mpr here'
      exact absurd same' (not_mem_unregister order.ids mem)

theorem step_order {op : AlarmOp} (order : AlarmOrder s) (history : AlarmHistory s)
    (proper : ProperOp s op) (stepped : s.step op = some s') : AlarmOrder s' ∧ AlarmHistory s' := by
  have of_kept (kept : AlarmKept s s') : AlarmOrder s' ∧ AlarmHistory s' :=
    ⟨order.of_kept kept, history.of_kept kept⟩
  cases op with
  | register when flags =>
      cases (Option.ite_none_right_eq_some.mp stepped).2
      exact ⟨registerHr_order order proper, registerHr_history order history⟩
  | registerHr t flags =>
      cases (Option.ite_none_right_eq_some.mp stepped).2
      exact ⟨registerHr_order order proper, registerHr_history order history⟩
  | unregister clientreg =>
      cases (Option.ite_none_right_eq_some.mp stepped).2
      exact of_kept (unregister_kept s clientreg)
  | reset clientreg =>
      cases (Option.ite_none_right_eq_some.mp stepped).2
      exact of_kept (reset_kept order clientreg)
  | advance time =>
      cases stepped
      exact of_kept (advance_kept s time)
  | runAlarms =>
      cases (Option.ite_none_right_eq_some.mp stepped).2
      exact of_kept (runAlarms_kept s)
  | pass =>
      rw [AlarmState.step] at stepped
      split at stepped
      · rename_i outer frames_eq
        cases stepped
        exact ⟨pass_order order frames_eq proper, pass_history order history frames_eq⟩
      · cases stepped
  | callbackReturns =>
      rw [AlarmState.step] at stepped
      split at stepped
      · rename_i address clientreg tNow outer frames_eq
        cases stepped
        exact of_kept (callbackReturned_kept order frames_eq)
      · cases stepped

theorem initial_order (clock : Timeval) : AlarmOrder (.initial clock) :=
  ⟨List.nodup_nil, List.nodup_nil, fun _ mem => (List.not_mem_nil mem).elim, List.nodup_nil,
    fun _ _ _ mem => (List.not_mem_nil mem).elim⟩

theorem initial_history (clock : Timeval) : AlarmHistory (.initial clock) :=
  ⟨fun _ mem => (List.not_mem_nil mem).elim, fun _ mem => (List.not_mem_nil mem).elim,
    fun _ _ mem => (List.not_mem_nil mem).elim, fun _ _ _ mem => (List.not_mem_nil mem).elim,
    fun _ _ _ mem => (List.not_mem_nil mem).elim⟩

theorem run_order {clock : Timeval} {ops : List AlarmOp}
    (run : AlarmRun ProperOp (.initial clock) ops s) : AlarmOrder s ∧ AlarmHistory s := by
  induction run with
  | refl => exact ⟨initial_order clock, initial_history clock⟩
  | step op run proper stepped ih => exact step_order ih.1 ih.2 proper stepped

end NetSnmp
