import NetSnmp.Alarm.Steps

/-!
# Termination of the alarms

A pass of the loop in `run_alarms` returns, or there is one alarm less that is due; so
there are only as many passes as alarms were due, when no alarm that is rescheduled is
due again before the loop has looked at the clock for the last time.
-/

namespace NetSnmp

def Alarm.isPending (latest : Nat) (a : Alarm) : Bool := !a.flags.fired && a.tNextM.micros ≤ latest

/-- The loop reads a clock up to a time, and rescheduled alarms are due after it. -/
def DuesInFuture (latest : Nat) (s : AlarmState) : AlarmOp → Prop
  | .pass => s.clock.micros ≤ latest
  | .callbackReturns => ∀ s', s.step .callbackReturns = some s' → ∀ a ∈ s'.thealarms,
      a ∈ s.thealarms ∨ latest < a.tNextM.micros
  | _ => True

def AlarmOp.adds : AlarmOp → Bool
  | .register _ _ | .registerHr _ _ | .reset _ | .runAlarms => true
  | _ => false

/-- The alarms that are pending and the calls of `run_alarms`. -/
def AlarmState.remaining (latest : Nat) (s : AlarmState) : Nat :=
  s.thealarms.countP (Alarm.isPending latest) + s.frames.length

section Count

variable {thealarms : List Alarm} {a alarm : Alarm}

theorem countP_storeAlarm (p : Alarm → Bool) (alarm : Alarm) (addresses :
    (thealarms.map Alarm.address).Nodup)
    (mem : a ∈ thealarms) (same : alarm.address = a.address) :
    (storeAlarm thealarms alarm).countP p + (if p a then 1 else 0) =
      thealarms.countP p + (if p alarm then 1 else 0) := by
  induction thealarms with
  | nil => cases mem
  | cons first rest ih =>
      rw [List.map_cons] at addresses
      rcases List.nodup_cons.mp addresses with ⟨fresh, addressesRest⟩
      have stored_cons : storeAlarm (first :: rest) alarm =
          (if first.address = alarm.address then alarm else first) :: storeAlarm rest alarm := rfl
      rw [stored_cons, List.countP_cons, List.countP_cons]
      rcases List.mem_cons.mp mem with rfl | mem
      · rw [if_pos same.symm, storeAlarm_of_absent (same ▸ fresh)]
        omega
      · have ne : first.address ≠ alarm.address := by
          intro here
          exact fresh (here.trans same ▸ List.mem_map_of_mem mem)
        rw [if_neg ne]
        have := ih addressesRest mem
        omega

theorem countP_storeAlarm_le (p : Alarm → Bool) (alarm : Alarm) (addresses :
    (thealarms.map Alarm.address).Nodup)
    (mem : a ∈ thealarms) (same : alarm.address = a.address) :
    (storeAlarm thealarms alarm).countP p ≤ thealarms.countP p + 1 := by
  have := countP_storeAlarm p alarm addresses mem same
  split at this
  · split at this <;> omega
  · split at this <;> omega

end Count

variable {s s' : AlarmState} {latest : Nat}

theorem register_remaining (order : AlarmOrder s) (t : Timeval) (flags : AlarmFlags) :
    (s.snmpAlarmRegisterHr t flags).remaining latest ≤ s.remaining latest + 1 := by
  rw [registerHr_eq order, AlarmState.remaining, AlarmState.remaining, List.countP_append]
  have : [s.newAlarm t flags].countP (Alarm.isPending latest) ≤ 1 := List.countP_le_length
  dsimp only
  omega

theorem reset_remaining (order : AlarmOrder s) (clientreg : Nat) :
    (s.snmpAlarmReset clientreg).remaining latest ≤ s.remaining latest + 1 := by
  rw [AlarmState.snmpAlarmReset]
  cases found : saFindSpecific s.thealarms clientreg with
  | none => exact Nat.le_succ _
  | some a =>
      rcases saFindSpecific_mem found with ⟨mem, -⟩
      have := countP_storeAlarm_le (Alarm.isPending latest)
        { a with tLastM := s.clock, tNextM := s.clock.add a.t } order.addresses mem rfl
      rw [AlarmState.remaining, AlarmState.remaining]
      dsimp only
      omega

theorem pass_remaining {outer : List AlarmFrame} (order : AlarmOrder s)
    (frames_eq : s.frames = .scanning :: outer) (inTime : s.clock.micros ≤ latest) :
    (s.pass outer).remaining latest + 1 = s.remaining latest := by
  rw [AlarmState.remaining, AlarmState.remaining, frames_eq, List.length_cons]
  rcases pass_cases s outer with passed | ⟨a, mem, unfired, due, passed⟩
  · rw [passed]
    dsimp only
    omega
  · have counted := countP_storeAlarm (Alarm.isPending latest) a.fire order.addresses mem rfl
    have pending : a.isPending latest = true := by
      simp only [Alarm.isPending, unfired, Bool.not_false, Bool.true_and, decide_eq_true_eq]
      omega
    have fired : a.fire.isPending latest = false := rfl
    rw [if_pos pending, fired] at counted
    rw [passed]
    dsimp only
    rw [List.length_cons]
    simp only [Bool.false_eq_true, if_false, Nat.add_zero] at counted
    omega

theorem callbackReturned_remaining {address clientreg : Nat} {tNow : Timeval}
    {outer : List AlarmFrame} (order : AlarmOrder s)
    (frames_eq : s.frames = .calling address clientreg tNow :: outer)
    (inFuture : ∀ a ∈ (s.callbackReturned clientreg tNow outer).thealarms,
      a ∈ s.thealarms ∨ latest < a.tNextM.micros) :
    (s.callbackReturned clientreg tNow outer).remaining latest ≤ s.remaining latest := by
  have running : .calling address clientreg tNow ∈ s.frames := by
    rw [frames_eq]
    exact List.mem_cons_self
  rw [AlarmState.remaining, AlarmState.remaining]
  rcases callbackReturned_cases order frames_eq with ⟨returned, -⟩ |
    ⟨a, mem, here, -, ⟨-, -, returned⟩ | ⟨-, returned⟩⟩
  · rw [returned, frames_eq]
    exact le_rfl
  · rw [returned] at inFuture
    rw [returned, frames_eq]
    have counted := countP_storeAlarm (Alarm.isPending latest) (a.again tNow)
      order.addresses mem rfl
    -- The alarm was called, so its new due time is not the old one.
    have fired : a.flags.fired = true := ((order.calling _ _ _ running).2.2 a mem).2 here
    have stored : a.again tNow ∈ storeAlarm s.thealarms (a.again tNow) :=
      List.mem_map.mpr ⟨a, mem, if_pos rfl⟩
    have later : latest < (a.again tNow).tNextM.micros := by
      apply (inFuture _ stored).resolve_left
      intro old
      have := ((order.calling _ _ _ running).2.2 _ old).2 here
      cases this
    have notPending : (a.again tNow).isPending latest = false := by
      simp only [Alarm.isPending, Bool.and_eq_false_iff, decide_eq_false_iff_not]
      right
      omega
    rw [notPending] at counted
    simp only [Bool.false_eq_true, if_false, Nat.add_zero] at counted
    dsimp only
    rw [List.length_cons, List.length_cons]
    omega
  · rw [returned, frames_eq]
    exact Nat.add_le_add_right (List.eraseP_sublist.countP_le) _

theorem step_remaining {op : AlarmOp} (order : AlarmOrder s) (inFuture : DuesInFuture latest s op)
    (stepped : s.step op = some s') :
    s'.remaining latest + (if op = .pass then 1 else 0) ≤
      s.remaining latest + (if op.adds then 1 else 0) := by
  cases op with
  | register when flags =>
      cases (Option.ite_none_right_eq_some.mp stepped).2
      exact register_remaining order _ flags
  | registerHr t flags =>
      cases (Option.ite_none_right_eq_some.mp stepped).2
      exact register_remaining order t flags
  | unregister clientreg =>
      cases (Option.ite_none_right_eq_some.mp stepped).2
      exact Nat.add_le_add_right (List.eraseP_sublist.countP_le) _
  | reset clientreg =>
      cases (Option.ite_none_right_eq_some.mp stepped).2
      exact reset_remaining order clientreg
  | advance time =>
      cases stepped
      exact le_rfl
  | runAlarms =>
      cases (Option.ite_none_right_eq_some.mp stepped).2
      exact le_rfl
  | pass =>
      rw [AlarmState.step] at stepped
      split at stepped
      · rename_i outer frames_eq
        cases stepped
        exact le_of_eq (pass_remaining order frames_eq inFuture)
      · cases stepped
  | callbackReturns =>
      have inFuture := inFuture s' stepped
      rw [AlarmState.step] at stepped
      split at stepped
      · rename_i address clientreg tNow outer frames_eq
        cases stepped
        exact callbackReturned_remaining order frames_eq inFuture
      · cases stepped

theorem run_remaining {ops : List AlarmOp} (order : AlarmOrder s) (history : AlarmHistory s)
    (run : AlarmRun (fun s op => ProperOp s op ∧ DuesInFuture latest s op) s ops s') :
    ops.count .pass + s'.remaining latest ≤ s.remaining latest + ops.countP AlarmOp.adds ∧
      AlarmOrder s' ∧ AlarmHistory s' := by
  induction run with
  | refl => exact ⟨by simp, order, history⟩
  | step op run isAllowed stepped ih =>
      rcases ih with ⟨bound, order', history'⟩
      refine ⟨?_, step_order order' history' isAllowed.1 stepped⟩
      have := step_remaining order' isAllowed.2 stepped
      rw [List.count_cons, List.countP_cons]
      simp only [beq_iff_eq]
      omega

end NetSnmp
