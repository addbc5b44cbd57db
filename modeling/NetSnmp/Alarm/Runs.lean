import Mathlib.Data.List.Nodup
import NetSnmp.Alarm.Alarms

/-!
# Runs of the alarms

What holds of the alarms and of the callbacks that were called, whatever the
application and its callbacks do in between.
-/

namespace NetSnmp

/-- The steps from one state to another, as long as they are allowed. -/
inductive AlarmRun (allowed : AlarmState → AlarmOp → Prop) (s : AlarmState) :
    List AlarmOp → AlarmState → Prop
  | refl : AlarmRun allowed s [] s
  | step {ops : List AlarmOp} {s' s'' : AlarmState} (op : AlarmOp) (run : AlarmRun allowed s ops s')
      (isAllowed : allowed s' op) (stepped : s'.step op = some s'') :
      AlarmRun allowed s (op :: ops) s''

/-- The id of a new alarm is not that of one in the list or of one whose callback is running. -/
def AlarmState.NewId (s : AlarmState) : Prop :=
  (∀ a ∈ s.thealarms, a.clientreg ≠ s.regnum) ∧
    ∀ address tNow, .calling address s.regnum tNow ∉ s.frames

/-- New ids are not in use, and the clock does not read zero, which stands for a time that is not
set. -/
def ProperOp (s : AlarmState) : AlarmOp → Prop
  | .register _ _ => s.NewId
  | .registerHr _ _ => s.NewId
  | .pass => s.clock.isSet = true
  | _ => True

def AlarmFrame.callee : AlarmFrame → Option Addr
  | .scanning => none
  | .calling address _ _ => some address

def AlarmEvent.address : AlarmEvent → Addr
  | .registered address _ => address
  | .called address _ _ => address
  | .scheduled address _ => address
  | .rescheduled address _ _ => address

def AlarmEvent.isCallOf (address : Addr) : AlarmEvent → Bool
  | .called other _ _ => other = address
  | _ => false

/-- How often the callback of the alarm was called. -/
def AlarmState.calls (s : AlarmState) (address : Addr) : Nat :=
  s.events.countP (AlarmEvent.isCallOf address)

structure AlarmOrder (s : AlarmState) : Prop where
  ids : (s.thealarms.map Alarm.clientreg).Nodup
  addresses : (s.thealarms.map Alarm.address).Nodup
  fresh : ∀ a ∈ s.thealarms, a.address < s.fresh
  callees : (s.frames.filterMap AlarmFrame.callee).Nodup
  calling : ∀ address clientreg tNow, .calling address clientreg tNow ∈ s.frames →
    tNow.isSet = true ∧ address < s.fresh ∧ ∀ a ∈ s.thealarms,
      (a.clientreg = clientreg ↔ a.address = address) ∧ (a.address = address → a.flags.fired = true)

structure AlarmHistory (s : AlarmState) : Prop where
  fresh : ∀ event ∈ s.events, event.address < s.fresh
  registered : ∀ a ∈ s.thealarms, ∀ flags, .registered a.address flags ∈ s.events →
    flags.repeats = a.flags.repeats
  once : ∀ address flags, .registered address flags ∈ s.events → flags.repeats = false →
    s.calls address ≤ 1 ∧ (s.calls address = 1 →
      address ∉ s.thealarms.map Alarm.address ∨ address ∈ s.frames.filterMap AlarmFrame.callee)
  due : ∀ address due tNow, .called address due tNow ∈ s.events → due.micros ≤ tNow.micros
  later : ∀ address tNow due, .rescheduled address tNow due ∈ s.events → tNow.micros < due.micros

section Lists

variable {thealarms : List Alarm} {a alarm other : Alarm} {clientreg : Nat}

theorem saFindNextLoop_mem {lowest : Option Alarm}
    (unfired : ∀ a, lowest = some a → a.flags.fired = false)
    (found : saFindNextLoop thealarms lowest = some a) :
    (a ∈ thealarms ∨ lowest = some a) ∧ a.flags.fired = false := by
  induction thealarms generalizing lowest with
  | nil => exact ⟨.inr found, unfired a found⟩
  | cons first rest ih =>
      rw [saFindNextLoop] at found
      split at found
      · rename_i better
        rw [Bool.and_eq_true, Bool.not_eq_true'] at better
        rcases ih (by rintro _ ⟨rfl⟩; exact better.1) found with ⟨mem | same, notFired⟩
        · exact ⟨.inl (List.mem_cons_of_mem _ mem), notFired⟩
        · cases same
          exact ⟨.inl List.mem_cons_self, notFired⟩
      · rcases ih unfired found with ⟨mem | same, notFired⟩
        · exact ⟨.inl (List.mem_cons_of_mem _ mem), notFired⟩
        · exact ⟨.inr same, notFired⟩

theorem saFindNext_mem (found : saFindNext thealarms = some a) :
    a ∈ thealarms ∧ a.flags.fired = false := by
  rcases saFindNextLoop_mem (by simp) found with ⟨mem | absurdity, notFired⟩
  · exact ⟨mem, notFired⟩
  · cases absurdity

theorem saFindSpecific_mem (found : saFindSpecific thealarms clientreg = some a) :
    a ∈ thealarms ∧ a.clientreg = clientreg := by
  have same := List.find?_some (p := fun alarm : Alarm =>
    decide (alarm.clientreg = clientreg)) found
  exact ⟨List.mem_of_find?_eq_some found, of_decide_eq_true same⟩

theorem saFindSpecific_none (missing : saFindSpecific thealarms clientreg = none) :
    ∀ a ∈ thealarms, a.clientreg ≠ clientreg := by
  intro a mem same
  exact List.find?_eq_none.mp missing a mem (by simpa using same)

theorem mem_storeAlarm (mem : other ∈ storeAlarm thealarms alarm) :
    other = alarm ∨ other ∈ thealarms ∧ other.address ≠ alarm.address := by
  rcases List.mem_map.mp mem with ⟨first, firstMem, stored⟩
  split at stored
  · exact .inl stored.symm
  · rename_i ne
    rw [← stored]
    exact .inr ⟨firstMem, ne⟩

theorem storeAlarm_of_absent (absent : alarm.address ∉ thealarms.map Alarm.address) :
    storeAlarm thealarms alarm = thealarms := by
  rw [storeAlarm]
  conv_rhs => rw [← List.map_id thealarms]
  apply List.map_congr_left
  intro a mem
  apply if_neg
  intro same
  exact absent (same ▸ List.mem_map_of_mem mem)

theorem map_storeAlarm {β : Type} (f : Alarm → β) (addresses : (thealarms.map Alarm.address).Nodup)
    (mem : a ∈ thealarms) (same : alarm.address = a.address) (kept : f alarm = f a) :
    (storeAlarm thealarms alarm).map f = thealarms.map f := by
  rw [storeAlarm, List.map_map]
  apply List.map_congr_left
  intro other otherMem
  rw [Function.comp_apply]
  split
  · rename_i here
    rw [kept, List.inj_on_of_nodup_map addresses otherMem mem (here.trans same)]
  · rfl

theorem mem_unregister (mem : other ∈ snmpAlarmUnregister thealarms clientreg) :
    other ∈ thealarms :=
  List.mem_of_mem_eraseP mem

theorem not_mem_unregister (ids : (thealarms.map Alarm.clientreg).Nodup)
    (mem : other ∈ snmpAlarmUnregister thealarms clientreg) : other.clientreg ≠ clientreg := by
  induction thealarms with
  | nil => cases mem
  | cons first rest ih =>
      rw [List.map_cons] at ids
      rcases List.nodup_cons.mp ids with ⟨fresh, idsRest⟩
      rw [snmpAlarmUnregister] at mem
      by_cases here : first.clientreg = clientreg
      · rw [List.eraseP_cons_of_pos (by simpa using here)] at mem
        intro same
        apply fresh
        rw [here, ← same]
        exact List.mem_map_of_mem mem
      · rw [List.eraseP_cons_of_neg (by simpa using here)] at mem
        rcases List.mem_cons.mp mem with rfl | mem
        · exact here
        · exact ih idsRest mem

end Lists

/-- The event is neither a call nor a registration, and a next due time is behind the call. -/
def AlarmEvent.isSchedule (fresh : Addr) : AlarmEvent → Prop
  | .registered _ _ => False
  | .called _ _ _ => False
  | .scheduled address _ => address < fresh
  | .rescheduled address tNow due => address < fresh ∧ tNow.micros < due.micros

/-- No alarm is new and no callback is called; an alarm that is not in the list any more, or whose
callback has returned, need not be as before. -/
structure AlarmKept (s s' : AlarmState) : Prop where
  fresh_eq : s'.fresh = s.fresh
  alarms : ∀ a' ∈ s'.thealarms, ∃ a ∈ s.thealarms, a'.address = a.address ∧
    a'.clientreg = a.clientreg ∧ a'.flags.repeats = a.flags.repeats ∧
    (a.address ∈ s'.frames.filterMap AlarmFrame.callee → a.flags.fired = true →
      a'.flags.fired = true)
  ids : (s'.thealarms.map Alarm.clientreg).Sublist (s.thealarms.map Alarm.clientreg)
  addresses : (s'.thealarms.map Alarm.address).Sublist (s.thealarms.map Alarm.address)
  callees : (s'.frames.filterMap AlarmFrame.callee).Sublist (s.frames.filterMap AlarmFrame.callee)
  calling : ∀ address clientreg tNow, .calling address clientreg tNow ∈ s'.frames →
    .calling address clientreg tNow ∈ s.frames
  events : ∃ new, s'.events = new ++ s.events ∧ ∀ event ∈ new, event.isSchedule s.fresh
  finished : ∀ address ∈ s.frames.filterMap AlarmFrame.callee,
    address ∈ s'.frames.filterMap AlarmFrame.callee ∨
      ∀ a' ∈ s'.thealarms, a'.address = address → a'.flags.repeats = true

section Kept

variable {s s' : AlarmState}

theorem mem_callees {address : Addr} :
    address ∈ s.frames.filterMap AlarmFrame.callee ↔
      ∃ clientreg tNow, .calling address clientreg tNow ∈ s.frames := by
  rw [List.mem_filterMap]
  constructor
  · rintro ⟨frame, mem, callee⟩
    cases frame with
    | scanning => cases callee
    | calling other clientreg tNow =>
        cases callee
        exact ⟨clientreg, tNow, mem⟩
  · rintro ⟨clientreg, tNow, mem⟩
    exact ⟨_, mem, rfl⟩

theorem AlarmOrder.of_kept (order : AlarmOrder s) (kept : AlarmKept s s') : AlarmOrder s' := by
  refine ⟨order.ids.sublist kept.ids, order.addresses.sublist kept.addresses, ?_,
    order.callees.sublist kept.callees, ?_⟩
  · intro a' mem
    rcases kept.alarms a' mem with ⟨a, aMem, address_eq, -⟩
    rw [address_eq, kept.fresh_eq]
    exact order.fresh a aMem
  · intro address clientreg tNow mem
    rcases order.calling address clientreg tNow (kept.calling _ _ _ mem) with ⟨isSet, lt, callee⟩
    refine ⟨isSet, by rw [kept.fresh_eq]; exact lt, ?_⟩
    intro a' aMem'
    rcases kept.alarms a' aMem' with ⟨a, aMem, address_eq, clientreg_eq, -, fired⟩
    rcases callee a aMem with ⟨same_iff, isFired⟩
    rw [address_eq, clientreg_eq]
    refine ⟨same_iff, ?_⟩
    intro here
    apply fired _ (isFired here)
    rw [here]
    exact mem_callees.mpr ⟨clientreg, tNow, mem⟩

theorem calls_append {new : List AlarmEvent} (events_eq : s'.events = new ++ s.events)
    (schedules : ∀ event ∈ new, event.isSchedule s.fresh) (address : Addr) :
    s'.calls address = s.calls address := by
  have none : new.countP (AlarmEvent.isCallOf address) = 0 := by
    apply List.countP_eq_zero.mpr
    intro event mem
    have isSchedule := schedules event mem
    cases event <;> first | exact isSchedule.elim | simp [AlarmEvent.isCallOf]
  rw [AlarmState.calls, AlarmState.calls, events_eq, List.countP_append, none, Nat.zero_add]

theorem AlarmHistory.of_kept (history : AlarmHistory s) (kept : AlarmKept s s') :
    AlarmHistory s' := by
  rcases kept.events with ⟨new, events_eq, schedules⟩
  have old {event : AlarmEvent} (mem : event ∈ s'.events) :
      event ∈ s.events ∨ event.isSchedule s.fresh := by
    rw [events_eq] at mem
    rcases List.mem_append.mp mem with mem | mem
    · exact .inr (schedules event mem)
    · exact .inl mem
  have registered {address : Addr} {flags : AlarmFlags}
      (mem : .registered address flags ∈ s'.events) : .registered address flags ∈ s.events :=
    (old mem).resolve_right id
  constructor
  · intro event mem
    rw [kept.fresh_eq]
    rcases old mem with mem | isSchedule
    · exact history.fresh event mem
    · cases event with
      | registered address flags => exact isSchedule.elim
      | called address due tNow => exact isSchedule.elim
      | scheduled address due => exact isSchedule
      | rescheduled address tNow due => exact isSchedule.1
  · intro a' mem flags isRegistered
    rcases kept.alarms a' mem with ⟨a, aMem, address_eq, -, repeats_eq, -⟩
    rw [address_eq] at isRegistered
    rw [repeats_eq]
    exact history.registered a aMem flags (registered isRegistered)
  · intro address flags isRegistered oneShot
    rw [calls_append events_eq schedules]
    rcases history.once address flags (registered isRegistered) oneShot with ⟨le, called⟩
    refine ⟨le, fun one => ?_⟩
    rcases called one with absent | running
    · left
      intro mem
      exact absent (kept.addresses.subset mem)
    · rcases kept.finished address running with still | repeating
      · exact .inr still
      · left
        intro mem
        rcases List.mem_map.mp mem with ⟨a', aMem', rfl⟩
        rcases kept.alarms a' aMem' with ⟨a, aMem, address_eq, -, repeats_eq, -⟩
        have flags_eq := history.registered a aMem flags
          (by rw [← address_eq]; exact registered isRegistered)
        rw [oneShot, ← repeats_eq, repeating a' aMem' rfl] at flags_eq
        cases flags_eq
  · intro address due tNow mem
    exact history.due address due tNow ((old mem).resolve_right id)
  · intro address tNow due mem
    rcases old mem with mem | isSchedule
    · exact history.later address tNow due mem
    · exact isSchedule.2

end Kept

section Register

variable {s : AlarmState} {t : Timeval} {flags : AlarmFlags}

theorem storeAlarm_concat {thealarms : List Alarm} {old alarm : Alarm}
    (absent : alarm.address ∉ thealarms.map Alarm.address) (same : old.address = alarm.address) :
    storeAlarm (thealarms ++ [old]) alarm = thealarms ++ [alarm] := by
  have kept := storeAlarm_of_absent absent
  rw [storeAlarm, List.map_append, List.map_singleton, if_pos same]
  exact congrArg (· ++ [alarm]) kept

theorem AlarmOrder.fresh_not_mem (order : AlarmOrder s) :
    s.fresh ∉ s.thealarms.map Alarm.address := by
  intro mem
  rcases List.mem_map.mp mem with ⟨a, aMem, same⟩
  exact absurd same (ne_of_lt (order.fresh a aMem))

def AlarmState.newAlarm (s : AlarmState) (t : Timeval) (flags : AlarmFlags) : Alarm :=
  ⟨s.fresh, t, flags, s.regnum, s.clock, s.clock.add t⟩

theorem registerHr_eq (order : AlarmOrder s) :
    s.snmpAlarmRegisterHr t flags =
      { s with
        thealarms := s.thealarms ++ [s.newAlarm t flags]
        regnum := (s.regnum + 1) % 2 ^ 32
        fresh := s.fresh + 1
        events := .scheduled s.fresh (s.clock.add t) :: .registered s.fresh flags ::
          s.events } := by
  have stored : storeAlarm (s.thealarms ++ [⟨s.fresh, t, flags, s.regnum, .zero, .zero⟩])
      (s.newAlarm t flags) = s.thealarms ++ [s.newAlarm t flags] :=
    storeAlarm_concat order.fresh_not_mem rfl
  rw [AlarmState.snmpAlarmRegisterHr, saUpdateEntry, if_pos (by rfl)]
  simp only [← stored]
  rfl

theorem registerHr_order (order : AlarmOrder s) (newId : s.NewId) :
    AlarmOrder (s.snmpAlarmRegisterHr t flags) := by
  rw [registerHr_eq order]
  have freshId : s.regnum ∉ s.thealarms.map Alarm.clientreg := by
    intro mem
    rcases List.mem_map.mp mem with ⟨a, aMem, same⟩
    exact newId.1 a aMem same
  constructor
  · rw [List.map_append, List.map_singleton, ← List.concat_eq_append]
    exact order.ids.concat freshId
  · rw [List.map_append, List.map_singleton, ← List.concat_eq_append]
    exact order.addresses.concat order.fresh_not_mem
  · intro a mem
    rcases List.mem_append.mp mem with mem | mem
    · exact Nat.lt_succ_of_lt (order.fresh a mem)
    · rw [List.mem_singleton.mp mem]
      exact Nat.lt_succ_self s.fresh
  · exact order.callees
  · intro address clientreg tNow mem
    rcases order.calling address clientreg tNow mem with ⟨isSet, lt, callee⟩
    refine ⟨isSet, Nat.lt_succ_of_lt lt, ?_⟩
    intro a aMem
    rcases List.mem_append.mp aMem with aMem | aMem
    · exact callee a aMem
    · rw [List.mem_singleton.mp aMem]
      have otherAddress : s.fresh ≠ address := ne_of_gt lt
      have otherId : s.regnum ≠ clientreg := by
        rintro rfl
        exact newId.2 address tNow mem
      exact ⟨iff_of_false otherId otherAddress, fun same => absurd same otherAddress⟩

theorem calls_of_fresh (history : AlarmHistory s) {address : Addr} (fresh : s.fresh ≤ address) :
    s.calls address = 0 := by
  apply List.countP_eq_zero.mpr
  intro event mem isCall
  have lt := history.fresh event mem
  cases event with
  | called other due tNow =>
      have same : other = address := of_decide_eq_true isCall
      rw [AlarmEvent.address, same] at lt
      exact absurd lt (not_lt_of_ge fresh)
  | registered other flags => cases isCall
  | scheduled other due => cases isCall
  | rescheduled other tNow due => cases isCall

theorem registerHr_history (order : AlarmOrder s) (history : AlarmHistory s) :
    AlarmHistory (s.snmpAlarmRegisterHr t flags) := by
  rw [registerHr_eq order]
  have calls_eq (address : Addr) :
      (AlarmEvent.scheduled s.fresh (s.clock.add t) :: .registered s.fresh flags :: s.events).countP
        (AlarmEvent.isCallOf address) = s.calls address := by
    rw [List.countP_cons_of_neg (by simp [AlarmEvent.isCallOf]),
      List.countP_cons_of_neg (by simp [AlarmEvent.isCallOf])]
    rfl
  constructor
  · intro event mem
    rcases List.mem_cons.mp mem with rfl | mem
    · exact Nat.lt_succ_self s.fresh
    · rcases List.mem_cons.mp mem with rfl | mem
      · exact Nat.lt_succ_self s.fresh
      · exact Nat.lt_succ_of_lt (history.fresh event mem)
  · intro a aMem flags' mem
    have older := (List.mem_cons.mp mem).resolve_left (by simp)
    rcases List.mem_append.mp aMem with aMem | aMem
    · have lt := order.fresh a aMem
      rcases List.mem_cons.mp older with same | older
      · rw [(AlarmEvent.registered.inj same).1] at lt
        exact absurd lt (lt_irrefl _)
      · exact history.registered a aMem flags' older
    · rw [List.mem_singleton.mp aMem] at older ⊢
      rcases List.mem_cons.mp older with same | older
      · cases same
        rfl
      · exact absurd (history.fresh _ older) (lt_irrefl _)
  · intro address flags' mem oneShot
    rw [AlarmState.calls, calls_eq address]
    have older := (List.mem_cons.mp mem).resolve_left (by simp)
    rcases List.mem_cons.mp older with same | older
    · cases same
      rw [calls_of_fresh history le_rfl]
      exact ⟨Nat.zero_le 1, fun absurdity => absurd absurdity (by decide)⟩
    · rcases history.once address flags' older oneShot with ⟨le, called⟩
      refine ⟨le, fun one => ?_⟩
      apply (called one).imp_left
      intro absent listed
      rw [List.map_append, List.mem_append] at listed
      rcases listed with listed | listed
      · exact absent listed
      · have same : address = s.fresh := List.mem_singleton.mp listed
        have lt := history.fresh _ older
        rw [AlarmEvent.address, same] at lt
        exact absurd lt (lt_irrefl _)
  · intro address due tNow mem
    have older := (List.mem_cons.mp mem).resolve_left (by simp)
    exact history.due address due tNow ((List.mem_cons.mp older).resolve_left (by simp))
  · intro address tNow due mem
    have older := (List.mem_cons.mp mem).resolve_left (by simp)
    exact history.later address tNow due ((List.mem_cons.mp older).resolve_left (by simp))

end Register

section Pass

variable {s : AlarmState} {outer : List AlarmFrame} {a : Alarm}

def Alarm.fire (a : Alarm) : Alarm := { a with flags := { a.flags with fired := true } }

theorem pass_cases (s : AlarmState) (outer : List AlarmFrame) :
    s.pass outer = { s with frames := outer } ∨
      ∃ a ∈ s.thealarms, a.flags.fired = false ∧ a.tNextM.micros ≤ s.clock.micros ∧
        s.pass outer = { s with
          thealarms := storeAlarm s.thealarms a.fire
          frames := .calling a.address a.clientreg s.clock :: outer
          events := .called a.address a.tNextM s.clock :: s.events } := by
  rw [AlarmState.pass]
  cases found : saFindNext s.thealarms with
  | none => exact .inl rfl
  | some a =>
      rcases saFindNext_mem found with ⟨mem, unfired⟩
      by_cases early : s.clock.before a.tNextM = true
      · left
        simp only [if_pos early]
      · right
        refine ⟨a, mem, unfired, ?_, ?_⟩
        · rw [Timeval.before_iff] at early
          omega
        · simp only [if_neg early]
          rfl

theorem pass_order (order : AlarmOrder s) (frames_eq : s.frames = .scanning :: outer)
    (clockSet : s.clock.isSet = true) : AlarmOrder (s.pass outer) := by
  have callees : (outer.filterMap AlarmFrame.callee).Nodup := by
    have nodup := order.callees
    rwa [frames_eq] at nodup
  have calling : ∀ address clientreg tNow, .calling address clientreg tNow ∈ outer →
      .calling address clientreg tNow ∈ s.frames := by
    intro address clientreg tNow mem
    rw [frames_eq]
    exact List.mem_cons_of_mem _ mem
  rcases pass_cases s outer with passed | ⟨a, aMem, unfired, -, passed⟩
  · rw [passed]
    exact ⟨order.ids, order.addresses, order.fresh, callees,
      fun address clientreg tNow mem => order.calling address clientreg tNow (calling _ _ _ mem)⟩
  · rw [passed]
    have stored {b : Alarm} (mem : b ∈ storeAlarm s.thealarms a.fire) :
        ∃ c ∈ s.thealarms, b.address = c.address ∧ b.clientreg = c.clientreg ∧
          (c.flags.fired = true → b.flags.fired = true) := by
      rcases mem_storeAlarm mem with rfl | ⟨mem, -⟩
      · exact ⟨a, aMem, rfl, rfl, fun _ => rfl⟩
      · exact ⟨b, mem, rfl, rfl, id⟩
    have ids_eq : (storeAlarm s.thealarms a.fire).map Alarm.clientreg =
      s.thealarms.map Alarm.clientreg :=
      map_storeAlarm _ order.addresses aMem rfl rfl
    have addresses_eq : (storeAlarm s.thealarms a.fire).map Alarm.address =
      s.thealarms.map Alarm.address :=
      map_storeAlarm _ order.addresses aMem rfl rfl
    constructor
    · exact ids_eq ▸ order.ids
    · exact addresses_eq ▸ order.addresses
    · intro b mem
      rcases stored mem with ⟨c, cMem, address_eq, -⟩
      rw [address_eq]
      exact order.fresh c cMem
    · refine List.nodup_cons.mpr ⟨?_, callees⟩
      intro mem
      have running : a.address ∈ s.frames.filterMap AlarmFrame.callee := by
        rw [frames_eq]
        exact mem
      rcases mem_callees.mp running with ⟨clientreg, tNow, mem⟩
      have fired := ((order.calling _ _ _ mem).2.2 a aMem).2 rfl
      rw [unfired] at fired
      cases fired
    · intro address clientreg tNow mem
      rcases List.mem_cons.mp mem with same | mem
      · cases same
        refine ⟨clockSet, order.fresh a aMem, ?_⟩
        intro b bMem
        refine ⟨?_, ?_⟩
        · rcases stored bMem with ⟨c, cMem, address_eq, clientreg_eq, -⟩
          rw [address_eq, clientreg_eq]
          constructor
          · intro same
            rw [List.inj_on_of_nodup_map order.ids cMem aMem same]
          · intro same
            rw [List.inj_on_of_nodup_map order.addresses cMem aMem same]
        · intro same
          rcases mem_storeAlarm bMem with rfl | ⟨-, ne⟩
          · rfl
          · exact absurd same ne
      · rcases order.calling _ _ _ (calling _ _ _ mem) with ⟨isSet, lt, callee⟩
        refine ⟨isSet, lt, ?_⟩
        intro b bMem
        rcases stored bMem with ⟨c, cMem, address_eq, clientreg_eq, fired⟩
        rcases callee c cMem with ⟨same_iff, isFired⟩
        rw [address_eq, clientreg_eq]
        exact ⟨same_iff, fun same => fired (isFired same)⟩

theorem pass_history (order : AlarmOrder s) (history : AlarmHistory s)
    (frames_eq : s.frames = .scanning :: outer) : AlarmHistory (s.pass outer) := by
  have callees_eq : s.frames.filterMap AlarmFrame.callee = outer.filterMap AlarmFrame.callee := by
    rw [frames_eq]
    rfl
  rcases pass_cases s outer with passed | ⟨a, aMem, unfired, due, passed⟩
  · rw [passed]
    refine ⟨history.fresh, history.registered, ?_, history.due, history.later⟩
    intro address flags mem oneShot
    have once := history.once address flags mem oneShot
    rw [callees_eq] at once
    exact once
  · rw [passed]
    have notRunning : a.address ∉ s.frames.filterMap AlarmFrame.callee := by
      intro running
      rcases mem_callees.mp running with ⟨clientreg, tNow, mem⟩
      have fired := ((order.calling _ _ _ mem).2.2 a aMem).2 rfl
      rw [unfired] at fired
      cases fired
    constructor
    · intro event mem
      rcases List.mem_cons.mp mem with rfl | mem
      · exact order.fresh a aMem
      · exact history.fresh event mem
    · intro b bMem flags mem
      have older := (List.mem_cons.mp mem).resolve_left (by simp)
      rcases mem_storeAlarm bMem with rfl | ⟨bMem, -⟩
      · exact history.registered a aMem flags older
      · exact history.registered b bMem flags older
    · intro address flags mem oneShot
      have older := (List.mem_cons.mp mem).resolve_left (by simp)
      rcases history.once address flags older oneShot with ⟨le, called⟩
      by_cases here : address = a.address
      · have zero : s.calls address = 0 := by
          by_contra some_call
          have one : s.calls address = 1 := by omega
          rcases called one with absent | running
          · exact absent (here ▸ List.mem_map_of_mem aMem)
          · exact notRunning (here ▸ running)
        have one : (AlarmEvent.called a.address a.tNextM s.clock :: s.events).countP
            (AlarmEvent.isCallOf address) = 1 := by
          rw [List.countP_cons_of_pos (by simp [AlarmEvent.isCallOf, here])]
          exact congrArg (· + 1) zero
        refine ⟨le_of_eq one, fun _ => .inr ?_⟩
        rw [here]
        exact List.mem_cons_self
      · have same : (AlarmEvent.called a.address a.tNextM s.clock :: s.events).countP
            (AlarmEvent.isCallOf address) = s.calls address := by
          rw [List.countP_cons_of_neg (by simpa [AlarmEvent.isCallOf] using Ne.symm here)]
          rfl
        have addresses_eq : (storeAlarm s.thealarms a.fire).map Alarm.address =
          s.thealarms.map Alarm.address :=
          map_storeAlarm _ order.addresses aMem rfl rfl
        rw [AlarmState.calls, same, addresses_eq]
        refine ⟨le, fun one => (called one).imp_right fun running => ?_⟩
        rw [callees_eq] at running
        exact List.mem_cons_of_mem _ running
    · intro address due' tNow mem
      rcases List.mem_cons.mp mem with same | mem
      · cases same
        exact due
      · exact history.due address due' tNow mem
    · intro address tNow due' mem
      exact history.later address tNow due' ((List.mem_cons.mp mem).resolve_left (by simp))

end Pass

end NetSnmp
