import Mathlib.Data.List.Basic
import NetSnmp.LinkedList
import NetSnmp.Timeval

/-!
# Alarms

`snmp_alarm_register_hr`, `snmp_alarm_unregister`, `snmp_alarm_reset` and `run_alarms`.

A pass of the loop in `run_alarms` is a step, and so is the return of a callback, so
that a callback may call any of the routines, `run_alarms` included, and the clock
may advance at any time.
-/

namespace NetSnmp

/-- `SA_REPEAT` and `SA_FIRED` -/
structure AlarmFlags where
  repeats : Bool
  fired : Bool
  deriving DecidableEq, Repr

/-- A `struct snmp_alarm`; its address is used once only. -/
structure Alarm where
  address : Addr
  t : Timeval
  flags : AlarmFlags
  clientreg : Nat
  tLastM : Timeval
  tNextM : Timeval
  deriving DecidableEq, Repr

/-- A call of `run_alarms`. -/
inductive AlarmFrame where
  | scanning
  /-- The callback of the alarm at an address is running, that was called at `tNow`. -/
  | calling (address : Addr) (clientreg : Nat) (tNow : Timeval)
  deriving DecidableEq, Repr

inductive AlarmEvent where
  | registered (address : Addr) (flags : AlarmFlags)
  /-- The callback is called at `tNow`, and was due at `due`. -/
  | called (address : Addr) (due tNow : Timeval)
  /-- The alarm gets its first due time, or one by a reset. -/
  | scheduled (address : Addr) (due : Timeval)
  /-- The alarm that was called at `tNow` gets its next due time. -/
  | rescheduled (address : Addr) (tNow due : Timeval)
  deriving DecidableEq, Repr

/-- The alarms in the list, the counter of their ids, the clock, the calls of `run_alarms` with the
innermost one first, and what happened so far, the last event first. -/
structure AlarmState where
  thealarms : List Alarm
  regnum : Nat
  clock : Timeval
  frames : List AlarmFrame
  fresh : Addr
  events : List AlarmEvent
  deriving DecidableEq, Repr

def Alarm.isBetter (a : Alarm) : (lowest : Option Alarm) → Bool
  | none => true
  | some lowest => a.tNextM.before lowest.tNextM

/-- The loop of `sa_find_next`; `lowest` is the best alarm so far. -/
def saFindNextLoop : List Alarm → (lowest : Option Alarm) → Option Alarm
  | [], lowest => lowest
  | a :: rest, lowest =>
      if !a.flags.fired && a.isBetter lowest then saFindNextLoop rest (some a)
      else saFindNextLoop rest lowest

def saFindNext (thealarms : List Alarm) : Option Alarm := saFindNextLoop thealarms none

def saFindSpecific (thealarms : List Alarm) (clientreg : Nat) : Option Alarm :=
  thealarms.find? fun alarm => alarm.clientreg = clientreg

def snmpAlarmUnregister (thealarms : List Alarm) (clientreg : Nat) : List Alarm :=
  thealarms.eraseP fun alarm => alarm.clientreg = clientreg

def storeAlarm (thealarms : List Alarm) (alarm : Alarm) : List Alarm :=
  thealarms.map fun other => if other.address = alarm.address then alarm else other

/-- `sa_update_entry` of an alarm with the given fields, and the due time that it sets. -/
def saUpdateEntry (clock : Timeval) (thealarms : List Alarm) (a : Alarm) :
    List Alarm × Option Timeval :=
  if !a.tLastM.isSet then
    let due := clock.add a.t
    (storeAlarm thealarms { a with tLastM := clock, tNextM := due }, some due)
  else if !a.tNextM.isSet then
    if a.flags.repeats then
      if a.t.isSet then
        let due := a.tLastM.add a.t
        (storeAlarm thealarms { a with tNextM := due }, some due)
      else (snmpAlarmUnregister thealarms a.clientreg, none)
    else (snmpAlarmUnregister thealarms a.clientreg, none)
  else (storeAlarm thealarms a, none)

namespace AlarmState

def snmpAlarmRegisterHr (s : AlarmState) (t : Timeval) (flags : AlarmFlags) : AlarmState :=
  let alarm : Alarm := ⟨s.fresh, t, flags, s.regnum, .zero, .zero⟩
  let (thealarms, due) := saUpdateEntry s.clock (s.thealarms ++ [alarm]) alarm
  { s with
    thealarms
    regnum := (s.regnum + 1) % 2 ^ 32
    fresh := s.fresh + 1
    events := due.toList.map (.scheduled s.fresh) ++ .registered s.fresh flags :: s.events }

def snmpAlarmRegister (s : AlarmState) (when : Nat) (flags : AlarmFlags) : AlarmState :=
  s.snmpAlarmRegisterHr (if when = 0 then ⟨0, 1, by decide⟩ else ⟨when, 0, Timeval.zero.normalized⟩)
    flags

def snmpAlarmReset (s : AlarmState) (clientreg : Nat) : AlarmState :=
  match saFindSpecific s.thealarms clientreg with
  | none => s
  | some a =>
      let due := s.clock.add a.t
      { s with
        thealarms := storeAlarm s.thealarms { a with tLastM := s.clock, tNextM := due }
        events := .scheduled a.address due :: s.events }

/-- A pass of the loop in `run_alarms`: it returns, or calls the callback of the next alarm. -/
def pass (s : AlarmState) (outer : List AlarmFrame) : AlarmState :=
  match saFindNext s.thealarms with
  | none => { s with frames := outer }
  | some a =>
      if s.clock.before a.tNextM then { s with frames := outer }
      else
        { s with
          thealarms := storeAlarm s.thealarms { a with flags := { a.flags with fired := true } }
          frames := .calling a.address a.clientreg s.clock :: outer
          events := .called a.address a.tNextM s.clock :: s.events }

/-- What `run_alarms` does when a callback has returned. -/
def callbackReturned (s : AlarmState) (clientreg : Nat) (tNow : Timeval) (outer : List AlarmFrame) :
    AlarmState :=
  match saFindSpecific s.thealarms clientreg with
  | none => { s with frames := .scanning :: outer }
  | some a =>
      let (thealarms, due) := saUpdateEntry s.clock s.thealarms
        { a with tLastM := tNow, tNextM := .zero, flags := { a.flags with fired := false } }
      { s with
        thealarms
        frames := .scanning :: outer
        events := due.toList.map (.rescheduled a.address tNow) ++ s.events }

end AlarmState

inductive AlarmOp where
  | register (when : Nat) (flags : AlarmFlags)
  | registerHr (t : Timeval) (flags : AlarmFlags)
  | unregister (clientreg : Nat)
  | reset (clientreg : Nat)
  | advance (time : Timeval)
  | runAlarms
  | pass
  | callbackReturns
  deriving DecidableEq, Repr

/-- The application or one of its callbacks is in control, and not the loop of `run_alarms`. -/
def AlarmState.inApplication (s : AlarmState) : Bool :=
  match s.frames with
  | .scanning :: _ => false
  | _ => true

/-- One step; `none` if it is not its turn. -/
def AlarmState.step (s : AlarmState) : AlarmOp → Option AlarmState
  | .register when flags => if s.inApplication then some (s.snmpAlarmRegister when flags) else none
  | .registerHr t flags => if s.inApplication then some (s.snmpAlarmRegisterHr t flags) else none
  | .unregister clientreg =>
      if s.inApplication then
        some { s with thealarms := snmpAlarmUnregister s.thealarms clientreg }
      else none
  | .reset clientreg => if s.inApplication then some (s.snmpAlarmReset clientreg) else none
  | .advance time => some { s with clock := s.clock.add time }
  | .runAlarms =>
      if s.inApplication then some { s with frames := .scanning :: s.frames } else none
  | .pass =>
      match s.frames with
      | .scanning :: outer => some (s.pass outer)
      | _ => none
  | .callbackReturns =>
      match s.frames with
      | .calling _ clientreg tNow :: outer => some (s.callbackReturned clientreg tNow outer)
      | _ => none

def AlarmState.initial (clock : Timeval) : AlarmState := ⟨[], 1, clock, [], 0, []⟩

end NetSnmp
