import Mathlib.Logic.Relation
import Mathlib.Algebra.Order.Group.Int
import NetSnmp.Usm.EngineTime

/-!
# The timeliness of incoming messages

The part of `usm_process_in_msg` that keeps the list of engine times: the record
of the engine is looked up or made, and the boots and the time of the message are
checked against it if the message is authenticated.
-/

namespace NetSnmp

inductive UsmError where
  | genericError
  | unknownEngineID
  | unknownSecurityName
  | unsupportedSecurityLevel
  | authenticationFailure
  | notInTimeWindow
  deriving DecidableEq, Repr

/-- `SNMP_SEC_LEVEL_...` -/
inductive SecLevel where
  | noAuth
  | authNoPriv
  | authPriv
  deriving DecidableEq, Repr

/-- `isAuthoritative` of a session. -/
inductive Authoritative where
  | authoritative
  | nonAuth
  | unknownAuth
  deriving DecidableEq, Repr

def usmTimeWindow : Nat := 150

def usmMaxIDLength : Nat := 1024

/-- The engine that receives the messages: its own engine ID, which is empty if it is not set, and
its boots. -/
structure LocalEngine where
  engineID : List Byte
  engineBoots : Nat

def snmpv3GetEngineID (engine : LocalEngine) (buflen : Nat) : List Byte :=
  if buflen < engine.engineID.length then [] else engine.engineID

/-- An incoming message after its security parameters were parsed, which rejects boots and times
beyond 31 bits. -/
structure UsmInMsg where
  secEngineID : List Byte
  boots : Nat
  time : Nat
  secLevel : SecLevel
  /-- `isAuthoritative` of the session, if there is one. -/
  session : Option Authoritative
  /-- `msg_flags & SNMP_MSG_FLAG_RPRT_BIT` -/
  reportable : Bool
  /-- The error of the steps on the user: that it is known and active, may use the security level,
  that the digest is right for a message with authentication, and that its keys can be cached. -/
  userError : Option UsmError
  boots_le : boots ≤ engineBootMax
  time_le : time ≤ engineTimeMax

/-- The local engine time at the calls of `snmpv3_local_snmpEngineTime` for one message. -/
structure ClockReadings where
  ensure : Nat
  check : Nat
  estimate : Nat
  record : Nat

def timeDifference (here there : Nat) : Nat :=
  if there < here then here - there else there - here

theorem timeDifference_le_iff {here there window : Nat} :
    timeDifference here there ≤ window ↔ |(there : Int) - here| ≤ window := by
  rw [abs_le, timeDifference]
  split <;> omega

section Processing

variable (hashEngineID : List Byte → Option Nat) (engine : LocalEngine)

def usmCheckAndUpdateTimeliness (etimelist : Etimelist) (secEngineID : List Byte)
    (boots time : Nat) (clock : ClockReadings) : Etimelist × Except UsmError Unit :=
  let myID := snmpv3GetEngineID engine usmMaxIDLength
  if usmMaxIDLength < myID.length ∨ myID.length = 0 then (etimelist, .error .genericError)
  else if secEngineID.length = myID.length ∧ memcmp secEngineID myID myID.length = 0 then
    if boots = engineBootMax ∨ boots ≠ engine.engineBoots ∨
        usmTimeWindow < timeDifference clock.check time then
      (etimelist, .error .notInTimeWindow)
    else (etimelist, .ok ())
  else
    match getEnginetimeEx hashEngineID etimelist secEngineID true clock.estimate with
    | none => (etimelist, .error .genericError)
    | some their =>
        if their.engineboot = engineBootMax ∨ boots < their.engineboot then
          (etimelist, .error .notInTimeWindow)
        else if their.engineboot = boots ∧ time < their.lastEngineTime then
          if usmTimeWindow < timeDifference their.engineTime time then
            (etimelist, .error .notInTimeWindow)
          else (etimelist, .ok ())
        else
          match setEnginetime hashEngineID etimelist secEngineID boots time true clock.record with
          | (etimelist, true) => (etimelist, .ok ())
          | (etimelist, false) => (etimelist, .error .genericError)

def mustBeKnown (session : Option Authoritative) (reportable : Bool) : Bool :=
  match session with
  | some .authoritative => true
  | some .unknownAuth => reportable
  | some .nonAuth => false
  | none => reportable

/-- The step of `usm_process_in_msg` that locates the engine ID record. -/
def locateEngine (etimelist : Etimelist) (msg : UsmInMsg) (clock : ClockReadings) :
    Etimelist × Option UsmError :=
  if mustBeKnown msg.session msg.reportable then
    -- `ISENGINEKNOWN`
    if (searchEnginetimeList hashEngineID etimelist msg.secEngineID).isNone then
      (etimelist, some .unknownEngineID)
    else (etimelist, none)
  else
    -- `ENSURE_ENGINE_RECORD`
    match setEnginetime hashEngineID etimelist msg.secEngineID 0 0 false clock.ensure with
    | (etimelist, true) => (etimelist, none)
    | (etimelist, false) => (etimelist, some .genericError)

/-- `usm_process_in_msg`, from the engine ID record to the timeliness functions. -/
def usmProcessInMsg (etimelist : Etimelist) (msg : UsmInMsg) (clock : ClockReadings) :
    Etimelist × Except UsmError Unit :=
  match locateEngine hashEngineID etimelist msg clock with
  | (etimelist, some error) => (etimelist, .error error)
  | (etimelist, none) =>
      match msg.userError with
      | some error => (etimelist, .error error)
      | none =>
          if msg.secLevel = .authNoPriv ∨ msg.secLevel = .authPriv then
            usmCheckAndUpdateTimeliness hashEngineID engine etimelist msg.secEngineID msg.boots
              msg.time clock
          else
            ((setEnginetime hashEngineID etimelist msg.secEngineID msg.boots msg.time false
              clock.record).1, .ok ())

end Processing

/-- The digest of the message was checked and is right. -/
def UsmInMsg.authenticated (msg : UsmInMsg) : Prop :=
  (msg.secLevel = .authNoPriv ∨ msg.secLevel = .authPriv) ∧ msg.userError = none

end NetSnmp
