import NetSnmp.Config.Line
import NetSnmp.Timeval

/-!
# The local engine

`snmpEngineBoots` and `snmpEngineTime` of the local engine, and what is stored of them
from one run to the next.
-/

namespace NetSnmp

structure EngineClock where
  engineBoots : Nat
  engineID : List Byte
  oldEngineID : Option (List Byte)
  snmpv3starttime : Timeval
  lastEngineTime : Nat
  deriving DecidableEq, Repr

/-- What a reading of the time and then of the boots gives. -/
structure EngineReading where
  now : Timeval
  boots : Nat
  time : Nat
  deriving DecidableEq, Repr

inductive ConfigTime where
  | premib
  | normal
  deriving DecidableEq, Repr

/-- `init_snmpv3` in a new process, with the engine ID that it is configured with. -/
def initSnmpv3 (engineID : List Byte) (now : Timeval) : EngineClock :=
  ⟨1, engineID, none, now, 0⟩

/-- `engineBoots` -/
def engineBootsToken : List Byte :=
  ['e', 'n', 'g', 'i', 'n', 'e', 'B', 'o', 'o', 't', 's'].map Char.toUInt8

/-- `oldEngineID` -/
def oldEngineIDToken : List Byte :=
  ['o', 'l', 'd', 'E', 'n', 'g', 'i', 'n', 'e', 'I', 'D'].map Char.toUInt8

def engineBootsConf (engine : EngineClock) (cptr : List Byte) : EngineClock :=
  { engine with engineBoots := ((atoi cptr + 1) % 2 ^ 64).toNat }

def oldengineIDConf (engine : EngineClock) (cptr : List Byte) : EngineClock :=
  match readConfigReadOctetString (some cptr) none with
  | none => { engine with oldEngineID := none }
  | some read =>
      let oldEngineID := read.bytes.getD []
      { engine with oldEngineID := if oldEngineID.length < 4 then none else some oldEngineID }

/-- A line of the file, for which the handler of its token is called in one of the phases. -/
def runConfigHandler (configTime : ConfigTime) (engine : EngineClock) (line : List Byte) :
    EngineClock :=
  match configLine line with
  | none => engine
  | some (token, cptr) =>
      if sameWord token engineBootsToken then
        if configTime = .normal then engineBootsConf engine cptr else engine
      else if sameWord token oldEngineIDToken then
        if configTime = .premib then oldengineIDConf engine cptr else engine
      else engine

def readConfigs (engine : EngineClock) (lines : List (List Byte)) : EngineClock :=
  lines.foldl (runConfigHandler .normal) (lines.foldl (runConfigHandler .premib) engine)

def snmpv3Store (engine : EngineClock) : List (List Byte) :=
  (engineBootsToken ++ 0x20 :: formatLd engine.engineBoots) ::
    if engine.engineID ≠ [] ∧ engine.engineID.length ≤ 512 then
      [oldEngineIDToken ++ 0x20 :: saveOctetString (some engine.engineID)]
    else []

/-- `calculate_sectime_diff`: the difference is rounded to the nearest second. -/
def calculateSectimeDiff (now since : Timeval) : Nat :=
  let diff := now.sub since
  ((diff.1 + if 500000 ≤ diff.2 then 1 else 0) % 2 ^ 32).toNat

/-- `snmpv3_local_snmpEngineTime` -/
def localSnmpEngineTime (engine : EngineClock) (now : Timeval) : EngineClock × Nat :=
  let engineTime := calculateSectimeDiff now engine.snmpv3starttime % 2 ^ 31
  ({ engine with
      engineBoots :=
        if engineTime < engine.lastEngineTime then engine.engineBoots + 1 else engine.engineBoots
      lastEngineTime := engineTime }, engineTime)

/-- The time is read, and then `snmpv3_local_snmpEngineBoots`. -/
def readEngine (engine : EngineClock) (now : Timeval) : EngineClock × EngineReading :=
  let read := localSnmpEngineTime engine now
  (read.1, ⟨now, read.1.engineBoots, read.2⟩)

def initSnmpv3PostConfig (engine : EngineClock) (now : Timeval) : EngineClock × EngineReading :=
  match engine.oldEngineID with
  | none => readEngine { engine with engineBoots := 1 } now
  | some oldEngineID =>
      if engine.engineID.length ≠ oldEngineID.length ∨
          memcmp oldEngineID engine.engineID engine.engineID.length ≠ 0 then
        readEngine { engine with engineBoots := 1 } now
      else readEngine engine now

/-- A run of the program: when it starts, when the configuration has been read, and when the time is
read after that. -/
structure EngineRun where
  start : Timeval
  configured : Timeval
  reads : List Timeval
  deriving DecidableEq, Repr

def readAll (engine : EngineClock) : List Timeval → EngineClock × List EngineReading
  | [] => (engine, [])
  | now :: later =>
      let read := readEngine engine now
      let rest := readAll read.1 later
      (rest.1, read.2 :: rest.2)

/-- What is read in a run with the stored lines of the run before, and the engine at its end. -/
def EngineRun.readings (run : EngineRun) (engineID : List Byte) (stored : List (List Byte)) :
    EngineClock × List EngineReading :=
  let configured :=
    initSnmpv3PostConfig (readConfigs (initSnmpv3 engineID run.start) stored) run.configured
  let rest := readAll configured.1 run.reads
  (rest.1, configured.2 :: rest.2)

/-- The readings of each run in a sequence of runs. -/
def readingsOfRuns (engineID : List Byte) : (stored : List (List Byte)) → List EngineRun →
    List (List EngineReading)
  | _, [] => []
  | stored, run :: runs =>
      let readings := run.readings engineID stored
      readings.2 :: readingsOfRuns engineID (snmpv3Store readings.1) runs

end NetSnmp
