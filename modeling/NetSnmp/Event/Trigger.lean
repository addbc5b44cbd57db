import NetSnmp.CString
import NetSnmp.OidCompare
import NetSnmp.SortedJoin

/-!
# Event MIB triggers

`mteTrigger_run` from the answer to its query on: the results of the last run and of
this one are brought into line, the tests of the trigger are made on them, and this
run's results are kept for the next one. Reading through a `NULL` pointer ends a run
without results.
-/

namespace NetSnmp

/-- What `val` points at, as octets and as the `long` at that place. -/
structure VarVal where
  octets : List Byte
  integer : Int
  deriving DecidableEq, Repr

/-- The flags of a varbind's `index` that say which tests may fire. -/
structure Armed where
  thRise : Bool
  thFall : Bool
  thDRise : Bool
  thDFall : Bool
  boolean : Bool
  deriving DecidableEq, Repr

namespace Armed

/-- The `index` of a varbind that was just allocated. -/
def zero : Armed := ⟨false, false, false, false, false⟩

/-- `MTE_ARMED_ALL` -/
def all : Armed := ⟨true, true, true, true, true⟩

end Armed

/-- A `netsnmp_variable_list` without its link; `val` is missing where the pointer is `NULL`. -/
structure MteVarbind where
  name : Oid
  type : Byte
  val : Option VarVal
  index : Armed
  deriving DecidableEq, Repr

namespace MteVarbind

def octets (vp : MteVarbind) : List Byte := (vp.val.map VarVal.octets).getD []

/-- `SNMP_MALLOC_TYPEDEF` and `snmp_set_var_objid` -/
def unset (name : Oid) : MteVarbind := ⟨name, 0, none, Armed.zero⟩

def dummy (name : Oid) : MteVarbind := { unset name with type := asnNull }

end MteVarbind

inductive BoolComparison where
  | unequal
  | equal
  | less
  | lessequal
  | greater
  | greaterequal
  deriving DecidableEq, Repr

/-- The bits of `mteTriggerExistenceTest` and of `mteTriggerExistenceStartup`. -/
structure ExistBits where
  present : Bool
  absent : Bool
  changed : Bool
  deriving DecidableEq, Repr

/-- Owner and name of an event; there is none where the name is empty. -/
structure MteEvent where
  owner : List Byte
  event : List Byte
  deriving DecidableEq, Repr

def MteEvent.isSet (e : MteEvent) : Bool := !e.event.isEmpty

/-- The columns of a `struct mteTrigger` that a run reads. -/
structure MteTrigger where
  mteTriggerValueID : Oid
  mteDeltaDiscontID : Oid
  existence : Bool
  boolean : Bool
  threshold : Bool
  flagDelta : Bool
  flagVWild : Bool
  flagDWild : Bool
  flagSysUpT : Bool
  flagBStart : Bool
  mteTExTest : ExistBits
  mteTExStartup : ExistBits
  mteTExEvent : MteEvent
  mteTBoolComparison : BoolComparison
  mteTBoolValue : Int
  mteTBoolEvent : MteEvent
  mteTThStartRise : Bool
  mteTThStartFall : Bool
  mteTThRiseValue : Int
  mteTThFallValue : Int
  mteTThDRiseValue : Int
  mteTThDFallValue : Int
  mteTThRiseEvent : MteEvent
  mteTThFallEvent : MteEvent
  mteTThDRiseEvent : MteEvent
  mteTThDFallEvent : MteEvent
  deriving DecidableEq, Repr

/-- What a `struct mteTrigger` keeps from one run to the next. -/
structure MteResults where
  oldResults : List MteVarbind
  oldDeltaDs : List MteVarbind
  sysUpTime : Int
  deriving DecidableEq, Repr

namespace MteResults

def empty : MteResults := ⟨[], [], 0⟩

end MteResults

inductive MteTest where
  | existence
  | boolean
  | thRise
  | thFall
  | thDRise
  | thDFall
  deriving DecidableEq, Repr

/-- A call of `mteEvent_fire`: the test that it comes from, the event, the index of the instance
and `mteTriggerFired`. -/
structure Fired where
  test : MteTest
  event : MteEvent
  instance_ : Oid
  hot : MteVarbind
  deriving DecidableEq, Repr

def isMissing (type : Byte) : Bool :=
  type = asnNull || type = snmpNosuchobject || type = snmpNosuchinstance || type = asnPrivRetry

/-- An instance of the monitored object, with its index below `mteTriggerValueID`. -/
structure MteInstance where
  index : Oid
  type : Byte
  val : Option VarVal
  exists_ : isMissing type = false
  deriving DecidableEq

namespace MteInstance

def octets (i : MteInstance) : List Byte := (i.val.map VarVal.octets).getD []

/-- The varbind that the query returns for an instance. -/
def varbind (valueID : Oid) (i : MteInstance) : MteVarbind :=
  { MteVarbind.unset (valueID ++ i.index) with type := i.type, val := i.val }

end MteInstance

/-- The instances that a query finds, in increasing order, and the exception that answers a GET
that finds none. -/
structure Sample where
  instances : List MteInstance
  increasing : Increasing MteInstance.index instances
  exception : Byte
  missing : isMissing exception = true

/-- What a trigger may find: the object that it monitors itself, where it is not a wildcard. -/
def Sample.Of (entry : MteTrigger) (sample : Sample) : Prop :=
  entry.flagVWild = false → ∀ i ∈ sample.instances, i.index = []

/-- `netsnmp_query_walk`: the results replace the varbind of the query, if there are any. -/
def netsnmpQueryWalk (var : MteVarbind) (results : List MteVarbind) : List MteVarbind :=
  if results.isEmpty then [var] else results

/-- `netsnmp_query_get`: the answer replaces the varbind of the query. -/
def netsnmpQueryGet (var : MteVarbind) (answer : Option MteVarbind) (exception : Byte) :
    List MteVarbind :=
  match answer with
  | some result => [result]
  | none => [{ var with type := exception }]

def retrieve (entry : MteTrigger) (sample : Sample) : List MteVarbind :=
  let var := MteVarbind.unset entry.mteTriggerValueID
  let results := sample.instances.map (MteInstance.varbind entry.mteTriggerValueID)
  if entry.flagVWild then netsnmpQueryWalk var results
  else netsnmpQueryGet var results.head? sample.exception

/-- The answers to the queries of a run; `sysUpTime` is missing where its query fails. -/
structure MteQueries where
  values : Option Sample
  sysUpTime : Option Int
  discontinuity : Option (List MteVarbind)

/-- Missing values and exceptions get a single form. -/
def flatten (vp : MteVarbind) : MteVarbind :=
  if vp.type = snmpNosuchinstance ∨ vp.type = snmpNosuchobject ∨ vp.type = asnPrivRetry then
    { vp with type := asnNull }
  else vp

def inFront (vars olds : List MteVarbind) (rest : List MteVarbind × List MteVarbind) :
    List MteVarbind × List MteVarbind :=
  (vars ++ rest.1, olds ++ rest.2)

/-- The passes of the loop at one entry `vp1` of the current results; `next` are those behind it.
`prev` says that `vp2_prev` is set. -/
def alignEntry (vp1 : MteVarbind)
    (next : Bool → List MteVarbind → List MteVarbind × List MteVarbind) :
    Bool → List MteVarbind → List MteVarbind × List MteVarbind
  | prev, [] =>
      -- without a `vp2_prev` this is the first run, and the old results stay empty
      inFront [{ vp1 with index := Armed.all }]
        (if prev then [MteVarbind.dummy vp1.name] else []) (next prev [])
  | prev, vp2 :: old =>
      if snmpOidCompare vp1.name vp2.name < 0 then
        inFront [{ vp1 with index := Armed.all }] [MteVarbind.dummy vp1.name]
          (next true (vp2 :: old))
      else if snmpOidCompare vp1.name vp2.name = 0 then
        inFront [{ vp1 with index := vp2.index }] [vp2] (next true old)
      else if vp2.type ≠ asnNull then
        inFront [MteVarbind.dummy vp2.name] [vp2] (alignEntry vp1 next true old)
      else
        -- it had gone by the last run already
        alignEntry vp1 next prev old

/-- The loop over the current results, and with it over those of the last run. -/
def align : List MteVarbind → Bool → List MteVarbind → List MteVarbind × List MteVarbind
  | [], _, old => ([], old)
  | vp1 :: var, prev, old => alignEntry (flatten vp1) (align var) prev old

/-- `mteEvent_fire` for a varbind of the current results. -/
def fire (entry : MteTrigger) (test : MteTest) (event : MteEvent) (vp1 hot : MteVarbind) : Fired :=
  ⟨test, event, vp1.name.drop entry.mteTriggerValueID.length, hot⟩

def existenceStartup (entry : MteTrigger) (var : List MteVarbind) : List Fired :=
  (if entry.mteTExTest.present ∧ entry.mteTExStartup.present then
    var.map fun vp1 => fire entry .existence entry.mteTExEvent vp1 vp1
  else []) ++
  (if entry.mteTExTest.absent ∧ entry.mteTExStartup.absent ∧ ¬ entry.flagVWild then
    (var.take 1).filterMap fun vp1 =>
      if vp1.type = asnNull then some (fire entry .existence entry.mteTExEvent vp1 vp1) else none
  else [])

/-- The test of an entry with the one of the last run: the value for `mteTriggerFired`. -/
def existenceTest (entry : MteTrigger) (vp1 vp2 : MteVarbind) : Option MteVarbind :=
  if entry.mteTExTest.present ∧ vp1.type ≠ asnNull ∧ vp2.type = asnNull then some vp1
  else if entry.mteTExTest.absent ∧ vp1.type = asnNull ∧ vp2.type ≠ asnNull then some vp2
  else if entry.mteTExTest.changed ∧ (vp1.octets.length ≠ vp2.octets.length ∨
      memcmp vp1.octets vp2.octets vp1.octets.length ≠ 0) then some vp1
  else none

/-- The loop over both results; the lists match, so `vp2` does not end before `vp1`. -/
def existenceLoop (entry : MteTrigger) : List MteVarbind → List MteVarbind → List Fired
  | vp1 :: var, vp2 :: old =>
      ((existenceTest entry vp1 vp2).map (fire entry .existence entry.mteTExEvent vp1)).toList ++
        existenceLoop entry var old
  | _, _ => []

def existenceTests (entry : MteTrigger) (var old : List MteVarbind) : List Fired :=
  if entry.existence ∧ entry.mteTExEvent.isSet then
    if old.isEmpty then existenceStartup entry var else existenceLoop entry var old
  else []

def isInteger (type : Byte) : Bool :=
  type = asnInteger || type = asnCounter || type = asnGauge || type = asnTimeticks ||
    type = asnUinteger || type = asnCounter64 || type = asnOpaqueCounter64 ||
    type = asnOpaqueU64 || type = asnOpaqueI64

/-- The passes of the loop over the markers at one entry `vp1`. -/
def matchEntry (entry : MteTrigger) (vp1 : MteVarbind)
    (next : Bool → List MteVarbind → Option (List MteVarbind)) :
    Bool → List MteVarbind → Option (List MteVarbind)
  | _, [] => none
  | prev, vp2 :: dvar =>
      let cmp := snmpOidCompare (vp1.name.drop entry.mteTriggerValueID.length)
        (vp2.name.drop entry.mteDeltaDiscontID.length)
      if cmp < 0 then
        if prev then (next true (vp2 :: dvar)).map (MteVarbind.unset entry.mteDeltaDiscontID :: ·)
        else none
      else if cmp = 0 then (next true dvar).map (vp2 :: ·)
      else if prev then matchEntry entry vp1 next prev dvar
      else none

def matchMarkers (entry : MteTrigger) :
    List MteVarbind → Bool → List MteVarbind → Option (List MteVarbind)
  | [], _, dvar => some dvar
  | vp1 :: var, prev, dvar => matchEntry entry vp1 (matchMarkers entry var) prev dvar

/-- What the checks before the boolean and threshold tests come to. -/
inductive Checks where
  | stop (results : MteResults)
  | crash
  | go (dvar : List MteVarbind)

def deltaChecks (entry : MteTrigger) (s : MteResults) (var : List MteVarbind)
    (sysUT : Option Int) (dvar : List MteVarbind) : Checks :=
  match sysUT with
  | none => .crash
  | some time =>
      if s.oldResults.isEmpty ∨ time < s.sysUpTime then .stop ⟨var, dvar, time⟩
      -- the source compares the two pointers, which are equal only if both are `NULL`
      else if ¬ entry.flagDWild ∧ ¬ entry.flagSysUpT ∧ (s.oldDeltaDs.isEmpty ∨
          (s.oldDeltaDs.head?.bind MteVarbind.val).isSome ∨
          (dvar.head?.bind MteVarbind.val).isSome) then .stop ⟨var, dvar, time⟩
      else if entry.flagDWild then
        match matchMarkers entry var false dvar with
        | none => .crash
        | some dvar => .go dvar
      else .go dvar

def integerChecks (entry : MteTrigger) (s : MteResults) (var : List MteVarbind)
    (queries : MteQueries) : Checks :=
  if entry.boolean ∨ entry.threshold then
    if ¬ isInteger ((var.head?.map MteVarbind.type).getD 0) then
      .stop { s with oldResults := var }
    else if entry.flagDelta then
      if entry.flagSysUpT then deltaChecks entry s var queries.sysUpTime []
      else
        match queries.discontinuity with
        | none => .stop s
        | some dvar => deltaChecks entry s var queries.sysUpTime dvar
    else .go []
  else .go []

inductive Sampled where
  | skip
  | crash
  | value (v : Int)

def deltaValue (vp1 : VarVal) (vp2 : Option MteVarbind) : Sampled :=
  match vp2 with
  | none => .crash
  | some vp2 =>
      if vp2.type = asnNull then .skip
      else
        match vp2.val with
        | none => .crash
        | some old => .value (vp1.integer - old.integer)

def sampleValue (entry : MteTrigger) (dv1 dv2 : Option MteVarbind) (vp1 : MteVarbind)
    (vp2 : Option MteVarbind) : Sampled :=
  match vp1.val with
  | none => .skip
  | some val =>
      if entry.flagDelta then
        if entry.flagDWild then
          match dv1, dv2 with
          | none, _ => .crash
          | some dv1, none => if dv1.type = asnNull then .skip else .crash
          | some dv1, some dv2 =>
              if dv1.type = asnNull ∨ dv1.type ≠ dv2.type then .skip
              else
                match dv1.val, dv2.val with
                | some marker, some marker' =>
                    if marker.integer ≠ marker'.integer then .skip else deltaValue val vp2
                | _, _ => .crash
        else deltaValue val vp2
      else .value val.integer

def deltaSample (vp1 : MteVarbind) (vp2 : Option MteVarbind) : Sampled :=
  match vp1.val, vp2 with
  | _, none => .skip
  | none, some _ => .skip
  | some val, some vp2 => deltaValue val (some vp2)

/-- The loop of the boolean, threshold and delta threshold tests: `test` gives the new flags of an
entry and the events to fire. -/
def sampleTests (sampled : MteVarbind → Option MteVarbind → Sampled)
    (test : MteVarbind → Int → Armed × List Fired) :
    List MteVarbind → List MteVarbind → List Fired × Option (List MteVarbind)
  | [], _ => ([], some [])
  | vp1 :: var, old =>
      let rest := sampleTests sampled test var old.tail
      match sampled vp1 old.head? with
      | .crash => ([], none)
      | .skip => (rest.1, rest.2.map (vp1 :: ·))
      | .value v =>
          ((test vp1 v).2 ++ rest.1, rest.2.map ({ vp1 with index := (test vp1 v).1 } :: ·))

def BoolComparison.compare (comparison : BoolComparison) (value mteTBoolValue : Int) : Bool :=
  match comparison with
  | unequal => value ≠ mteTBoolValue
  | equal => value = mteTBoolValue
  | less => value < mteTBoolValue
  | lessequal => value ≤ mteTBoolValue
  | greater => mteTBoolValue < value
  | greaterequal => mteTBoolValue ≤ value

/-- The boolean test of a value; `first` says that there are no old results. -/
def booleanTest (entry : MteTrigger) (first : Bool) (vp1 : MteVarbind) (value : Int) :
    Armed × List Fired :=
  if entry.mteTBoolComparison.compare value entry.mteTBoolValue then
    if vp1.index.boolean then
      ({ vp1.index with boolean := false },
        if ¬ first ∨ entry.flagBStart then [fire entry .boolean entry.mteTBoolEvent vp1 vp1]
        else [])
    else (vp1.index, [])
  else ({ vp1.index with boolean := true }, [])

def riseTest (entry : MteTrigger) (first : Bool) (vp1 : MteVarbind) (cmp : Armed) (value : Int) :
    Armed × List Fired :=
  if entry.mteTThRiseValue ≤ value ∧ cmp.thRise then
    ({ cmp with thRise := false, thFall := true },
      if (¬ first ∨ entry.mteTThStartRise) ∧ entry.mteTThRiseEvent.isSet then
        [fire entry .thRise entry.mteTThRiseEvent vp1 vp1]
      else [])
  else (cmp, [])

def fallTest (entry : MteTrigger) (first : Bool) (vp1 : MteVarbind) (cmp : Armed) (value : Int) :
    Armed × List Fired :=
  if value ≤ entry.mteTThFallValue ∧ cmp.thFall then
    ({ cmp with thFall := false, thRise := true },
      if (¬ first ∨ entry.mteTThStartFall) ∧ entry.mteTThFallEvent.isSet then
        [fire entry .thFall entry.mteTThFallEvent vp1 vp1]
      else [])
  else (cmp, [])

def thresholdTest (entry : MteTrigger) (first : Bool) (vp1 : MteVarbind) (value : Int) :
    Armed × List Fired :=
  let rise := riseTest entry first vp1 vp1.index value
  let fall := fallTest entry first vp1 rise.1 value
  (fall.1, rise.2 ++ fall.2)

def deltaThresholdTest (entry : MteTrigger) (vp1 : MteVarbind) (value : Int) :
    Armed × List Fired :=
  let rises := entry.mteTThDRiseValue ≤ value ∧ vp1.index.thDRise
  let falls := value ≤ entry.mteTThDFallValue ∧ vp1.index.thDFall
  let cmp := if rises then { vp1.index with thDRise := false, thDFall := true } else vp1.index
  (if falls then { cmp with thDFall := false, thDRise := true } else cmp,
    (if rises ∧ entry.mteTThDRiseEvent.isSet then
      [fire entry .thDRise entry.mteTThDRiseEvent vp1 vp1] else []) ++
    (if falls ∧ entry.mteTThDFallEvent.isSet then
      [fire entry .thDFall entry.mteTThDFallEvent vp1 vp1] else []))

/-- The events of a run, and what the trigger keeps; it is missing where the run reads through a
`NULL` pointer. -/
structure MteRun where
  fired : List Fired
  results : Option MteResults

/-- The tests of one kind, where they are to be made, after what the run has done so far. -/
def MteRun.tests (applies : Bool) (loop : List MteVarbind → List Fired × Option (List MteVarbind))
    (soFar : List Fired × Option (List MteVarbind)) : List Fired × Option (List MteVarbind) :=
  match applies, soFar.2 with
  | true, some var => (soFar.1 ++ (loop var).1, (loop var).2)
  | _, _ => soFar

def integerTests (entry : MteTrigger) (s : MteResults) (dvar : List MteVarbind)
    (var : List MteVarbind) : List Fired × Option (List MteVarbind) :=
  let old := s.oldResults
  let first := old.isEmpty
  let value := sampleValue entry dvar.head? s.oldDeltaDs.head?
  MteRun.tests (entry.threshold && (entry.mteTThDRiseEvent.isSet || entry.mteTThDFallEvent.isSet) &&
      !entry.flagDelta && !first)
    (fun var => sampleTests deltaSample (deltaThresholdTest entry) var old)
    (MteRun.tests (entry.threshold && (entry.mteTThRiseEvent.isSet || entry.mteTThFallEvent.isSet))
      (fun var => sampleTests value (thresholdTest entry first) var old)
      (MteRun.tests (entry.boolean && entry.mteTBoolEvent.isSet)
        (fun var => sampleTests value (booleanTest entry first) var old)
        ([], some var)))

def rotate (entry : MteTrigger) (s : MteResults) (var dvar : List MteVarbind)
    (sysUT : Option Int) : Option MteResults :=
  if entry.flagDelta then sysUT.map fun time => ⟨var, dvar, time⟩
  else some { s with oldResults := var }

def mteTriggerRun (entry : MteTrigger) (s : MteResults) (queries : MteQueries) : MteRun :=
  match queries.values with
  | none => ⟨[], some s⟩
  | some sample =>
      let aligned := align (retrieve entry sample) false s.oldResults
      let s := { s with oldResults := aligned.2 }
      let exist := existenceTests entry aligned.1 s.oldResults
      match integerChecks entry s aligned.1 queries with
      | .stop results => ⟨exist, some results⟩
      | .crash => ⟨exist, none⟩
      | .go dvar =>
          let tested := integerTests entry s dvar aligned.1
          ⟨exist ++ tested.1, tested.2.bind fun var => rotate entry s var dvar queries.sysUpTime⟩

end NetSnmp
