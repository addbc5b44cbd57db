import NetSnmp.ByteOrder
import NetSnmp.Event.ThresholdRuns

/-!
# The values that triggers compare

The boolean and threshold tests of a trigger for one instance, run after run: the values that they
compare, and the ones that the samples stand for.
-/

namespace NetSnmp

/-- A value of a syntax that the boolean and threshold tests accept. A value of 64 bits is kept in
two words. -/
inductive SampleValue where
  | long (type : Byte) (isLong : type = asnInteger ∨ type = asnCounter ∨ type = asnGauge ∨
      type = asnTimeticks ∨ type = asnUinteger) (value : Int)
  | words (type : Byte) (isWords : type = asnCounter64 ∨ type = asnOpaqueCounter64 ∨
      type = asnOpaqueU64) (high low : Nat) (high_lt : high < 2 ^ 32) (low_lt : low < 2 ^ 32)

namespace SampleValue

def type : SampleValue → Byte
  | long type _ _ => type
  | words type _ _ _ _ _ => type

/-- What `val` points at: a `long`, or a `struct counter64`. -/
def varVal (order : ByteOrder) : SampleValue → VarVal
  | long _ _ value => ⟨order.store 8 (value % 2 ^ 64).toNat, value⟩
  | words _ _ high low _ _ => ⟨order.store 8 high ++ order.store 8 low, high⟩

def numeric : SampleValue → Int
  | long _ _ value => value
  | words _ _ high low _ _ => high * 2 ^ 32 + low

def lost : SampleValue → Int
  | long _ _ _ => 0
  | words _ _ high low _ _ => high * (2 ^ 32 - 1) + low

theorem isInteger_type (v : SampleValue) : isInteger v.type = true := by
  cases v with
  | long type isLong value =>
      rcases isLong with rfl | rfl | rfl | rfl | rfl <;> rfl
  | words type isWords high low =>
      rcases isWords with rfl | rfl | rfl <;> rfl

theorem exists_type (v : SampleValue) : isMissing v.type = false := by
  cases v with
  | long type isLong value =>
      rcases isLong with rfl | rfl | rfl | rfl | rfl <;> rfl
  | words type isWords high low =>
      rcases isWords with rfl | rfl | rfl <;> rfl

theorem integer_varVal (order : ByteOrder) (v : SampleValue) :
    (v.varVal order).integer = v.numeric - v.lost := by
  cases v with
  | long type isLong value => exact (Int.sub_zero value).symm
  | words type isWords high low =>
      simp only [varVal, numeric, lost]
      omega

end SampleValue

/-- A run for one instance: its value, or the exception that answers the query, with `sysUpTime` and
the answer to the query for the discontinuity marker. -/
structure MonitoredRun where
  sample : Option SampleValue
  exception : Byte
  missing : isMissing exception = true
  sysUpTime : Int
  marker : MteVarbind

namespace MonitoredRun

def instances (order : ByteOrder) (run : MonitoredRun) : List MteInstance :=
  match run.sample with
  | none => []
  | some v => [⟨[], v.type, some (v.varVal order), v.exists_type⟩]

theorem increasing_instances (order : ByteOrder) (run : MonitoredRun) :
    Increasing MteInstance.index (run.instances order) := by
  rw [instances]
  split
  · exact List.Pairwise.nil
  · exact List.pairwise_singleton _ _

def values (order : ByteOrder) (run : MonitoredRun) : Sample :=
  ⟨run.instances order, run.increasing_instances order, run.exception, run.missing⟩

def queries (order : ByteOrder) (run : MonitoredRun) : MteQueries :=
  ⟨some (run.values order), some run.sysUpTime, some [run.marker]⟩

def entry (order : ByteOrder) (valueID : Oid) (run : MonitoredRun) (index : Armed) : MteVarbind :=
  ⟨valueID, (run.sample.map SampleValue.type).getD asnNull,
    run.sample.map (SampleValue.varVal order), index⟩

end MonitoredRun

/-- What a trigger keeps after its runs, the latest first. -/
def stateAfter (order : ByteOrder) (entry : MteTrigger) : List MonitoredRun → Option MteResults
  | [] => some MteResults.empty
  | run :: earlier =>
      (stateAfter order entry earlier).bind fun s =>
        (mteTriggerRun entry s (run.queries order)).results

def Sampled.toOption : Sampled → Option Int
  | .value v => some v
  | _ => none

/-- What a run samples of its first entry, if the checks let the tests be made. -/
def sampledBy (sampled : MteResults → List MteVarbind → MteVarbind → Option MteVarbind → Sampled)
    (entry : MteTrigger) (s : MteResults) (queries : MteQueries) : Option Int :=
  queries.values.bind fun sample =>
    let aligned := align (retrieve entry sample) false s.oldResults
    let s := { s with oldResults := aligned.2 }
    match integerChecks entry s aligned.1 queries with
    | .go dvar => aligned.1.head?.bind fun vp1 => (sampled s dvar vp1 aligned.2.head?).toOption
    | _ => none

def testedValue : MteTrigger → MteResults → MteQueries → Option Int := fun entry =>
  sampledBy (fun s dvar => sampleValue entry dvar.head? s.oldDeltaDs.head?) entry

def deltaTestedValue : MteTrigger → MteResults → MteQueries → Option Int :=
  sampledBy fun _ _ => deltaSample

def MteTrigger.makesTests (entry : MteTrigger) : Bool :=
  (entry.boolean && entry.mteTBoolEvent.isSet) ||
    (entry.threshold && (entry.mteTThRiseEvent.isSet || entry.mteTThFallEvent.isSet))

def MteTrigger.makesDeltaTests (entry : MteTrigger) : Bool :=
  entry.threshold && (entry.mteTThDRiseEvent.isSet || entry.mteTThDFallEvent.isSet) &&
    !entry.flagDelta

def difference (prev : Option MonitoredRun) (now : MonitoredRun) : Option Int :=
  match prev.bind MonitoredRun.sample, now.sample with
  | some old, some new => some (new.numeric - old.numeric)
  | _, _ => none

/-- Nothing is discontinuous: `sysUpTime` has not decreased, and an explicit marker has the value of
the last run. -/
def Continuous (entry : MteTrigger) (prev : Option MonitoredRun) (now : MonitoredRun) : Prop :=
  ∀ run ∈ prev, run.sysUpTime ≤ now.sysUpTime ∧
    (entry.flagSysUpT ∨ run.marker.val = now.marker.val)

instance (entry : MteTrigger) (prev : Option MonitoredRun) (now : MonitoredRun) :
    Decidable (Continuous entry prev now) := inferInstanceAs (Decidable (∀ _ ∈ _, _))

def expectedValue (entry : MteTrigger) (prev : Option MonitoredRun) (now : MonitoredRun) :
    Option Int :=
  if entry.flagDelta then if Continuous entry prev now then difference prev now else none
  else now.sample.map SampleValue.numeric

def testEntry (applies : Bool) (test : MteVarbind → Int → Armed × List Fired) (value : Option Int)
    (state : List Fired × MteVarbind) : List Fired × MteVarbind :=
  match applies, value with
  | true, some v => (state.1 ++ (test state.2 v).2, { state.2 with index := (test state.2 v).1 })
  | _, _ => state

def testsAt (entry : MteTrigger) (first : Bool) (vp1 : MteVarbind) (value delta : Option Int) :
    List Fired × MteVarbind :=
  testEntry (entry.makesDeltaTests && !first) (deltaThresholdTest entry) delta
    (testEntry (entry.threshold && (entry.mteTThRiseEvent.isSet || entry.mteTThFallEvent.isSet))
      (thresholdTest entry first) value
      (testEntry (entry.boolean && entry.mteTBoolEvent.isSet) (booleanTest entry first) value
        ([], vp1)))

/-- The tests of a run compare the values that the samples stand for, and are skipped where there is
none. -/
structure ComparesValues (order : ByteOrder) (entry : MteTrigger) (s : MteResults)
    (prev : Option MonitoredRun) (now : MonitoredRun) : Prop where
  /-- The events of the run are those of the tests at the values that they compare. -/
  fired : ∃ vp1, (align (retrieve entry (now.values order)) false s.oldResults).1 = [vp1] ∧
    (mteTriggerRun entry s (now.queries order)).fired =
      existenceTests entry [vp1] s.oldResults ++
        (testsAt entry s.oldResults.isEmpty vp1 (testedValue entry s (now.queries order))
          (deltaTestedValue entry s (now.queries order))).1
  value : entry.makesTests →
    testedValue entry s (now.queries order) = expectedValue entry prev now
  delta : entry.makesDeltaTests →
    deltaTestedValue entry s (now.queries order) = difference prev now

/-- Where tests are to be made, nothing is lost of the samples, or the same of both; and an explicit
marker that has not changed has no value. -/
structure ReadsWhole (entry : MteTrigger) (prev : Option MonitoredRun) (now : MonitoredRun) :
    Prop where
  absolute : entry.makesTests → ¬ entry.flagDelta → ∀ v ∈ now.sample, v.lost = 0
  delta : (entry.makesTests ∧ entry.flagDelta ∧ Continuous entry prev now) ∨
    entry.makesDeltaTests → ∀ old ∈ prev.bind MonitoredRun.sample, ∀ v ∈ now.sample,
      v.lost = old.lost
  marker : entry.makesTests → entry.flagDelta → ¬ entry.flagSysUpT → Continuous entry prev now →
    (difference prev now).isSome → now.marker.val = none

variable {order : ByteOrder} {entry : MteTrigger} {prev : Option MonitoredRun}
  {now : MonitoredRun} {s : MteResults} {index : Armed}

theorem retrieve_monitored (single : entry.flagVWild = false) (order : ByteOrder)
    (now : MonitoredRun) :
    ∃ vp, retrieve entry (now.values order) = [vp] ∧
      flatten vp = now.entry order entry.mteTriggerValueID Armed.zero := by
  cases sample : now.sample with
  | none =>
      have noInstance : now.instances order = [] := by rw [MonitoredRun.instances, sample]
      have entry_eq : now.entry order entry.mteTriggerValueID Armed.zero =
          MteVarbind.dummy entry.mteTriggerValueID := by
        rw [MonitoredRun.entry, sample]
        rfl
      rw [entry_eq]
      refine ⟨_, ?_, flatten_exception now.exception now.missing entry.mteTriggerValueID⟩
      simp [retrieve, single, MonitoredRun.values, noInstance, netsnmpQueryGet]
  | some v =>
      let i : MteInstance := ⟨[], v.type, some (v.varVal order), v.exists_type⟩
      have oneInstance : now.instances order = [i] := by rw [MonitoredRun.instances, sample]
      refine ⟨i.varbind entry.mteTriggerValueID, ?_, ?_⟩
      · simp [retrieve, single, MonitoredRun.values, oneInstance, netsnmpQueryGet]
      · rw [i.flatten_varbind, MonitoredRun.entry, sample]
        simp [i, MteInstance.varbind, MteVarbind.unset]

def RunKept (order : ByteOrder) (entry : MteTrigger) (prev : Option MonitoredRun)
    (s : MteResults) : Prop :=
  match prev with
  | none => s.oldResults = []
  | some run =>
      (∃ index, s.oldResults = [run.entry order entry.mteTriggerValueID index]) ∧
        (entry.flagDelta → entry.boolean ∨ entry.threshold → run.sample.isSome →
          s.sysUpTime = run.sysUpTime ∧
            s.oldDeltaDs = if entry.flagSysUpT then [] else [run.marker])

theorem RunKept.aligned (kept : RunKept order entry prev s) (single : entry.flagVWild = false)
    (now : MonitoredRun) :
    ∃ index, align (retrieve entry (now.values order)) false s.oldResults =
      ([now.entry order entry.mteTriggerValueID index], s.oldResults) := by
  rcases retrieve_monitored single order now with ⟨vp, retrieved, flat⟩
  rw [retrieved]
  cases prev with
  | none =>
      have old_eq : s.oldResults = [] := kept
      rw [old_eq, align_first, List.map_singleton, flat]
      exact ⟨_, rfl⟩
  | some run =>
      rcases kept.1 with ⟨index, old_eq⟩
      have same : snmpOidCompare (flatten vp).name
          (run.entry order entry.mteTriggerValueID index).name = 0 := by
        rw [flat]
        exact snmpOidCompare_eq_zero_iff.mpr rfl
      refine ⟨index, ?_⟩
      rw [old_eq, align, alignEntry, if_neg (by rw [same]; decide), if_pos same, flat]
      rfl

def MonitoredRun.markers (entry : MteTrigger) (run : MonitoredRun) : List MteVarbind :=
  if entry.flagSysUpT then [] else [run.marker]

def Uninterrupted (entry : MteTrigger) (prev now : MonitoredRun) : Prop :=
  prev.sysUpTime ≤ now.sysUpTime ∧
    (entry.flagSysUpT ∨ (prev.marker.val = none ∧ now.marker.val = none))

instance (entry : MteTrigger) (prev now : MonitoredRun) :
    Decidable (Uninterrupted entry prev now) := inferInstanceAs (Decidable (_ ∧ _))

theorem isInteger_asnNull : isInteger asnNull = false := rfl

theorem integerChecks_missing (tests : entry.boolean ∨ entry.threshold)
    (missing : now.sample = none) :
    integerChecks entry s [now.entry order entry.mteTriggerValueID index] (now.queries order) =
      .stop { s with oldResults := [now.entry order entry.mteTriggerValueID index] } := by
  have type_eq : (now.entry order entry.mteTriggerValueID index).type = asnNull := by
    rw [MonitoredRun.entry, missing]
    rfl
  simp only [integerChecks, if_pos tests, List.head?_cons, Option.map_some, Option.getD_some,
    type_eq, isInteger_asnNull]
  rfl

theorem integerChecks_present {v : SampleValue} (tests : entry.boolean ∨ entry.threshold)
    (present : now.sample = some v) :
    integerChecks entry s [now.entry order entry.mteTriggerValueID index] (now.queries order) =
      if entry.flagDelta then
        deltaChecks entry s [now.entry order entry.mteTriggerValueID index] (some now.sysUpTime)
          (now.markers entry)
      else .go [] := by
  have type_eq : (now.entry order entry.mteTriggerValueID index).type = v.type := by
    rw [MonitoredRun.entry, present]
    rfl
  simp only [integerChecks, if_pos tests, List.head?_cons, Option.map_some, Option.getD_some,
    type_eq, v.isInteger_type, not_true_eq_false, if_false, MonitoredRun.queries,
    MonitoredRun.markers]
  split
  · split <;> rfl
  · rfl

theorem deltaChecks_later {run : MonitoredRun} (plain : entry.flagDWild = false)
    (later : s.oldResults ≠ []) (time_eq : s.sysUpTime = run.sysUpTime)
    (markers_eq : s.oldDeltaDs = run.markers entry) (vars : List MteVarbind) :
    deltaChecks entry s vars (some now.sysUpTime) (now.markers entry) =
      if Uninterrupted entry run now then .go (now.markers entry)
      else .stop ⟨vars, now.markers entry, now.sysUpTime⟩ := by
  have notEmpty : s.oldResults.isEmpty = false := by simpa using later
  simp only [deltaChecks, notEmpty, time_eq, markers_eq, plain, Uninterrupted]
  by_cases earlier : now.sysUpTime < run.sysUpTime
  · simp [earlier, Int.not_le.mpr earlier]
  · have inOrder := Int.not_lt.mp earlier
    by_cases sysUpT : entry.flagSysUpT = true
    · simp [earlier, inOrder, sysUpT]
    · by_cases before : run.marker.val = none
      · by_cases after : now.marker.val = none
        · simp [MonitoredRun.markers, earlier, inOrder, sysUpT, before, after]
        · have some_after := Option.isSome_iff_ne_none.mpr after
          simp [MonitoredRun.markers, earlier, sysUpT, after, some_after]
      · have some_before := Option.isSome_iff_ne_none.mpr before
        simp [MonitoredRun.markers, earlier, sysUpT, before, some_before]

def readDifference (order : ByteOrder) (prev : Option MonitoredRun) (now : MonitoredRun) :
    Option Int :=
  match prev.bind MonitoredRun.sample, now.sample with
  | some old, some new => some ((new.varVal order).integer - (old.varVal order).integer)
  | _, _ => none

def readValue (order : ByteOrder) (entry : MteTrigger) (prev : Option MonitoredRun)
    (now : MonitoredRun) : Option Int :=
  if entry.flagDelta then
    if ∀ run ∈ prev, Uninterrupted entry run now then readDifference order prev now else none
  else now.sample.map fun v => (v.varVal order).integer

theorem deltaValue_entry (run : MonitoredRun) (val : VarVal) :
    (deltaValue val (some (run.entry order entry.mteTriggerValueID index))).toOption =
      (run.sample.map fun old => val.integer - (old.varVal order).integer) ∧
    deltaValue val (some (run.entry order entry.mteTriggerValueID index)) ≠ .crash := by
  cases sample : run.sample with
  | none => simp [deltaValue, MonitoredRun.entry, sample, Sampled.toOption]
  | some old =>
      have present : old.type ≠ asnNull := by
        intro none
        have isInteger := old.isInteger_type
        rw [none] at isInteger
        nomatch isInteger
      simp [deltaValue, MonitoredRun.entry, sample, Sampled.toOption, present]

theorem RunKept.checks (kept : RunKept order entry prev s) (plain : entry.flagDWild = false)
    (delta : entry.flagDelta) (tests : entry.boolean ∨ entry.threshold) {old : SampleValue}
    (sampled : prev.bind MonitoredRun.sample = some old) (vars : List MteVarbind) :
    deltaChecks entry s vars (some now.sysUpTime) (now.markers entry) =
      if ∀ run ∈ prev, Uninterrupted entry run now then .go (now.markers entry)
      else .stop ⟨vars, now.markers entry, now.sysUpTime⟩ := by
  cases prev with
  | none => nomatch sampled
  | some run =>
      have sampled' : run.sample = some old := sampled
      rcases kept with ⟨⟨index, old_eq⟩, marked⟩
      rcases marked delta tests (by rw [sampled']; rfl) with ⟨time_eq, markers_eq⟩
      have later : s.oldResults ≠ [] := by
        rw [old_eq]
        exact List.cons_ne_nil _ _
      rw [deltaChecks_later plain later time_eq markers_eq]
      simp

theorem sampleValue_present {dv1 dv2 vp2 : Option MteVarbind} {vp1 : MteVarbind} {val : VarVal}
    (plain : entry.flagDWild = false) (val_eq : vp1.val = some val) :
    sampleValue entry dv1 dv2 vp1 vp2 =
      if entry.flagDelta then deltaValue val vp2 else .value val.integer := by
  simp [sampleValue, val_eq, plain]

theorem RunKept.sampled (kept : RunKept order entry prev s) (plain : entry.flagDWild = false)
    (dv1 dv2 : Option MteVarbind) :
    let vp1 := now.entry order entry.mteTriggerValueID index
    (entry.flagDelta = false → (sampleValue entry dv1 dv2 vp1 s.oldResults.head?).toOption =
      now.sample.map fun v => (v.varVal order).integer) ∧
    (entry.flagDelta → (sampleValue entry dv1 dv2 vp1 s.oldResults.head?).toOption =
      readDifference order prev now) ∧
    (deltaSample vp1 s.oldResults.head?).toOption = readDifference order prev now ∧
    deltaSample vp1 s.oldResults.head? ≠ .crash ∧
    (entry.flagDelta = false ∨ prev.isSome →
      sampleValue entry dv1 dv2 vp1 s.oldResults.head? ≠ .crash) := by
  intro vp1
  cases present : now.sample with
  | none =>
      have noVal : vp1.val = none := by
        simp [vp1, MonitoredRun.entry, present]
      have skips : sampleValue entry dv1 dv2 vp1 s.oldResults.head? = .skip := by
        rw [sampleValue, noVal]
      have skips' : deltaSample vp1 s.oldResults.head? = .skip := by
        simp only [deltaSample, noVal]
        cases s.oldResults.head? <;> rfl
      have noDifference : readDifference order prev now = none := by
        rw [readDifference, present]
        cases prev.bind MonitoredRun.sample <;> rfl
      rw [skips, skips', noDifference]
      exact ⟨fun _ => rfl, fun _ => rfl, rfl, by simp, by simp⟩
  | some v =>
      have val_eq : vp1.val = some (v.varVal order) := by
        simp [vp1, MonitoredRun.entry, present]
      cases prev with
      | none =>
          have old_eq : s.oldResults = [] := kept
          rw [old_eq, List.head?_nil, sampleValue_present plain val_eq]
          refine ⟨fun absolute => ?_, fun delta => ?_, ?_, ?_, ?_⟩
          · rw [absolute]
            rfl
          · rw [if_pos delta]
            rfl
          · simp only [deltaSample]
            rfl
          · simp [deltaSample]
          · rintro (absolute | wrong)
            · simp [absolute]
            · cases wrong
      | some run =>
          rcases kept.1 with ⟨index', old_eq⟩
          have read := @deltaValue_entry order entry index' run (v.varVal order)
          have difference_eq : readDifference order (some run) now =
              run.sample.map fun old => (v.varVal order).integer - (old.varVal order).integer := by
            rw [readDifference, present]
            simp only [Option.bind_some]
            cases run.sample <;> rfl
          have delta_eq : deltaSample vp1
              (some (run.entry order entry.mteTriggerValueID index')) =
                deltaValue (v.varVal order)
                  (some (run.entry order entry.mteTriggerValueID index')) := by
            simp only [deltaSample, val_eq]
          rw [old_eq, List.head?_cons, difference_eq, sampleValue_present plain val_eq, delta_eq]
          refine ⟨fun absolute => ?_, fun delta => ?_, read.1, read.2, fun _ => ?_⟩
          · rw [absolute]
            rfl
          · rw [if_pos delta]
            exact read.1
          · split
            · exact read.2
            · simp

theorem sampledBy_eq (aligned : align (retrieve entry (now.values order)) false s.oldResults =
      ([now.entry order entry.mteTriggerValueID index], s.oldResults))
    (sampled : MteResults → List MteVarbind → MteVarbind → Option MteVarbind → Sampled) :
    sampledBy sampled entry s (now.queries order) =
      match integerChecks entry s [now.entry order entry.mteTriggerValueID index]
          (now.queries order) with
      | .go dvar => (sampled s dvar (now.entry order entry.mteTriggerValueID index)
          s.oldResults.head?).toOption
      | _ => none := by
  simp only [sampledBy, MonitoredRun.queries, Option.bind_some, aligned]
  rfl

theorem readDifference_missing (missing : now.sample = none) :
    readDifference order prev now = none := by
  rw [readDifference, missing]
  cases prev.bind MonitoredRun.sample <;> rfl

theorem testedValue_eq (kept : RunKept order entry prev s) (single : entry.flagVWild = false)
    (plain : entry.flagDWild = false) (tests : entry.boolean ∨ entry.threshold) :
    testedValue entry s (now.queries order) = readValue order entry prev now := by
  rcases kept.aligned single now with ⟨index, aligned⟩
  rw [testedValue, sampledBy_eq aligned, readValue]
  cases present : now.sample with
  | none =>
      rw [integerChecks_missing tests present, readDifference_missing present, ite_self,
        Option.map_none, ite_self]
  | some v =>
      rw [integerChecks_present tests present]
      by_cases delta : entry.flagDelta = true
      · rw [if_pos delta, if_pos delta]
        cases before : prev.bind MonitoredRun.sample with
        | none =>
            have noDifference : readDifference order prev now = none := by
              rw [readDifference, before]
            rw [noDifference, ite_self]
            split
            next dvar _ =>
              rw [(kept.sampled plain dvar.head? s.oldDeltaDs.head?).2.1 delta, noDifference]
            next => rfl
        | some old =>
            rw [kept.checks plain delta tests before]
            by_cases whole : ∀ run ∈ prev, Uninterrupted entry run now
            · rw [if_pos whole, if_pos whole]
              exact (kept.sampled plain _ _).2.1 delta
            · rw [if_neg whole, if_neg whole]
      · rw [if_neg delta, if_neg delta]
        rw [← present]
        exact (kept.sampled plain _ _).1 (Bool.eq_false_of_not_eq_true delta)

theorem deltaTestedValue_eq (kept : RunKept order entry prev s) (single : entry.flagVWild = false)
    (plain : entry.flagDWild = false) (tests : entry.boolean ∨ entry.threshold)
    (absolute : entry.flagDelta = false) :
    deltaTestedValue entry s (now.queries order) = readDifference order prev now := by
  rcases kept.aligned single now with ⟨index, aligned⟩
  rw [deltaTestedValue, sampledBy_eq aligned]
  cases present : now.sample with
  | none => rw [integerChecks_missing tests present, readDifference_missing present]
  | some v =>
      rw [integerChecks_present tests present, absolute]
      exact (kept.sampled plain none none).2.2.1

theorem testEntry_bare (applies : Bool) (test : MteVarbind → Int → Armed × List Fired)
    (value : Option Int) (state : List Fired × MteVarbind) :
    (testEntry applies test value state).2.bare = state.2.bare := by
  cases applies with
  | false => rfl
  | true => cases value <;> rfl

theorem MteVarbind.exists_index {vp vp' : MteVarbind} (same : vp'.bare = vp.bare) :
    ∃ index, vp' = { vp with index } := by
  rcases bare_eq_iff.mp same with ⟨name_eq, type_eq, val_eq⟩
  refine ⟨vp'.index, ?_⟩
  rw [← name_eq, ← type_eq, ← val_eq]

theorem tests_entry {applies : Bool} {sampled : MteVarbind → Option MteVarbind → Sampled}
    {test : MteVarbind → Int → Armed × List Fired} {value : Option Int} {vp : MteVarbind}
    {old : List MteVarbind} (fired : List Fired)
    (reads : applies = true → (sampled vp old.head?).toOption = value ∧
      sampled vp old.head? ≠ .crash) :
    MteRun.tests applies (fun var => sampleTests sampled test var old) (fired, some [vp]) =
      ((testEntry applies test value (fired, vp)).1,
        some [(testEntry applies test value (fired, vp)).2]) := by
  cases applies with
  | false => rfl
  | true =>
      rcases reads rfl with ⟨rfl, whole⟩
      simp only [MteRun.tests, sampleTests]
      cases read : sampled vp old.head? with
      | crash => exact absurd read whole
      | skip => simp [Sampled.toOption, testEntry]
      | value v => simp [Sampled.toOption, testEntry]

theorem integerTests_entry {value delta : Option Int} {dvar : List MteVarbind} {vp : MteVarbind}
    (reads : entry.makesTests → ∀ index,
      (sampleValue entry dvar.head? s.oldDeltaDs.head? { vp with index }
        s.oldResults.head?).toOption = value ∧
      sampleValue entry dvar.head? s.oldDeltaDs.head? { vp with index } s.oldResults.head? ≠ .crash)
    (readsDelta : entry.makesDeltaTests → ∀ index,
      (deltaSample { vp with index } s.oldResults.head?).toOption = delta ∧
        deltaSample { vp with index } s.oldResults.head? ≠ .crash) :
    integerTests entry s dvar [vp] =
      ((testsAt entry s.oldResults.isEmpty vp value delta).1,
        some [(testsAt entry s.oldResults.isEmpty vp value delta).2]) := by
  have bool : (entry.boolean && entry.mteTBoolEvent.isSet) = true → entry.makesTests := by
    intro applies
    rw [MteTrigger.makesTests, applies]
    rfl
  have threshold : (entry.threshold &&
      (entry.mteTThRiseEvent.isSet || entry.mteTThFallEvent.isSet)) = true → entry.makesTests := by
    intro applies
    rw [MteTrigger.makesTests, applies, Bool.or_true]
  have deltas : (entry.makesDeltaTests && !s.oldResults.isEmpty) = true → entry.makesDeltaTests :=
    fun applies => (Bool.and_eq_true_iff.mp applies).1
  let first := s.oldResults.isEmpty
  let sampled := sampleValue entry dvar.head? s.oldDeltaDs.head?
  have boolStep := @tests_entry (entry.boolean && entry.mteTBoolEvent.isSet) sampled
    (booleanTest entry first) value vp s.oldResults [] fun applies => reads (bool applies) vp.index
  rcases MteVarbind.exists_index (testEntry_bare (entry.boolean && entry.mteTBoolEvent.isSet)
    (booleanTest entry first) value ([], vp)) with ⟨index, entry_eq⟩
  let afterBool := testEntry (entry.boolean && entry.mteTBoolEvent.isSet) (booleanTest entry first)
    value ([], vp)
  have thStep := @tests_entry
    (entry.threshold && (entry.mteTThRiseEvent.isSet || entry.mteTThFallEvent.isSet)) sampled
    (thresholdTest entry first) value afterBool.2 s.oldResults afterBool.1 fun applies => by
      rw [entry_eq]
      exact reads (threshold applies) index
  rcases MteVarbind.exists_index (testEntry_bare
    (entry.threshold && (entry.mteTThRiseEvent.isSet || entry.mteTThFallEvent.isSet))
    (thresholdTest entry first) value afterBool) with ⟨index', entry_eq'⟩
  let afterTh := testEntry
    (entry.threshold && (entry.mteTThRiseEvent.isSet || entry.mteTThFallEvent.isSet))
    (thresholdTest entry first) value afterBool
  have deltaStep := @tests_entry (entry.makesDeltaTests && !first) deltaSample
    (deltaThresholdTest entry) delta afterTh.2 s.oldResults afterTh.1 fun applies => by
      rw [entry_eq', entry_eq]
      exact readsDelta (deltas applies) index'
  simp only [integerTests]
  rw [boolStep, thStep]
  exact deltaStep

theorem testEntry_none (applies : Bool) (test : MteVarbind → Int → Armed × List Fired)
    (state : List Fired × MteVarbind) : testEntry applies test none state = state := by
  cases applies <;> rfl

theorem testsAt_none (entry : MteTrigger) (first : Bool) (vp : MteVarbind) :
    testsAt entry first vp none none = ([], vp) := by
  rw [testsAt, testEntry_none, testEntry_none, testEntry_none]

theorem testsAt_entry (first : Bool) (vp : MteVarbind) (value delta : Option Int) :
    ∃ index, (testsAt entry first vp value delta).2 = { vp with index } := by
  apply MteVarbind.exists_index
  rw [testsAt, testEntry_bare, testEntry_bare, testEntry_bare]

theorem MteTrigger.tests_of_makesTests (makes : entry.makesTests = true) :
    entry.boolean = true ∨ entry.threshold = true := by
  rw [makesTests, Bool.or_eq_true_iff, Bool.and_eq_true_iff, Bool.and_eq_true_iff] at makes
  exact makes.imp And.left And.left

theorem MteTrigger.tests_of_makesDeltaTests (makes : entry.makesDeltaTests = true) :
    entry.threshold = true ∧ entry.flagDelta = false := by
  rw [makesDeltaTests, Bool.and_eq_true_iff, Bool.and_eq_true_iff, Bool.not_eq_true'] at makes
  exact ⟨makes.1.1, makes.2⟩

theorem ran_stop {results : MteResults}
    (aligned : align (retrieve entry (now.values order)) false s.oldResults =
      ([now.entry order entry.mteTriggerValueID index], s.oldResults))
    (stops : integerChecks entry s [now.entry order entry.mteTriggerValueID index]
      (now.queries order) = .stop results) :
    (mteTriggerRun entry s (now.queries order)).fired =
      existenceTests entry [now.entry order entry.mteTriggerValueID index] s.oldResults ++
        (testsAt entry s.oldResults.isEmpty (now.entry order entry.mteTriggerValueID index)
          (testedValue entry s (now.queries order))
          (deltaTestedValue entry s (now.queries order))).1 ∧
    (mteTriggerRun entry s (now.queries order)).results = some results := by
  have stops' : integerChecks entry { s with oldResults := s.oldResults }
      [now.entry order entry.mteTriggerValueID index] (now.queries order) = .stop results := stops
  rw [testedValue, deltaTestedValue, sampledBy_eq aligned, sampledBy_eq aligned, stops,
    testsAt_none, List.append_nil]
  simp only [mteTriggerRun, MonitoredRun.queries, aligned]
  rw [MonitoredRun.queries] at stops'
  rw [stops']
  exact ⟨rfl, rfl⟩

theorem RunKept.ran_go {dvar : List MteVarbind} (kept : RunKept order entry prev s)
    (plain : entry.flagDWild = false)
    (aligned : align (retrieve entry (now.values order)) false s.oldResults =
      ([now.entry order entry.mteTriggerValueID index], s.oldResults))
    (goes : integerChecks entry s [now.entry order entry.mteTriggerValueID index]
      (now.queries order) = .go dvar)
    (later : entry.makesTests → entry.flagDelta = false ∨ prev.isSome) :
    (mteTriggerRun entry s (now.queries order)).fired =
      existenceTests entry [now.entry order entry.mteTriggerValueID index] s.oldResults ++
        (testsAt entry s.oldResults.isEmpty (now.entry order entry.mteTriggerValueID index)
          (testedValue entry s (now.queries order))
          (deltaTestedValue entry s (now.queries order))).1 ∧
    ∃ index', (mteTriggerRun entry s (now.queries order)).results =
      rotate entry s [now.entry order entry.mteTriggerValueID index'] dvar
        (some now.sysUpTime) := by
  have goes' : integerChecks entry { s with oldResults := s.oldResults }
      [now.entry order entry.mteTriggerValueID index] (now.queries order) = .go dvar := goes
  have tests := @integerTests_entry entry s (testedValue entry s (now.queries order))
    (deltaTestedValue entry s (now.queries order)) dvar
    (now.entry order entry.mteTriggerValueID index)
    (fun makes index' => by
      have read := @RunKept.sampled order entry prev now s index kept plain dvar.head?
        s.oldDeltaDs.head?
      have read' := @RunKept.sampled order entry prev now s index' kept plain dvar.head?
        s.oldDeltaDs.head?
      refine ⟨?_, read'.2.2.2.2 (later makes)⟩
      rw [testedValue, sampledBy_eq aligned, goes]
      by_cases delta : entry.flagDelta = true
      · exact (read'.2.1 delta).trans (read.2.1 delta).symm
      · have absolute := Bool.eq_false_of_not_eq_true delta
        exact (read'.1 absolute).trans (read.1 absolute).symm)
    (fun makes index' => by
      have read := @RunKept.sampled order entry prev now s index kept plain none none
      have read' := @RunKept.sampled order entry prev now s index' kept plain none none
      refine ⟨?_, read'.2.2.2.1⟩
      rw [deltaTestedValue, sampledBy_eq aligned, goes]
      exact read'.2.2.1.trans read.2.2.1.symm)
  rcases @testsAt_entry entry s.oldResults.isEmpty (now.entry order entry.mteTriggerValueID index)
    (testedValue entry s (now.queries order)) (deltaTestedValue entry s (now.queries order)) with
    ⟨index', entry_eq⟩
  have run_eq : mteTriggerRun entry s (now.queries order) =
      ⟨existenceTests entry [now.entry order entry.mteTriggerValueID index] s.oldResults ++
        (integerTests entry s dvar [now.entry order entry.mteTriggerValueID index]).1,
       (integerTests entry s dvar [now.entry order entry.mteTriggerValueID index]).2.bind
        fun var => rotate entry s var dvar (some now.sysUpTime)⟩ := by
    simp only [mteTriggerRun, MonitoredRun.queries, aligned]
    rw [MonitoredRun.queries] at goes'
    rw [goes']
  rw [run_eq, tests, entry_eq]
  exact ⟨rfl, index', rfl⟩

theorem deltaChecks_stop_or_go (plain : entry.flagDWild = false) (vars dvar : List MteVarbind)
    (time : Int) :
    deltaChecks entry s vars (some time) dvar = .stop ⟨vars, dvar, time⟩ ∨
      (s.oldResults ≠ [] ∧ deltaChecks entry s vars (some time) dvar = .go dvar) := by
  simp only [deltaChecks, plain]
  split_ifs with early changed wild
  · exact .inl rfl
  · exact .inl rfl
  · nomatch wild
  · right
    refine ⟨fun first => early (.inl ?_), rfl⟩
    rw [first]
    rfl

theorem rotate_kept {dvar : List MteVarbind}
    (marked : entry.flagDelta → entry.boolean ∨ entry.threshold → dvar = now.markers entry) :
    ∃ s', rotate entry s [now.entry order entry.mteTriggerValueID index] dvar
        (some now.sysUpTime) = some s' ∧ RunKept order entry (some now) s' := by
  by_cases delta : entry.flagDelta = true
  · refine ⟨_, by rw [rotate, if_pos delta, Option.map_some], ⟨index, rfl⟩, ?_⟩
    exact fun _ tests _ => ⟨rfl, marked delta tests⟩
  · refine ⟨_, by rw [rotate, if_neg delta], ⟨index, rfl⟩, ?_⟩
    exact fun delta' => absurd delta' delta

theorem RunKept.ran (kept : RunKept order entry prev s) (single : entry.flagVWild = false)
    (plain : entry.flagDWild = false) (now : MonitoredRun) :
    ∃ vp1, (align (retrieve entry (now.values order)) false s.oldResults).1 = [vp1] ∧
      (mteTriggerRun entry s (now.queries order)).fired =
        existenceTests entry [vp1] s.oldResults ++
          (testsAt entry s.oldResults.isEmpty vp1 (testedValue entry s (now.queries order))
            (deltaTestedValue entry s (now.queries order))).1 ∧
      ∃ s', (mteTriggerRun entry s (now.queries order)).results = some s' ∧
        RunKept order entry (some now) s' := by
  rcases kept.aligned single now with ⟨index, aligned⟩
  refine ⟨now.entry order entry.mteTriggerValueID index, by rw [aligned], ?_⟩
  -- the checks either stop, with these results kept, or go on with these markers
  have checked : (∃ results, integerChecks entry s
        [now.entry order entry.mteTriggerValueID index] (now.queries order) = .stop results ∧
        RunKept order entry (some now) results) ∨
      ∃ dvar, integerChecks entry s [now.entry order entry.mteTriggerValueID index]
        (now.queries order) = .go dvar ∧
        (entry.makesTests → entry.flagDelta = false ∨ prev.isSome) ∧
        (entry.flagDelta → entry.boolean ∨ entry.threshold → dvar = now.markers entry) := by
    by_cases tests : entry.boolean = true ∨ entry.threshold = true
    · cases present : now.sample with
      | none =>
          left
          refine ⟨_, integerChecks_missing tests present, ⟨index, rfl⟩, fun _ _ sampled => ?_⟩
          rw [present] at sampled
          nomatch sampled
      | some v =>
          rw [integerChecks_present tests present]
          by_cases delta : entry.flagDelta = true
          · rw [if_pos delta]
            rcases @deltaChecks_stop_or_go entry s plain
              [now.entry order entry.mteTriggerValueID index] (now.markers entry) now.sysUpTime with
              stops | ⟨later, goes⟩
            · exact .inl ⟨_, stops, ⟨index, rfl⟩, fun _ _ _ => ⟨rfl, rfl⟩⟩
            · right
              refine ⟨_, goes, fun _ => .inr ?_, fun _ _ => rfl⟩
              cases prev with
              | none => exact absurd kept later
              | some run => rfl
          · rw [if_neg delta]
            exact .inr ⟨[], rfl, fun _ => .inl (Bool.eq_false_of_not_eq_true delta),
              fun delta' => absurd delta' delta⟩
    · right
      refine ⟨[], by rw [integerChecks, if_neg tests], fun makes => ?_, fun _ tests' => ?_⟩
      · exact absurd (MteTrigger.tests_of_makesTests makes) tests
      · exact absurd tests' tests
  rcases checked with ⟨results, stops, kept'⟩ | ⟨dvar, goes, later, marked⟩
  · rcases ran_stop aligned stops with ⟨fired_eq, results_eq⟩
    exact ⟨fired_eq, results, results_eq, kept'⟩
  · rcases kept.ran_go plain aligned goes later with ⟨fired_eq, index', results_eq⟩
    rcases @rotate_kept order entry now s index' dvar marked with ⟨s', rotated, kept'⟩
    exact ⟨fired_eq, s', results_eq.trans rotated, kept'⟩

theorem stateAfter_kept (single : entry.flagVWild = false) (plain : entry.flagDWild = false)
    (earlier : List MonitoredRun) :
    ∃ s, stateAfter order entry earlier = some s ∧ RunKept order entry earlier.head? s := by
  induction earlier with
  | nil => exact ⟨_, rfl, rfl⟩
  | cons run earlier ih =>
      rcases ih with ⟨s, after, kept⟩
      rcases kept.ran single plain run with ⟨-, -, -, s', results_eq, kept'⟩
      refine ⟨s', ?_, kept'⟩
      rw [stateAfter, after, Option.bind_some, results_eq]

theorem readDifference_eq_iff :
    readDifference order prev now = difference prev now ↔
      ∀ old ∈ prev.bind MonitoredRun.sample, ∀ v ∈ now.sample, v.lost = old.lost := by
  rw [readDifference, difference]
  cases prev.bind MonitoredRun.sample with
  | none => simp
  | some old =>
      cases now.sample with
      | none => simp
      | some v =>
          simp only [Option.some.injEq, Option.mem_some_iff, forall_eq', v.integer_varVal,
            old.integer_varVal]
          omega

theorem sample_eq_iff :
    (now.sample.map fun v => (v.varVal order).integer) = now.sample.map SampleValue.numeric ↔
      ∀ v ∈ now.sample, v.lost = 0 := by
  cases now.sample with
  | none => simp
  | some v =>
      simp only [Option.map_some, Option.some.injEq, Option.mem_some_iff, forall_eq',
        v.integer_varVal]
      omega

theorem difference_parts (sampled : (difference prev now).isSome) :
    ∃ run ∈ prev, ∃ old ∈ run.sample, ∃ v ∈ now.sample, True := by
  rw [difference] at sampled
  cases prev with
  | none => nomatch sampled
  | some run =>
      cases before : run.sample with
      | none =>
          rw [Option.bind_some, before] at sampled
          nomatch sampled
      | some old =>
          cases present : now.sample with
          | none =>
              rw [Option.bind_some, before, present] at sampled
              nomatch sampled
          | some v => exact ⟨run, rfl, old, before, v, rfl, trivial⟩

theorem uninterrupted_iff :
    (∀ run ∈ prev, Uninterrupted entry run now) ↔ Continuous entry prev now ∧
      (prev.isSome → entry.flagSysUpT = false → now.marker.val = none) := by
  cases prev with
  | none => simp [Continuous]
  | some run =>
      simp only [Continuous, Uninterrupted, Option.mem_some_iff, forall_eq', Option.isSome_some]
      by_cases sysUpT : entry.flagSysUpT = true
      · simp [sysUpT]
      · have explicit := Bool.eq_false_of_not_eq_true sysUpT
        simp only [explicit, Bool.false_eq_true, false_or, forall_const]
        constructor
        · rintro ⟨inOrder, before, after⟩
          exact ⟨⟨inOrder, before.trans after.symm⟩, after⟩
        · rintro ⟨⟨inOrder, same⟩, after⟩
          exact ⟨inOrder, same.trans after, after⟩

theorem readValue_absolute_iff (absolute : entry.flagDelta = false) :
    readValue order entry prev now = expectedValue entry prev now ↔
      ∀ v ∈ now.sample, v.lost = 0 := by
  rw [readValue, expectedValue, absolute]
  exact sample_eq_iff

theorem readValue_delta_iff (delta : entry.flagDelta = true) :
    readValue order entry prev now = expectedValue entry prev now ↔
      (Continuous entry prev now → ∀ old ∈ prev.bind MonitoredRun.sample, ∀ v ∈ now.sample,
        v.lost = old.lost) ∧
      (entry.flagSysUpT = false → Continuous entry prev now → (difference prev now).isSome →
        now.marker.val = none) := by
  rw [readValue, expectedValue, if_pos delta, if_pos delta]
  by_cases continuous : Continuous entry prev now
  · rw [if_pos continuous]
    by_cases whole : ∀ run ∈ prev, Uninterrupted entry run now
    · rw [if_pos whole, readDifference_eq_iff]
      constructor
      · intro same
        refine ⟨fun _ => same, fun explicit _ sampled => ?_⟩
        rcases difference_parts sampled with ⟨run, mem, -⟩
        exact (uninterrupted_iff.mp whole).2 (Option.isSome_of_mem mem) explicit
      · intro ⟨same, _⟩
        exact same continuous
    · rw [if_neg whole]
      -- the checks stop at an explicit marker that has a value
      have marked : prev.isSome ∧ entry.flagSysUpT = false ∧ now.marker.val ≠ none := by
        by_contra unmarked
        refine whole (uninterrupted_iff.mpr ⟨continuous, fun later explicit => ?_⟩)
        by_contra valued
        exact unmarked ⟨later, explicit, valued⟩
      constructor
      · intro none_eq
        refine ⟨fun _ old before v present => ?_, fun _ _ sampled => ?_⟩
        · have sampled : difference prev now = some (v.numeric - old.numeric) := by
            rw [difference, Option.mem_def.mp before, Option.mem_def.mp present]
          rw [sampled] at none_eq
          nomatch none_eq
        · rw [← none_eq] at sampled
          nomatch sampled
      · intro ⟨_, unmarked⟩
        cases sampled : difference prev now with
        | none => rfl
        | some d =>
            have isSome : (difference prev now).isSome := by
              rw [sampled]
              rfl
            exact absurd (unmarked marked.2.1 continuous isSome) marked.2.2
  · rw [if_neg continuous]
    have broken : ¬ ∀ run ∈ prev, Uninterrupted entry run now := fun whole =>
      continuous (uninterrupted_iff.mp whole).1
    rw [if_neg broken]
    exact iff_of_true rfl ⟨fun continuous' => absurd continuous' continuous,
      fun _ continuous' => absurd continuous' continuous⟩

theorem RunKept.comparesValues_iff (kept : RunKept order entry prev s)
    (single : entry.flagVWild = false) (plain : entry.flagDWild = false) :
    ComparesValues order entry s prev now ↔ ReadsWhole entry prev now := by
  constructor
  · intro compares
    have value_eq : entry.makesTests →
        readValue order entry prev now = expectedValue entry prev now := fun makes => by
      rw [← testedValue_eq kept single plain (MteTrigger.tests_of_makesTests makes)]
      exact compares.value makes
    constructor
    · intro makes absolute
      exact (readValue_absolute_iff (Bool.eq_false_of_not_eq_true absolute)).mp (value_eq makes)
    · rintro (⟨makes, delta, continuous⟩ | makes)
      · exact ((readValue_delta_iff delta).mp (value_eq makes)).1 continuous
      · rcases MteTrigger.tests_of_makesDeltaTests makes with ⟨tests, absolute⟩
        apply readDifference_eq_iff.mp
        rw [← deltaTestedValue_eq kept single plain (.inr tests) absolute]
        exact compares.delta makes
    · intro makes delta explicit
      have unmarked := ((readValue_delta_iff delta).mp (value_eq makes)).2
      exact unmarked (Bool.eq_false_of_not_eq_true explicit)
  · intro whole
    constructor
    · rcases kept.ran single plain now with ⟨vp1, aligned, fired_eq, -⟩
      exact ⟨vp1, aligned, fired_eq⟩
    · intro makes
      rw [testedValue_eq kept single plain (MteTrigger.tests_of_makesTests makes)]
      by_cases delta : entry.flagDelta = true
      · refine (readValue_delta_iff delta).mpr ⟨fun continuous => ?_, fun explicit => ?_⟩
        · exact whole.delta (.inl ⟨makes, delta, continuous⟩)
        · exact whole.marker makes delta (by rw [explicit]; exact Bool.false_ne_true)
      · exact (readValue_absolute_iff (Bool.eq_false_of_not_eq_true delta)).mpr
          (whole.absolute makes delta)
    · intro makes
      rcases MteTrigger.tests_of_makesDeltaTests makes with ⟨tests, absolute⟩
      rw [deltaTestedValue_eq kept single plain (.inr tests) absolute]
      exact readDifference_eq_iff.mpr (whole.delta (.inr makes))

/-- After any runs, the tests of a run compare the values that the samples stand for exactly if
nothing is lost of these, and a marker with a value is not needed. -/
theorem mteTriggerRun_compares_iff (order : ByteOrder) (single : entry.flagVWild = false)
    (plain : entry.flagDWild = false) (earlier : List MonitoredRun) (now : MonitoredRun) :
    ∃ s, stateAfter order entry earlier = some s ∧
      (ComparesValues order entry s earlier.head? now ↔ ReadsWhole entry earlier.head? now) := by
  rcases @stateAfter_kept order entry single plain earlier with ⟨s, after, kept⟩
  exact ⟨s, after, kept.comparesValues_iff single plain⟩

def markedTrigger : MteTrigger :=
  { thresholdTrigger with flagDelta := true, flagSysUpT := false }

def markedRun (v : Int) : MonitoredRun :=
  ⟨some (.long asnInteger (.inl rfl) v), snmpNosuchinstance, rfl, 100,
    ⟨[], asnTimeticks, some ⟨ByteOrder.littleEndian.store 8 7, 7⟩, Armed.zero⟩⟩

theorem mteTriggerRun_compares_iff_marked :
    ∃ s, stateAfter .littleEndian markedTrigger [markedRun 0] = some s ∧
      ¬ ComparesValues .littleEndian markedTrigger s (some (markedRun 0)) (markedRun 12) := by
  rcases @mteTriggerRun_compares_iff markedTrigger .littleEndian rfl rfl [markedRun 0]
    (markedRun 12) with ⟨s, after, compares_iff⟩
  refine ⟨s, after, fun compares => ?_⟩
  have continuous : Continuous markedTrigger (some (markedRun 0)) (markedRun 12) := by
    rintro run mem
    cases mem
    exact ⟨le_rfl, .inr rfl⟩
  have unmarked := (compares_iff.mp compares).marker rfl rfl nofun continuous rfl
  nomatch unmarked

/-- A run that finds the `Counter64` 12. -/
def wideRun : MonitoredRun :=
  ⟨some (.words asnCounter64 (.inl rfl) 0 12 (by decide) (by decide)), snmpNosuchinstance, rfl, 100,
    MteVarbind.unset []⟩

theorem not_mteTriggerRun_compares :
    ¬ ∀ (order : ByteOrder) (entry : MteTrigger), entry.flagVWild = false →
      entry.flagDWild = false → ∀ (earlier : List MonitoredRun) (now : MonitoredRun),
      ∃ s, stateAfter order entry earlier = some s ∧
        ComparesValues order entry s earlier.head? now := by
  intro compares
  rcases compares .littleEndian thresholdTrigger rfl rfl [] wideRun with ⟨s, after, compared⟩
  cases after
  have value_eq := compared.value rfl
  nomatch value_eq

end NetSnmp
