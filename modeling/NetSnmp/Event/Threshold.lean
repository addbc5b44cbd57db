import NetSnmp.Event.Existence
import NetSnmp.Hysteresis

/-!
# Threshold tests

What a run of a trigger with absolute samples does at one name: the two threshold
flags of its entry move on as a latch, and the events are those of the latch.
-/

namespace NetSnmp

variable {entry : MteTrigger} {now prev : Sample} {s : MteResults} {queries : MteQueries}
  {old vars : List MteVarbind} {index : Oid} {vp : MteVarbind}

def Armed.latch (armed : Armed) : Latch := ⟨armed.thRise, armed.thFall⟩

def thresholdEvents (index : Oid) (fired : List Fired) : List MteTest :=
  (fired.filter fun f => f.instance_ = index ∧ (f.test = .thRise ∨ f.test = .thFall)).map Fired.test

theorem thresholdEvents_append (index : Oid) (fired fired' : List Fired) :
    thresholdEvents index (fired ++ fired') =
      thresholdEvents index fired ++ thresholdEvents index fired' := by
  simp [thresholdEvents]

theorem thresholdEvents_eq_nil {fired : List Fired}
    (other : ∀ f ∈ fired, f.instance_ ≠ index ∨ (f.test ≠ .thRise ∧ f.test ≠ .thFall)) :
    thresholdEvents index fired = [] := by
  refine List.map_eq_nil_iff.mpr (List.filter_eq_nil_iff.mpr ?_)
  intro f mem holds
  rcases of_decide_eq_true holds with ⟨same, test⟩
  rcases other f mem with apart | ⟨notRise, notFall⟩
  · exact apart same
  · rcases test with rise | fall
    · exact notRise rise
    · exact notFall fall

def latchEvents (entry : MteTrigger) (first : Bool) (latch : Latch) (v : Int) : List MteTest :=
  (if entry.mteTThRiseValue ≤ v ∧ latch.rise ∧ (first → entry.mteTThStartRise) then [.thRise]
  else []) ++
  (if v ≤ entry.mteTThFallValue ∧ latch.fall ∧ (first → entry.mteTThStartFall) then [.thFall]
  else [])

theorem thRise_mem_latchEvents_iff {first : Bool} {latch : Latch} {v : Int} :
    .thRise ∈ latchEvents entry first latch v ↔
      entry.mteTThRiseValue ≤ v ∧ latch.rise = true ∧ (first = true → entry.mteTThStartRise) := by
  unfold latchEvents
  split_ifs <;> simp_all

theorem thFall_mem_latchEvents_iff {first : Bool} {latch : Latch} {v : Int} :
    .thFall ∈ latchEvents entry first latch v ↔
      v ≤ entry.mteTThFallValue ∧ latch.fall = true ∧ (first = true → entry.mteTThStartFall) := by
  unfold latchEvents
  split_ifs <;> simp_all

theorem length_latchEvents_le (below : entry.mteTThFallValue < entry.mteTThRiseValue)
    (first : Bool) (latch : Latch) (v : Int) : (latchEvents entry first latch v).length ≤ 1 := by
  simp only [latchEvents]
  by_cases high : entry.mteTThRiseValue ≤ v
  · have notLow : ¬ v ≤ entry.mteTThFallValue := by omega
    simp only [notLow, false_and, if_false, List.append_nil]
    split_ifs <;> simp
  · simp only [high, false_and, if_false, List.nil_append]
    split_ifs <;> simp

/-- The events of both thresholds are configured, and the falling one is below the rising one. -/
structure MteTrigger.HasThresholds (entry : MteTrigger) : Prop where
  absolute : entry.flagDelta = false
  threshold : entry.threshold = true
  rises : entry.mteTThRiseEvent.isSet = true
  falls : entry.mteTThFallEvent.isSet = true
  below : entry.mteTThFallValue < entry.mteTThRiseValue

def MteTrigger.moves (entry : MteTrigger) (latch : Latch) (v : Int) : Latch :=
  latch.step (entry.mteTThRiseValue ≤ v) (v ≤ entry.mteTThFallValue)

theorem riseTest_latch (first : Bool) (vp1 : MteVarbind) (cmp : Armed) (v : Int) :
    (riseTest entry first vp1 cmp v).1.latch =
      if entry.mteTThRiseValue ≤ v ∧ cmp.latch.rise then ⟨false, true⟩ else cmp.latch := by
  by_cases crosses : entry.mteTThRiseValue ≤ v ∧ cmp.thRise = true
  · simp only [riseTest, Armed.latch, if_pos crosses]
    exact (if_pos crosses).symm
  · simp only [riseTest, Armed.latch, if_neg crosses]
    exact (if_neg crosses).symm

theorem fallTest_latch (first : Bool) (vp1 : MteVarbind) (cmp : Armed) (v : Int) :
    (fallTest entry first vp1 cmp v).1.latch =
      if v ≤ entry.mteTThFallValue ∧ cmp.latch.fall then ⟨true, false⟩ else cmp.latch := by
  by_cases crosses : v ≤ entry.mteTThFallValue ∧ cmp.thFall = true
  · simp only [fallTest, Armed.latch, if_pos crosses]
    exact (if_pos crosses).symm
  · simp only [fallTest, Armed.latch, if_neg crosses]
    exact (if_neg crosses).symm

theorem thresholdTest_latch (first : Bool) (vp1 : MteVarbind) (v : Int) :
    (thresholdTest entry first vp1 v).1.latch = entry.moves vp1.index.latch v := by
  simp only [thresholdTest, fallTest_latch, riseTest_latch, MteTrigger.moves, Latch.step,
    Bool.and_eq_true, decide_eq_true_eq]

theorem booleanTest_latch (first : Bool) (vp1 : MteVarbind) (v : Int) :
    (booleanTest entry first vp1 v).1.latch = vp1.index.latch := by
  simp only [booleanTest]
  split_ifs <;> rfl

theorem deltaThresholdTest_latch (vp1 : MteVarbind) (v : Int) :
    (deltaThresholdTest entry vp1 v).1.latch = vp1.index.latch := by
  simp only [deltaThresholdTest]
  split_ifs <;> rfl

theorem riseTest_events (has : entry.HasThresholds) (first : Bool) {vp1 : MteVarbind}
    (name : vp1.name = entry.mteTriggerValueID ++ index) (cmp : Armed) (v : Int) :
    thresholdEvents index (riseTest entry first vp1 cmp v).2 =
      if entry.mteTThRiseValue ≤ v ∧ cmp.latch.rise ∧ (first → entry.mteTThStartRise) then [.thRise]
      else [] := by
  have suffix : vp1.name.drop entry.mteTriggerValueID.length = index := by rw [name, List.drop_left]
  simp only [riseTest, Armed.latch, has.rises, and_true]
  cases first <;> split_ifs <;> simp_all [thresholdEvents, fire]

theorem fallTest_events (has : entry.HasThresholds) (first : Bool) {vp1 : MteVarbind}
    (name : vp1.name = entry.mteTriggerValueID ++ index) (cmp : Armed) (v : Int) :
    thresholdEvents index (fallTest entry first vp1 cmp v).2 =
      if v ≤ entry.mteTThFallValue ∧ cmp.latch.fall ∧ (first → entry.mteTThStartFall) then [.thFall]
      else [] := by
  have suffix : vp1.name.drop entry.mteTriggerValueID.length = index := by rw [name, List.drop_left]
  simp only [fallTest, Armed.latch, has.falls, and_true]
  cases first <;> split_ifs <;> simp_all [thresholdEvents, fire]

theorem thresholdTest_events (has : entry.HasThresholds) (first : Bool) {vp1 : MteVarbind}
    (name : vp1.name = entry.mteTriggerValueID ++ index) (v : Int) :
    thresholdEvents index (thresholdTest entry first vp1 v).2 =
      latchEvents entry first vp1.index.latch v := by
  simp only [thresholdTest, thresholdEvents_append, riseTest_events has first name,
    fallTest_events has first name, riseTest_latch, latchEvents]
  by_cases low : v ≤ entry.mteTThFallValue
  · have notHigh : ¬ entry.mteTThRiseValue ≤ v := by
      have below := has.below
      omega
    simp only [notHigh, false_and, if_false]
  · simp only [low, false_and, if_false]

theorem thresholdTest_instance (first : Bool) (vp1 : MteVarbind) (v : Int) :
    ∀ f ∈ (thresholdTest entry first vp1 v).2,
      f.instance_ = vp1.name.drop entry.mteTriggerValueID.length := by
  simp only [thresholdTest, riseTest, fallTest, List.mem_append]
  rintro f (rise | fall)
  · split_ifs at rise <;> simp_all [fire]
  · split_ifs at fall <;> simp_all [fire]

def valueTest (test : MteVarbind → Int → Armed × List Fired) (vp1 : MteVarbind) :
    Armed × List Fired :=
  match vp1.val with
  | none => (vp1.index, [])
  | some val => test vp1 val.integer

theorem sampleTests_absolute (absolute : entry.flagDelta = false) (dv1 dv2 : Option MteVarbind)
    (test : MteVarbind → Int → Armed × List Fired) (vars old : List MteVarbind) :
    sampleTests (sampleValue entry dv1 dv2) test vars old =
      (vars.flatMap fun vp1 => (valueTest test vp1).2,
        some (vars.map fun vp1 => { vp1 with index := (valueTest test vp1).1 })) := by
  induction vars generalizing old with
  | nil => rfl
  | cons vp1 vars ih =>
      simp only [sampleTests, ih, List.flatMap_cons, List.map_cons]
      rcases vp1 with ⟨name, type, val, flags⟩
      cases val with
      | none => simp [sampleValue, valueTest]
      | some value => simp [sampleValue, valueTest, absolute]

theorem thresholdEvents_flatMap (increasing : Increasing MteVarbind.name vars)
    (below : ∀ vp ∈ vars, ∃ index, vp.name = entry.mteTriggerValueID ++ index)
    {part : MteVarbind → List Fired}
    (own : ∀ vp ∈ vars, ∀ f ∈ part vp, f.instance_ = vp.name.drop entry.mteTriggerValueID.length)
    (mem : vp ∈ vars) (name : vp.name = entry.mteTriggerValueID ++ index) :
    thresholdEvents index (vars.flatMap part) = thresholdEvents index (part vp) := by
  have distributes : thresholdEvents index (vars.flatMap part) =
      vars.flatMap fun vp => thresholdEvents index (part vp) := by
    simp only [thresholdEvents, List.filter_flatMap, List.map_flatMap]
  rw [distributes]
  refine increasing.flatMap_eq mem ?_
  intro vp' mem' differ
  refine thresholdEvents_eq_nil ?_
  intro f memF
  left
  rcases below vp' mem' with ⟨index', name'⟩
  rw [own vp' mem' f memF, name', List.drop_left]
  rintro rfl
  exact differ (name'.trans name.symm)

theorem existenceTests_threshold (vars old : List MteVarbind) :
    thresholdEvents index (existenceTests entry vars old) = [] := by
  refine thresholdEvents_eq_nil ?_
  intro f mem
  rw [existenceTests_fired f mem]
  exact Or.inr ⟨by decide, by decide⟩

def MteVarbind.thPart (vp : MteVarbind) : Oid × Byte × Option VarVal × Latch :=
  (vp.name, vp.type, vp.val, vp.index.latch)

theorem sampleTests_threshold {sampled : MteVarbind → Option MteVarbind → Sampled}
    {test : MteVarbind → Int → Armed × List Fired} {vars : List MteVarbind}
    (other : ∀ vp1 v, ∀ f ∈ (test vp1 v).2, f.test ≠ .thRise ∧ f.test ≠ .thFall) :
    thresholdEvents index (sampleTests sampled test vars old).1 = [] := by
  refine thresholdEvents_eq_nil ?_
  intro f mem
  right
  induction vars generalizing old with
  | nil => cases mem
  | cons vp1 vars ih =>
      simp only [sampleTests] at mem
      split at mem
      · cases mem
      · exact ih mem
      · rcases List.mem_append.mp mem with here | later
        · exact other _ _ f here
        · exact ih later

theorem booleanTest_threshold (first : Bool) (vp1 : MteVarbind) (v : Int) :
    ∀ f ∈ (booleanTest entry first vp1 v).2, f.test ≠ .thRise ∧ f.test ≠ .thFall := by
  simp only [booleanTest]
  split_ifs <;> simp [fire]

theorem deltaThresholdTest_threshold (vp1 : MteVarbind) (v : Int) :
    ∀ f ∈ (deltaThresholdTest entry vp1 v).2, f.test ≠ .thRise ∧ f.test ≠ .thFall := by
  simp only [deltaThresholdTest, List.mem_append]
  rintro f (rise | fall)
  · split_ifs at rise <;> simp_all [fire]
  · split_ifs at fall <;> simp_all [fire]

theorem booleanTests_threshold (s : MteResults) (index : Oid)
    (absolute : entry.flagDelta = false) (applies : Bool)
    (dv1 dv2 : Option MteVarbind) (vars : List MteVarbind) :
    ∃ (fired : List Fired) (vars' : List MteVarbind),
      MteRun.tests applies (fun var => sampleTests (sampleValue entry dv1 dv2)
        (booleanTest entry s.oldResults.isEmpty) var s.oldResults) ([], some vars) =
        (fired, some vars') ∧
      thresholdEvents index fired = [] ∧
      vars'.map MteVarbind.thPart = vars.map MteVarbind.thPart := by
  cases applies with
  | false => exact ⟨[], vars, rfl, rfl, rfl⟩
  | true =>
      have tested := sampleTests_absolute absolute dv1 dv2
        (booleanTest entry s.oldResults.isEmpty) vars s.oldResults
      have noEvents : thresholdEvents index (sampleTests (sampleValue entry dv1 dv2)
          (booleanTest entry s.oldResults.isEmpty) vars s.oldResults).1 = [] :=
        sampleTests_threshold (booleanTest_threshold _)
      have kept := sampleTests_map MteVarbind.thPart
        (fun vp1 v => by simp only [MteVarbind.thPart, booleanTest_latch])
        (congrArg Prod.snd tested)
      rw [tested] at noEvents
      exact ⟨_, _, congrArg (fun loop => ([] ++ loop.1, loop.2)) tested, noEvents, kept⟩

theorem integerTests_threshold (s : MteResults) (index : Oid) (has : entry.HasThresholds)
    (dvar vars : List MteVarbind) :
    ∃ vars' : List MteVarbind, vars'.map MteVarbind.thPart = vars.map MteVarbind.thPart ∧
      thresholdEvents index (integerTests entry s dvar vars).1 =
        thresholdEvents index (vars'.flatMap fun vp1 =>
          (valueTest (thresholdTest entry s.oldResults.isEmpty) vp1).2) ∧
      ∀ var', (integerTests entry s dvar vars).2 = some var' →
        var'.map MteVarbind.thPart = vars'.map fun vp1 => MteVarbind.thPart
          { vp1 with index := (valueTest (thresholdTest entry s.oldResults.isEmpty) vp1).1 } := by
  rcases booleanTests_threshold s index has.absolute
    (entry.boolean && entry.mteTBoolEvent.isSet) dvar.head? s.oldDeltaDs.head? vars with
    ⟨fired, vars', eq, noEvents, same⟩
  refine ⟨vars', same, ?_⟩
  have applies : (entry.threshold && (entry.mteTThRiseEvent.isSet || entry.mteTThFallEvent.isSet)) =
      true := by
    simp [has.threshold, has.rises]
  simp only [integerTests, eq, applies]
  rw [MteRun.tests.eq_def true]
  simp only [sampleTests_absolute has.absolute]
  unfold MteRun.tests
  split
  · rename_i tested
    cases tested
    constructor
    · rw [thresholdEvents_append, thresholdEvents_append, noEvents,
        sampleTests_threshold deltaThresholdTest_threshold, List.nil_append, List.append_nil]
    · intro var' found
      have kept := sampleTests_map MteVarbind.thPart
        (fun vp1 v => by simp only [MteVarbind.thPart, deltaThresholdTest_latch]) found
      rw [kept, List.map_map]
      rfl
  · constructor
    · rw [thresholdEvents_append, noEvents, List.nil_append]
    · intro var' found
      cases found
      rw [List.map_map]
      rfl

theorem run_value (has : entry.HasThresholds) (answered : queries.values = some now)
    (align_eq : align (retrieve entry now) false s.oldResults = (vars, old))
    (increasing : Increasing MteVarbind.name vars)
    (below : ∀ vp ∈ vars, ∃ index, vp.name = entry.mteTriggerValueID ++ index)
    (integer : ∀ first, vars.head? = some first → isInteger first.type = true)
    (mem : vp ∈ vars) (name : vp.name = entry.mteTriggerValueID ++ index) {val : VarVal}
    (value : vp.val = some val) :
    thresholdEvents index (mteTriggerRun entry s queries).fired =
      latchEvents entry old.isEmpty vp.index.latch val.integer ∧
    ∀ s', (mteTriggerRun entry s queries).results = some s' →
      ∀ vp' ∈ s'.oldResults, vp'.name = vp.name →
        vp'.index.latch = entry.moves vp.index.latch val.integer := by
  have go (s : MteResults) : integerChecks entry s vars queries = .go [] := by
    rcases vars with _ | ⟨first, rest⟩
    · cases mem
    · simp [integerChecks, has.absolute, integer first rfl]
  rcases integerTests_threshold { s with oldResults := old } index has [] vars with
    ⟨vars', same, events, kept⟩
  have names : vars'.map MteVarbind.name = vars.map MteVarbind.name := by
    have mapped := congrArg (List.map Prod.fst) same
    rw [List.map_map, List.map_map] at mapped
    exact mapped
  have increasing' : Increasing MteVarbind.name vars' := by
    have sorted := List.pairwise_map.mpr increasing
    rw [← names] at sorted
    exact List.pairwise_map.mp sorted
  have below' : ∀ vp ∈ vars', ∃ index, vp.name = entry.mteTriggerValueID ++ index := by
    intro vp' mem'
    have memName := List.mem_map_of_mem (f := MteVarbind.name) mem'
    rw [names] at memName
    rcases List.mem_map.mp memName with ⟨vp'', mem'', eq⟩
    exact eq ▸ below vp'' mem''
  -- the entry as the threshold tests find it
  have memPart := List.mem_map_of_mem (f := MteVarbind.thPart) mem
  rw [← same] at memPart
  rcases List.mem_map.mp memPart with ⟨vp1, mem1, part⟩
  rcases Prod.mk.inj part with ⟨name1, rest⟩
  rcases Prod.mk.inj rest with ⟨-, rest⟩
  rcases Prod.mk.inj rest with ⟨value1, latch1⟩
  have test : valueTest (thresholdTest entry old.isEmpty) vp1 =
      thresholdTest entry old.isEmpty vp1 val.integer := by
    rw [valueTest, value1, value]
  have own : ∀ vp ∈ vars', ∀ f ∈ (valueTest (thresholdTest entry old.isEmpty) vp).2,
      f.instance_ = vp.name.drop entry.mteTriggerValueID.length := by
    intro vp _ f memF
    unfold valueTest at memF
    split at memF
    · cases memF
    · exact thresholdTest_instance _ vp _ f memF
  simp only [mteTriggerRun, answered, align_eq, go]
  constructor
  · rw [thresholdEvents_append, existenceTests_threshold, List.nil_append, events,
      thresholdEvents_flatMap increasing' below' own mem1 (name1.trans name), test,
      thresholdTest_events has _ (name1.trans name), latch1]
  · intro s' ran vp' mem' name'
    rcases Option.bind_eq_some_iff.mp ran with ⟨var', tested, rotated⟩
    rw [rotate, if_neg (by simp [has.absolute])] at rotated
    cases rotated
    have parts := kept var' tested
    have memPart' := List.mem_map_of_mem (f := MteVarbind.thPart) mem'
    rw [parts] at memPart'
    rcases List.mem_map.mp memPart' with ⟨vp2, mem2, part2⟩
    rcases Prod.mk.inj part2 with ⟨name2, rest2⟩
    rcases Prod.mk.inj rest2 with ⟨-, rest2⟩
    rcases Prod.mk.inj rest2 with ⟨-, latch2⟩
    have eq : vp2 = vp1 := by
      refine increasing'.eq_of_key_eq mem2 mem1 ?_
      rw [name1]
      exact name2.trans name'
    rw [← latch2, eq, test, thresholdTest_latch, latch1]

theorem run_missing (has : entry.HasThresholds) (answered : queries.values = some now)
    (align_eq : align (retrieve entry now) false s.oldResults = (vars, old))
    (below : ∀ vp ∈ vars, ∃ index, vp.name = entry.mteTriggerValueID ++ index)
    (missing : ∀ vp ∈ vars, vp.name = entry.mteTriggerValueID ++ index → vp.val = none) :
    thresholdEvents index (mteTriggerRun entry s queries).fired = [] := by
  simp only [mteTriggerRun, answered, align_eq]
  split
  · exact existenceTests_threshold _ _
  · exact existenceTests_threshold _ _
  · rename_i dvar _
    rcases integerTests_threshold { s with oldResults := old } index has dvar vars with
      ⟨vars', same, events, -⟩
    rw [thresholdEvents_append, existenceTests_threshold, List.nil_append, events]
    refine thresholdEvents_eq_nil ?_
    intro f memF
    rcases List.mem_flatMap.mp memF with ⟨vp1, mem1, event⟩
    left
    rintro rfl
    have memPart := List.mem_map_of_mem (f := MteVarbind.thPart) mem1
    rw [same] at memPart
    rcases List.mem_map.mp memPart with ⟨vp, mem, part⟩
    rcases Prod.mk.inj part with ⟨name, rest⟩
    rcases Prod.mk.inj rest with ⟨-, rest⟩
    rcases Prod.mk.inj rest with ⟨value, -⟩
    rcases below vp mem with ⟨index, at_⟩
    unfold valueTest at event
    split at event
    · cases event
    · rename_i val valued
      have instance_ : f.instance_ = index := by
        rw [thresholdTest_instance _ _ _ f event, ← name, at_, List.drop_left]
      rw [instance_] at missing
      rw [← value, missing vp mem at_] at valued
      cases valued

end NetSnmp
