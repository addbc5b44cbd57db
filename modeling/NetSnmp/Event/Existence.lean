import NetSnmp.Event.Results

/-!
# Existence triggers

The events of an existence trigger, at each run after the first, are those of the
names that are compared. They are exactly the changes from one sample to the next
one where no instance goes behind the last current one and where an instance that
comes or goes does not pass for one with a new value.
-/

namespace NetSnmp

variable {entry : MteTrigger} {now prev : Sample} {s : MteResults} {queries : MteQueries}
  {old : List MteVarbind} {index : Oid}

/-- The samples of the runs of a trigger and the events that they fired, the latest first, and
what the last one left. -/
inductive MteRuns (entry : MteTrigger) (allowed : MteResults → Sample → MteQueries → Prop) :
    List (Sample × List Fired) → MteResults → Prop
  | start : MteRuns entry allowed [] MteResults.empty
  | run {log : List (Sample × List Fired)} {s s' : MteResults} {now : Sample}
      {queries : MteQueries} (before : MteRuns entry allowed log s)
      (answered : queries.values = some now) (monitored : now.Of entry)
      (allows : allowed s now queries) (ran : (mteTriggerRun entry s queries).results = some s') :
      MteRuns entry allowed ((now, (mteTriggerRun entry s queries).fired) :: log) s'

/-- A walk finds something, and the query for the discontinuity markers does not fail. -/
structure Undisturbed (entry : MteTrigger) (now : Sample) (queries : MteQueries) : Prop where
  walked : entry.flagVWild = true → now.instances ≠ []
  markers : queries.HasMarkers entry

theorem MteRuns.recorded {allowed : MteResults → Sample → MteQueries → Prop}
    (undisturbed : ∀ s now queries, allowed s now queries → Undisturbed entry now queries)
    {log : List (Sample × List Fired)} (runs : MteRuns entry allowed log s) :
    (log = [] → s = MteResults.empty) ∧
    (∀ prev fired rest, log = (prev, fired) :: rest →
      prev.Answers entry ∧ Recorded entry prev s.oldResults) := by
  induction runs with
  | start =>
      refine ⟨fun _ => rfl, ?_⟩
      intro prev fired rest eq
      cases eq
  | @run log s s' now queries before answered monitored allows ran ih =>
      refine ⟨(absurd · (List.cons_ne_nil _ _)), ?_⟩
      intro now' fired rest eq
      cases eq
      have calm := undisturbed _ _ _ allows
      have answers : now.Answers entry := ⟨monitored, calm.walked⟩
      refine ⟨answers, ?_⟩
      have kept := mteTriggerRun_oldResults answered calm.markers ran
      rcases log with _ | ⟨⟨prev, fired'⟩, rest'⟩
      · -- the first run records the sample as it is
        rcases ih.1 rfl with rfl
        refine answers.recorded.congr (kept.trans ?_)
        rw [MteResults.empty, align_first, List.map_map, List.map_map]
        rfl
      · rcases ih.2 prev fired' rest' rfl with ⟨answered', recorded'⟩
        rcases align_recorded answers recorded' answered'.walked with ⟨behind, eq⟩
        refine (answers.recorded.comparisons recorded').congr (kept.trans ?_)
        rw [eq]

def existenceIndexes (fired : List Fired) : List Oid :=
  (fired.filter fun f => f.test = .existence).map Fired.instance_

def existenceEvent (entry : MteTrigger) (x : Joined MteVarbind MteVarbind) : Option Fired :=
  (existenceTest entry x.current x.previous).map
    (fire entry .existence entry.mteTExEvent x.current)

theorem existenceLoop_map (xs : List (Joined MteVarbind MteVarbind)) (behind : List MteVarbind) :
    existenceLoop entry (xs.map Joined.current) (xs.map Joined.previous ++ behind) =
      xs.filterMap (existenceEvent entry) := by
  induction xs with
  | nil => simp [existenceLoop]
  | cons x xs ih =>
      simp only [List.map_cons, List.cons_append, existenceLoop, ih, List.filterMap_cons]
      cases event : existenceTest entry x.current x.previous with
      | none => simp [existenceEvent, event]
      | some hot => simp [existenceEvent, event]

theorem sampleTests_fired {sampled : MteVarbind → Option MteVarbind → Sampled}
    {test : MteVarbind → Int → Armed × List Fired} {var : List MteVarbind}
    (other : ∀ vp1 v, ∀ f ∈ (test vp1 v).2, f.test ≠ .existence) :
    ∀ f ∈ (sampleTests sampled test var old).1, f.test ≠ .existence := by
  induction var generalizing old with
  | nil => simp [sampleTests]
  | cons vp1 var ih =>
      simp only [sampleTests]
      split
      · simp
      · exact ih
      · intro f mem
        rcases List.mem_append.mp mem with here | later
        · exact other _ _ f here
        · exact ih f later

theorem booleanTest_fired (first : Bool) (vp1 : MteVarbind) (v : Int) :
    ∀ f ∈ (booleanTest entry first vp1 v).2, f.test ≠ .existence := by
  unfold booleanTest
  split_ifs <;> simp [fire]

theorem thresholdTest_fired (first : Bool) (vp1 : MteVarbind) (v : Int) :
    ∀ f ∈ (thresholdTest entry first vp1 v).2, f.test ≠ .existence := by
  simp only [thresholdTest, riseTest, fallTest, List.mem_append]
  rintro f (rise | fall)
  · split_ifs at rise <;> simp_all [fire]
  · split_ifs at fall <;> simp_all [fire]

theorem deltaThresholdTest_fired (vp1 : MteVarbind) (v : Int) :
    ∀ f ∈ (deltaThresholdTest entry vp1 v).2, f.test ≠ .existence := by
  simp only [deltaThresholdTest, List.mem_append]
  rintro f (rise | fall)
  · split_ifs at rise <;> simp_all [fire]
  · split_ifs at fall <;> simp_all [fire]

theorem tests_fired {applies : Bool} {loop : List MteVarbind →
    List Fired × Option (List MteVarbind)}
    {soFar : List Fired × Option (List MteVarbind)}
    (other : ∀ var, ∀ f ∈ (loop var).1, f.test ≠ .existence)
    (before : ∀ f ∈ soFar.1, f.test ≠ .existence) :
    ∀ f ∈ (MteRun.tests applies loop soFar).1, f.test ≠ .existence := by
  unfold MteRun.tests
  split
  · intro f mem
    rcases List.mem_append.mp mem with earlier | here
    · exact before f earlier
    · exact other _ f here
  · exact before

theorem integerTests_fired {dvar var : List MteVarbind} :
    ∀ f ∈ (integerTests entry s dvar var).1, f.test ≠ .existence := by
  refine tests_fired (fun _ => sampleTests_fired deltaThresholdTest_fired) ?_
  refine tests_fired (fun _ => sampleTests_fired (thresholdTest_fired _)) ?_
  refine tests_fired (fun _ => sampleTests_fired (booleanTest_fired _)) ?_
  simp

theorem existenceLoop_fired {var : List MteVarbind} :
    ∀ f ∈ existenceLoop entry var old, f.test = .existence := by
  induction var generalizing old with
  | nil => simp [existenceLoop]
  | cons vp1 var ih =>
      cases old with
      | nil => simp [existenceLoop]
      | cons vp2 old =>
          intro f mem
          rcases List.mem_append.mp mem with here | later
          · rcases Option.map_eq_some_iff.mp (Option.mem_toList.mp here) with ⟨hot, -, rfl⟩
            rfl
          · exact ih f later

theorem existenceStartup_fired {var : List MteVarbind} :
    ∀ f ∈ existenceStartup entry var, f.test = .existence := by
  intro f mem
  rcases List.mem_append.mp mem with present | absent
  · split_ifs at present
    · rcases List.mem_map.mp present with ⟨vp1, -, rfl⟩
      rfl
    · cases present
  · split_ifs at absent
    · rcases List.mem_filterMap.mp absent with ⟨vp1, -, event⟩
      split_ifs at event
      cases event
      rfl
    · cases absent

theorem existenceTests_fired {var : List MteVarbind} :
    ∀ f ∈ existenceTests entry var old, f.test = .existence := by
  unfold existenceTests
  split_ifs
  · exact existenceStartup_fired
  · exact existenceLoop_fired
  · simp

theorem existenceIndexes_run {aligned : List MteVarbind × List MteVarbind}
    (configured : entry.existence = true) (hasEvent : entry.mteTExEvent.isSet = true)
    (answered : queries.values = some now)
    (align_eq : align (retrieve entry now) false s.oldResults = aligned)
    (later : aligned.2 ≠ []) :
    existenceIndexes (mteTriggerRun entry s queries).fired =
      (existenceLoop entry aligned.1 aligned.2).map Fired.instance_ := by
  have notFirst : aligned.2.isEmpty = false := by simpa using later
  have tests : existenceTests entry aligned.1 aligned.2 =
      existenceLoop entry aligned.1 aligned.2 := by
    simp [existenceTests, configured, hasEvent, notFirst]
  have all : (existenceLoop entry aligned.1 aligned.2).filter (fun f => f.test = .existence) =
      existenceLoop entry aligned.1 aligned.2 := by
    refine List.filter_eq_self.mpr ?_
    intro f mem
    exact decide_eq_true (existenceLoop_fired f mem)
  have none {s : MteResults} {dvar : List MteVarbind} :
      (integerTests entry s dvar aligned.1).1.filter (fun f => f.test = .existence) = [] := by
    refine List.filter_eq_nil_iff.mpr ?_
    intro f mem isExistence
    exact integerTests_fired f mem (of_decide_eq_true isExistence)
  simp only [mteTriggerRun, answered, align_eq, tests]
  split
  · rw [existenceIndexes, all]
  · rw [existenceIndexes, all]
  · rw [existenceIndexes, List.filter_append, all, none, List.append_nil]

end NetSnmp
