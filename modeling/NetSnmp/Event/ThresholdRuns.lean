import NetSnmp.Event.Changes
import NetSnmp.Event.Threshold

/-!
# Threshold triggers

Over the runs of a trigger with absolute samples, the events for an instance are
those of a latch that follows its samples: a rising and a falling event alternate
while the instance stays present.
-/

namespace NetSnmp

variable {entry : MteTrigger} {now prev : Sample} {s s' : MteResults} {queries : MteQueries}
  {old : List MteVarbind} {index : Oid} {vp : MteVarbind}

def Sample.valueAt (sample : Sample) (index : Oid) : Option Int :=
  (rowWith MteInstance.index sample.instances index).bind fun i => i.val.map VarVal.integer

/-- Whenever the sample has the instance, it has a value. -/
def Sample.Valued (sample : Sample) (index : Oid) : Prop :=
  ∀ i ∈ sample.instances, i.index = index → ∃ val, i.val = some val

theorem Sample.valueAt_of_not_has {sample : Sample} (missing : ¬ sample.Has index) :
    sample.valueAt index = none := by
  have none : rowWith MteInstance.index sample.instances index = none := by
    refine rowWith_eq_none_iff.mpr ?_
    intro i mem same
    exact missing ⟨i, mem, same⟩
  rw [valueAt, none]
  rfl

theorem Sample.valueAt_of_mem {sample : Sample} {i : MteInstance} (mem : i ∈ sample.instances)
    {val : VarVal} (valued : i.val = some val) : sample.valueAt i.index = some val.integer := by
  rw [valueAt, sample.increasing.rowWith_eq_some_iff.mpr ⟨mem, rfl⟩, Option.bind_some, valued]
  rfl

/-- What the flags of a trigger survive: a walk finds something and its first instance is of an
integer type, no old entry for a present instance sorts before that one, and an instance that
comes back has not left an entry whose threshold flags are not both set. -/
structure Steady (entry : MteTrigger) (s : MteResults) (now : Sample) : Prop where
  walked : entry.flagVWild = true → now.instances ≠ []
  integer : ∀ first, now.instances.head? = some first → isInteger first.type = true
  leading : ∀ first, now.instances.head? = some first → ∀ vp ∈ s.oldResults, vp.type ≠ asnNull →
    entry.mteTriggerValueID ++ first.index ≤ vp.name
  fresh : ∀ vp ∈ s.oldResults, vp.type = asnNull → ∀ i ∈ now.instances,
    vp.name = entry.mteTriggerValueID ++ i.index → vp.index.thRise = true ∧ vp.index.thFall = true

def MteTrigger.High (entry : MteTrigger) (v : Int) : Prop := entry.mteTThRiseValue ≤ v

def MteTrigger.Low (entry : MteTrigger) (v : Int) : Prop := v ≤ entry.mteTThFallValue

/-- The flags of the entry for a present instance are those of a latch that has followed its
samples. -/
def Latched (entry : MteTrigger) (index : Oid) (history : List (Option Int))
    (old : List MteVarbind) : Prop :=
  ∀ vp ∈ old, vp.name = entry.mteTriggerValueID ++ index → vp.type ≠ asnNull →
    vp.index.latch.For entry.High entry.Low history

theorem Latch.both_for_nil : Latch.both.For entry.High entry.Low [] :=
  ⟨iff_of_true rfl trivial, iff_of_true rfl trivial⟩

theorem Latch.both_for_missing (history : List (Option Int)) :
    Latch.both.For entry.High entry.Low (none :: history) :=
  ⟨iff_of_true rfl trivial, iff_of_true rfl trivial⟩

theorem MteTrigger.HasThresholds.moves_for (has : entry.HasThresholds) {latch : Latch}
    {history : List (Option Int)} (stands : latch.For entry.High entry.Low history) (v : Int) :
    (entry.moves latch v).For entry.High entry.Low (some v :: history) := by
  refine stands.step (decide_eq_true_iff) (decide_eq_true_iff) ?_
  rintro ⟨high, low⟩
  have below := has.below
  unfold High at high
  unfold Low at low
  omega

section Aligned

variable (current : Recorded entry now ((retrieve entry now).map flatten))
  (previous : Recorded entry prev old)

include current previous

theorem aligned_latch {history : List (Option Int)} (latched : Latched entry index history old)
    (gone : ¬ prev.Has index → ∃ rest, history = none :: rest)
    (fresh : ∀ vp ∈ old, vp.type = asnNull → ∀ i ∈ now.instances,
      vp.name = entry.mteTriggerValueID ++ i.index → vp.index.thRise = true ∧
        vp.index.thFall = true)
    {x : Joined MteVarbind MteVarbind} (mem : x ∈ comparisons (retrieve entry now) old)
    (name : x.name = entry.mteTriggerValueID ++ index) (present : now.Has index) :
    x.current.index.latch.For entry.High entry.Low history := by
  have joins := ((mem_comparisons_iff current previous).mp mem).1
  have type := (current_type_ne_iff current previous mem name).mpr present
  have had := previous_type_ne_iff current previous mem name
  cases x with
  | left vp1 =>
      rcases gone (had.not.mp (not_not.mpr rfl)) with ⟨rest, rfl⟩
      exact Latch.both_for_missing rest
  | both vp1 vp2 =>
      have name2 : vp2.name = entry.mteTriggerValueID ++ index := joins.2.2.symm.trans name
      by_cases type2 : vp2.type = asnNull
      · rcases present with ⟨i, memI, rfl⟩
        rcases fresh vp2 joins.2.1 type2 i memI name2 with ⟨rise, fall⟩
        rcases gone (had.not.mp (not_not.mpr type2)) with ⟨rest, rfl⟩
        have both : vp2.index.latch = Latch.both := by rw [Armed.latch, rise, fall]; rfl
        exact both ▸ Latch.both_for_missing rest
      · exact latched vp2 joins.2.1 name2 type2
  | right vp2 => exact absurd rfl type

theorem aligned_head {first : MteInstance} (head : now.instances.head? = some first)
    (leading : ∀ vp ∈ old, vp.type ≠ asnNull → entry.mteTriggerValueID ++ first.index ≤ vp.name)
    {vp : MteVarbind}
    (leads : ((comparisons (retrieve entry now) old).map Joined.current).head? = some vp) :
    vp.type = first.type := by
  have recorded := current.comparisons previous
  have memFirst : first ∈ now.instances := List.mem_of_mem_head? head
  rcases recorded.reported first memFirst with ⟨vp1, mem1, reports⟩
  rcases List.head?_eq_some_iff.mp leads with ⟨rest, eq⟩
  rw [eq] at mem1
  rcases List.mem_cons.mp mem1 with rfl | memRest
  · exact reports.2.1
  · -- an entry before it is that of an instance before the first one, or of one that has gone
    exfalso
    have increasing := recorded.increasing
    rw [eq] at increasing
    have lt : vp.name < entry.mteTriggerValueID ++ first.index := by
      rw [← reports.1]
      exact increasing.head_lt memRest
    have mem : vp ∈ (comparisons (retrieve entry now) old).map Joined.current := by
      rw [eq]
      exact List.mem_cons_self
    rcases List.mem_map.mp mem with ⟨x, memX, rfl⟩
    by_cases type : x.current.type = asnNull
    · rcases current_cases current previous memX with
        ⟨vp1', mem1', bare⟩ | ⟨-, vp2, mem2, name2, type2⟩
      · -- only the answer to a GET may be missing
        rcases MteVarbind.bare_eq_iff.mp bare with ⟨name', type', -⟩
        cases wild : entry.flagVWild with
        | true =>
            rw [flatten_retrieve_walk wild (List.ne_nil_of_mem memFirst)] at mem1'
            rcases List.mem_map.mp mem1' with ⟨i, -, rfl⟩
            exact i.type_ne (type'.symm.trans type)
        | false =>
            rcases recorded.single wild with ⟨vp3, eq3, -⟩
            rw [eq3] at eq
            cases eq
            cases memRest
      · have behind := leading vp2 mem2 type2
        rw [name2, ← x.current_name] at behind
        exact absurd lt (not_lt_of_ge behind)
    · rcases present_of_current current previous memX type with ⟨i, memI, reportsI⟩
      rw [reportsI.1] at lt
      have before := (append_lt_append_iff_left _).mp lt
      rcases List.head?_eq_some_iff.mp head with ⟨others, instances⟩
      have sorted := now.increasing
      rw [instances] at sorted memI
      rcases List.mem_cons.mp memI with rfl | memOthers
      · exact lt_irrefl _ before
      · exact lt_irrefl _ (before.trans (sorted.head_lt memOthers))

end Aligned

def history (index : Oid) (log : List (Sample × List Fired)) : List (Option Int) :=
  log.map fun run => run.1.valueAt index

theorem Steady.undisturbed (has : entry.HasThresholds) (steady : Steady entry s now) :
    Undisturbed entry now queries := by
  refine ⟨steady.walked, ?_⟩
  intro _ delta
  rw [has.absolute] at delta
  cases delta

/-- How a run finds its results: aligned, a record of its sample, with the flags of a latch that
has followed the samples, and with the first instance in front. -/
structure Found (entry : MteTrigger) (index : Oid) (past : List (Option Int)) (now : Sample)
    (vars : List MteVarbind) : Prop where
  recorded : Recorded entry now vars
  latched : now.Has index → Latched entry index past vars
  head : ∀ first vp, now.instances.head? = some first → vars.head? = some vp →
    vp.type = first.type

theorem found_first (answers : now.Answers entry) : ∃ vars,
    align (retrieve entry now) false [] = (vars, []) ∧ Found entry index [] now vars := by
  have recorded := answers.recorded
  refine ⟨_, align_first _, ?_, ?_, ?_⟩
  · refine recorded.congr ?_
    rw [List.map_map, List.map_map]
    rfl
  · intro _ vp mem _ _
    rcases List.mem_map.mp mem with ⟨vp1, -, rfl⟩
    exact Latch.both_for_nil
  · intro first vp head leads
    rcases List.head?_eq_some_iff.mp head with ⟨rest, instances⟩
    cases wild : entry.flagVWild with
    | true =>
        have eq := flatten_retrieve_walk wild (by rw [instances]; exact List.cons_ne_nil _ _)
        have leads' : ((retrieve entry now).map flatten).head?.map MteVarbind.type =
            some vp.type := by
          rw [List.head?_map] at leads ⊢
          rcases Option.map_eq_some_iff.mp leads with ⟨vp1, eq1, rfl⟩
          rw [eq1]
          rfl
        rw [eq, instances] at leads'
        exact (Option.some.inj leads').symm
    | false =>
        rcases flatten_retrieve_get wild answers.monitored with
          ⟨i, instances', -, eq⟩ | ⟨instances', -⟩
        · have leads' : ((retrieve entry now).map flatten).head?.map MteVarbind.type =
              some vp.type := by
            rw [List.head?_map] at leads ⊢
            rcases Option.map_eq_some_iff.mp leads with ⟨vp1, eq1, rfl⟩
            rw [eq1]
            rfl
          rw [eq] at leads'
          rw [instances'] at instances
          cases instances
          exact (Option.some.inj leads').symm
        · rw [instances'] at instances
          cases instances

theorem found_later (answers : now.Answers entry) (steady : Steady entry s now)
    (answered : prev.Answers entry) (previous : Recorded entry prev s.oldResults)
    {past : List (Option Int)} (latched : Latched entry index past s.oldResults)
    (gone : ¬ prev.Has index → ∃ rest, past = none :: rest) : ∃ vars old,
    align (retrieve entry now) false s.oldResults = (vars, old) ∧ old ≠ [] ∧
      Found entry index past now vars := by
  have current := answers.recorded
  rcases align_recorded answers previous answered.walked with ⟨behind, eq⟩
  refine ⟨_, _, eq, ?_, current.comparisons previous, ?_, ?_⟩
  · intro none
    have empty := (List.append_eq_nil_iff.mp none).1
    rw [List.map_eq_nil_iff] at empty
    have nonempty := (current.comparisons previous).nonempty
    rw [empty] at nonempty
    exact nonempty rfl
  · intro present vp mem name _
    rcases List.mem_map.mp mem with ⟨x, memX, rfl⟩
    exact aligned_latch current previous latched gone steady.fresh memX
      (x.current_name.symm.trans name) present
  · intro first vp head leads
    exact aligned_head current previous head (steady.leading first head) leads

theorem Found.events {past : List (Option Int)} {vars : List MteVarbind}
    (found : Found entry index past now vars) (has : entry.HasThresholds)
    (answered : queries.values = some now)
    (align_eq : align (retrieve entry now) false s.oldResults = (vars, old))
    (integer : ∀ first, now.instances.head? = some first → isInteger first.type = true)
    (valued : now.Valued index) :
    (now.valueAt index = none → thresholdEvents index (mteTriggerRun entry s queries).fired = []) ∧
    (∀ v, now.valueAt index = some v → ∃ latch : Latch, latch.For entry.High entry.Low past ∧
      thresholdEvents index (mteTriggerRun entry s queries).fired =
        latchEvents entry old.isEmpty latch v ∧
      ∀ s', (mteTriggerRun entry s queries).results = some s' →
        ∀ vp' ∈ s'.oldResults, vp'.name = entry.mteTriggerValueID ++ index →
          vp'.index.latch.For entry.High entry.Low (some v :: past)) := by
  have recorded := found.recorded
  constructor
  · intro missing
    refine run_missing has answered align_eq recorded.below ?_
    intro vp mem name
    by_cases type : vp.type = asnNull
    · exact recorded.empty vp mem type
    · rcases recorded.reports vp mem type with ⟨i, memI, reports⟩
      rcases List.append_cancel_left (reports.1.symm.trans name) with rfl
      rcases valued i memI rfl with ⟨val, eq⟩
      rw [now.valueAt_of_mem memI eq] at missing
      cases missing
  · intro v value
    by_cases present : now.Has index
    · rcases present with ⟨i, memI, rfl⟩
      rcases valued i memI rfl with ⟨val, eq⟩
      rw [now.valueAt_of_mem memI eq] at value
      rcases Option.some.inj value with rfl
      rcases recorded.reported i memI with ⟨vp, mem, reports⟩
      have type : vp.type ≠ asnNull := reports.2.1 ▸ i.type_ne
      have stands := found.latched ⟨i, memI, rfl⟩ vp mem reports.1 type
      have leads : ∀ first, vars.head? = some first → isInteger first.type = true := by
        intro first head
        rcases List.exists_cons_of_ne_nil (List.ne_nil_of_mem memI) with ⟨i₀, rest, instances⟩
        have head₀ : now.instances.head? = some i₀ := by rw [instances]; rfl
        rw [found.head i₀ first head₀ head]
        exact integer i₀ head₀
      rcases run_value has answered align_eq recorded.increasing recorded.below leads mem reports.1
        (reports.2.2.trans eq) with ⟨events, moved⟩
      refine ⟨_, stands, events, ?_⟩
      intro s' ran vp' mem' name'
      rw [moved s' ran vp' mem' (name'.trans reports.1.symm)]
      exact has.moves_for stands val.integer
    · rw [Sample.valueAt_of_not_has present] at value
      cases value

theorem found_of_latched {log : List (Sample × List Fired)} (has : entry.HasThresholds)
    (runs : MteRuns entry (fun s now _ => Steady entry s now) log s)
    (latched : Latched entry index (history index log) s.oldResults) (monitored : now.Of entry)
    (steady : Steady entry s now) : ∃ vars old,
    align (retrieve entry now) false s.oldResults = (vars, old) ∧ (old.isEmpty = true ↔ log = []) ∧
      Found entry index (history index log) now vars := by
  have answers : now.Answers entry := ⟨monitored, steady.walked⟩
  have recorded := runs.recorded fun _ _ _ steady => steady.undisturbed has
  rcases log with _ | ⟨⟨prev, fired⟩, log⟩
  · rcases recorded.1 rfl with rfl
    rcases found_first answers with ⟨vars, eq, found⟩
    exact ⟨vars, [], eq, iff_of_true rfl rfl, found⟩
  · rcases recorded.2 prev fired log rfl with ⟨answered, previous⟩
    have gone : ¬ prev.Has index →
        ∃ rest, history index ((prev, fired) :: log) = none :: rest := by
      intro missing
      exact ⟨history index log, congrArg (· :: _) (Sample.valueAt_of_not_has missing)⟩
    rcases found_later answers steady answered previous latched gone with
      ⟨vars, old, eq, nonempty, found⟩
    refine ⟨vars, old, eq, ?_, found⟩
    exact iff_of_false (fun empty => nonempty (List.isEmpty_iff.mp empty)) (List.cons_ne_nil _ _)

theorem MteRuns.latched {log : List (Sample × List Fired)} (has : entry.HasThresholds)
    (runs : MteRuns entry (fun s now _ => Steady entry s now) log s)
    (valued : ∀ run ∈ log, run.1.Valued index) :
    Latched entry index (history index log) s.oldResults := by
  induction runs with
  | start =>
      intro vp mem
      cases mem
  | @run log s s' now queries before answered monitored steady ran ih =>
      have latched := ih fun run mem => valued run (List.mem_cons_of_mem _ mem)
      have valuedNow : now.Valued index := valued _ List.mem_cons_self
      rcases found_of_latched has before latched monitored steady with ⟨vars, old, eq, -, found⟩
      have events := found.events has answered eq steady.integer valuedNow
      have recorded := (MteRuns.recorded (fun _ _ _ steady => steady.undisturbed has)
        (.run before answered monitored steady ran)).2 now _ log rfl
      intro vp mem name type
      -- the entry reports the instance, which has a value
      rcases recorded.2.reports vp mem type with ⟨i, memI, reports⟩
      rcases List.append_cancel_left (reports.1.symm.trans name) with rfl
      rcases valuedNow i memI rfl with ⟨val, value⟩
      have valueAt := now.valueAt_of_mem memI value
      rcases events.2 val.integer valueAt with ⟨latch, -, -, moved⟩
      have past : history i.index ((now, (mteTriggerRun entry s queries).fired) :: log) =
          some val.integer :: history i.index log := congrArg (· :: _) valueAt
      rw [past]
      exact moved s' ran vp mem name

/-- A rising event is due: the value is the first one at or above the rising threshold since the
instance came or since the last one at or below the falling threshold. -/
def Rises (entry : MteTrigger) (index : Oid) (now : Sample)
    (earlier : List (Sample × List Fired)) : Prop :=
  ∃ v, now.valueAt index = some v ∧ entry.High v ∧
    FirstSince entry.High entry.Low (history index earlier) ∧
    (earlier = [] → entry.mteTThStartRise = true)

def Falls (entry : MteTrigger) (index : Oid) (now : Sample)
    (earlier : List (Sample × List Fired)) : Prop :=
  ∃ v, now.valueAt index = some v ∧ entry.Low v ∧
    FirstSince entry.Low entry.High (history index earlier) ∧
    (earlier = [] → entry.mteTThStartFall = true)

/-- The threshold events for an instance over all runs, the latest first. -/
structure Hysteretic (entry : MteTrigger) (index : Oid) (log : List (Sample × List Fired)) :
    Prop where
  /-- A rising event is fired exactly where it is due. -/
  rises : ∀ later now fired earlier, log = later ++ (now, fired) :: earlier →
    (MteTest.thRise ∈ thresholdEvents index fired ↔ Rises entry index now earlier)
  /-- A falling event is fired exactly where it is due. -/
  falls : ∀ later now fired earlier, log = later ++ (now, fired) :: earlier →
    (MteTest.thFall ∈ thresholdEvents index fired ↔ Falls entry index now earlier)
  single : ∀ run ∈ log, (thresholdEvents index run.2).length ≤ 1
  /-- While the instance stays present, rising and falling events alternate. -/
  alternates : ∀ later now fired between prev fired' earlier,
    log = later ++ (now, fired) :: (between ++ (prev, fired') :: earlier) →
    (∀ run ∈ between, run.1.Has index) →
    (MteTest.thRise ∈ thresholdEvents index fired → MteTest.thRise ∈ thresholdEvents index fired' →
      ∃ run ∈ between, MteTest.thFall ∈ thresholdEvents index run.2) ∧
    (MteTest.thFall ∈ thresholdEvents index fired → MteTest.thFall ∈ thresholdEvents index fired' →
      ∃ run ∈ between, MteTest.thRise ∈ thresholdEvents index run.2)

structure RunHysteretic (entry : MteTrigger) (index : Oid) (now : Sample) (fired : List Fired)
    (earlier : List (Sample × List Fired)) : Prop where
  rises : MteTest.thRise ∈ thresholdEvents index fired ↔ Rises entry index now earlier
  falls : MteTest.thFall ∈ thresholdEvents index fired ↔ Falls entry index now earlier
  single : (thresholdEvents index fired).length ≤ 1

theorem MteTrigger.HasThresholds.apart (has : entry.HasThresholds) (v : Int)
    (high : entry.High v) : ¬ entry.Low v := by
  intro low
  have below := has.below
  unfold High at high
  unfold Low at low
  omega

theorem MteRuns.hysteretic_run {log : List (Sample × List Fired)} (has : entry.HasThresholds)
    (runs : MteRuns entry (fun s now _ => Steady entry s now) log s)
    (valued : ∀ run ∈ log, run.1.Valued index) (answered : queries.values = some now)
    (monitored : now.Of entry) (steady : Steady entry s now) (valuedNow : now.Valued index) :
    RunHysteretic entry index now (mteTriggerRun entry s queries).fired log := by
  rcases found_of_latched has runs (runs.latched has valued) monitored steady with
    ⟨vars, old, eq, first, found⟩
  have events := found.events has answered eq steady.integer valuedNow
  cases value : now.valueAt index with
  | none =>
      have none := events.1 value
      constructor
      · rw [none, Rises, value]
        simp
      · rw [none, Falls, value]
        simp
      · rw [none]
        exact Nat.zero_le 1
  | some v =>
      rcases events.2 v value with ⟨latch, stands, fired, -⟩
      have rise := stands.1.trans (quietSince_iff_firstSince has.apart)
      have fall := stands.2.trans
        (quietSince_iff_firstSince fun v low high => has.apart v high low)
      have start (started : Bool) : (old.isEmpty = true → started = true) ↔
          (log = [] → started = true) := by rw [first]
      constructor
      · rw [fired, thRise_mem_latchEvents_iff, Rises, value, rise, start]
        simp [MteTrigger.High]
      · rw [fired, thFall_mem_latchEvents_iff, Falls, value, fall, start]
        simp [MteTrigger.Low]
      · rw [fired]
        exact length_latchEvents_le has.below _ _ _

theorem MteRuns.hysteretic_log {log : List (Sample × List Fired)} (has : entry.HasThresholds)
    (runs : MteRuns entry (fun s now _ => Steady entry s now) log s)
    (valued : ∀ run ∈ log, run.1.Valued index) :
    ∀ later now fired earlier, log = later ++ (now, fired) :: earlier →
      RunHysteretic entry index now fired earlier := by
  induction runs with
  | start =>
      intro later now fired earlier eq
      exact absurd eq (by simp)
  | @run log s s' now queries before answered monitored steady ran ih =>
      intro later now' fired earlier eq
      have valuedBefore : ∀ run ∈ log, run.1.Valued index :=
        fun run mem => valued run (List.mem_cons_of_mem _ mem)
      cases later with
      | nil =>
          cases eq
          exact before.hysteretic_run has valuedBefore answered monitored steady
            (valued _ List.mem_cons_self)
      | cons run later =>
          cases eq
          exact ih valuedBefore later now' fired earlier rfl

theorem hysteretic_of_runs {log : List (Sample × List Fired)} (has : entry.HasThresholds)
    (valued : ∀ run ∈ log, run.1.Valued index)
    (each : ∀ later now fired earlier, log = later ++ (now, fired) :: earlier →
      RunHysteretic entry index now fired earlier) : Hysteretic entry index log := by
  constructor
  · intro later now fired earlier eq
    exact (each later now fired earlier eq).rises
  · intro later now fired earlier eq
    exact (each later now fired earlier eq).falls
  · rintro ⟨now, fired⟩ mem
    rcases List.append_of_mem mem with ⟨later, earlier, eq⟩
    exact (each later now fired earlier eq).single
  · intro later now fired between prev fired' earlier eq present
    have here := each later now fired _ eq
    have there := each (later ++ (now, fired) :: between) prev fired' earlier (by rw [eq]; simp)
    have history_eq : history index (between ++ (prev, fired') :: earlier) =
        history index between ++ prev.valueAt index :: history index earlier := by
      simp [history]
    have presentValue : ∀ sample ∈ history index between, sample ≠ none := by
      intro sample mem none
      rcases List.mem_map.mp mem with ⟨run, memRun, rfl⟩
      rcases present run memRun with ⟨i, memI, rfl⟩
      have memLog : run ∈ log := by
        rw [eq]
        simp [memRun]
      rcases valued run memLog i memI rfl with ⟨val, value⟩
      rw [run.1.valueAt_of_mem memI value] at none
      cases none
    -- a run between the two, read off the samples between them
    have between_run : ∀ late u early, history index between = late ++ some u :: early →
        ∃ late' mid early', between = late' ++ mid :: early' ∧ mid.1.valueAt index = some u ∧
          history index early' = early := by
      intro late u early split
      rcases List.map_eq_append_iff.mp split with ⟨late', rest, rfl, -, rest_eq⟩
      rcases List.map_eq_cons_iff.mp rest_eq with ⟨mid, early', rfl, value, early_eq⟩
      exact ⟨late', mid, early', rfl, value, early_eq⟩
    constructor
    · intro rise rise'
      rcases here.rises.mp rise with ⟨v, -, -, first, -⟩
      rcases there.rises.mp rise' with ⟨w, value, high, -, -⟩
      rw [history_eq, value] at first
      rcases first.alternates high presentValue (fun v low high => has.apart v high low) with
        ⟨late, u, early, split, low, firstLow⟩
      rcases between_run late u early split with ⟨late', mid, early', rfl, valueMid, rfl⟩
      refine ⟨mid, by simp, ?_⟩
      have middle := each (later ++ (now, fired) :: late') mid.1 mid.2
        (early' ++ (prev, fired') :: earlier) (by rw [eq]; simp)
      refine middle.falls.mpr ⟨u, valueMid, low, ?_, ?_⟩
      · rw [← value] at firstLow
        simpa [history] using firstLow
      · intro none
        exact absurd none (by simp)
    · intro fall fall'
      rcases here.falls.mp fall with ⟨v, -, -, first, -⟩
      rcases there.falls.mp fall' with ⟨w, value, low, -, -⟩
      rw [history_eq, value] at first
      rcases first.alternates low presentValue has.apart with
        ⟨late, u, early, split, high, firstHigh⟩
      rcases between_run late u early split with ⟨late', mid, early', rfl, valueMid, rfl⟩
      refine ⟨mid, by simp, ?_⟩
      have middle := each (later ++ (now, fired) :: late') mid.1 mid.2
        (early' ++ (prev, fired') :: earlier) (by rw [eq]; simp)
      refine middle.rises.mpr ⟨u, valueMid, high, ?_, ?_⟩
      · rw [← value] at firstHigh
        simpa [history] using firstHigh
      · intro none
        exact absurd none (by simp)

/-- Over all runs of a trigger with absolute samples whose steps its flags survive, the threshold
events for an instance have hysteresis. -/
theorem threshold_hysteresis {log : List (Sample × List Fired)} (has : entry.HasThresholds)
    (runs : MteRuns entry (fun s now _ => Steady entry s now) log s)
    (answered : queries.values = some now) (monitored : now.Of entry) (steady : Steady entry s now)
    (valued : ∀ run ∈ log, run.1.Valued index) (valuedNow : now.Valued index) :
    Hysteretic entry index ((now, (mteTriggerRun entry s queries).fired) :: log) := by
  refine hysteretic_of_runs has ?_ ?_
  · intro run mem
    rcases List.mem_cons.mp mem with rfl | mem'
    · exact valuedNow
    · exact valued run mem'
  · intro later now' fired earlier eq
    cases later with
    | nil =>
        cases eq
        exact runs.hysteretic_run has valued answered monitored steady valuedNow
    | cons run later =>
        cases eq
        exact runs.hysteretic_log has valued later now' fired earlier rfl

/-- A trigger for the instance `1.3` with the thresholds 5 and 10. -/
def thresholdTrigger : MteTrigger :=
  { absentTrigger with
    existence := false
    threshold := true
    flagVWild := false
    mteTThRiseValue := 10
    mteTThFallValue := 5
    mteTThRiseEvent := ⟨[], [0x72]⟩
    mteTThFallEvent := ⟨[], [0x66]⟩ }

theorem thresholdTrigger_has : thresholdTrigger.HasThresholds :=
  ⟨rfl, rfl, rfl, rfl, by decide⟩

def valueSample (v : Int) : Sample :=
  ⟨[integerInstance [] v], List.pairwise_singleton _ _, snmpNosuchinstance, bothPresent.missing⟩

def missingSample : Sample :=
  ⟨[], List.Pairwise.nil, snmpNosuchinstance, bothPresent.missing⟩

theorem valueSample_of (v : Int) : (valueSample v).Of thresholdTrigger := by
  intro _ i mem
  rcases List.mem_singleton.mp mem with rfl
  rfl

theorem valueSample_valued (v : Int) : (valueSample v).Valued [] := by
  intro i mem _
  rcases List.mem_singleton.mp mem with rfl
  exact ⟨_, rfl⟩

theorem missingSample_of : missingSample.Of thresholdTrigger := by
  intro _ i mem
  cases mem

/-- What the run at a value of 12 leaves, and the one at which the instance is missing. -/
def risenResults : MteResults :=
  ⟨[⟨[1, 3], asnInteger, some ⟨[], 12⟩, ⟨false, true, true, true, true⟩⟩], [], 0⟩

def goneResults : MteResults :=
  ⟨[⟨[1, 3], asnNull, none, ⟨false, true, true, true, true⟩⟩], [], 0⟩

theorem run_risen : (mteTriggerRun thresholdTrigger MteResults.empty
    (plainQueries (valueSample 12))).results = some risenResults := by decide

theorem run_gone : (mteTriggerRun thresholdTrigger risenResults
    (plainQueries missingSample)).results = some goneResults := by decide

theorem valueSample_steady (v : Int) {s : MteResults}
    (names : ∀ vp ∈ s.oldResults, vp.name = [1, 3])
    (present : ∀ vp ∈ s.oldResults, vp.type ≠ asnNull) :
    Steady thresholdTrigger s (valueSample v) := by
  constructor
  · intro wild
    cases wild
  · intro first head
    cases head
    rfl
  · intro first head vp mem _
    cases head
    rw [names vp mem]
    exact le_refl _
  · intro vp mem type
    exact absurd type (present vp mem)

theorem threshold_hysteresis_falls :
    Hysteretic thresholdTrigger []
      [(valueSample 3,
        (mteTriggerRun thresholdTrigger risenResults (plainQueries (valueSample 3))).fired),
      (valueSample 12,
        (mteTriggerRun thresholdTrigger MteResults.empty
          (plainQueries (valueSample 12))).fired)] := by
  have first : Steady thresholdTrigger MteResults.empty (valueSample 12) :=
    valueSample_steady 12 (by simp [MteResults.empty]) (by simp [MteResults.empty])
  have second : Steady thresholdTrigger risenResults (valueSample 3) :=
    valueSample_steady 3 (by simp [risenResults]) (by simp [risenResults, asnInteger, asnNull])
  have unrun : MteRuns thresholdTrigger (fun s now _ => Steady thresholdTrigger s now) []
      MteResults.empty := .start
  have runs := unrun.run rfl (valueSample_of 12) first run_risen
  refine threshold_hysteresis thresholdTrigger_has runs rfl (valueSample_of 3) second ?_
    (valueSample_valued 3)
  intro run mem
  rcases List.mem_singleton.mp mem with rfl
  exact valueSample_valued 12

theorem not_threshold_hysteresis : ¬ ∀ (entry : MteTrigger) (index : Oid) (now : Sample)
    (log : List (Sample × List Fired)) (s : MteResults) (queries : MteQueries),
    entry.HasThresholds → MteRuns entry (fun _ _ _ => True) log s →
    queries.values = some now → now.Of entry → (∀ run ∈ log, run.1.Valued index) →
    now.Valued index →
    Hysteretic entry index ((now, (mteTriggerRun entry s queries).fired) :: log) := by
  intro alwaysHysteretic
  have unrun : MteRuns thresholdTrigger (fun _ _ _ => True) [] MteResults.empty := .start
  have risen := unrun.run rfl (valueSample_of 12) trivial run_risen
  have runs := risen.run rfl missingSample_of trivial run_gone
  have hysteretic := alwaysHysteretic thresholdTrigger [] (valueSample 12) _ goneResults
    (plainQueries (valueSample 12)) thresholdTrigger_has runs rfl (valueSample_of 12) ?_
    (valueSample_valued 12)
  · have due := (hysteretic.rises [] _ _ _ rfl).mpr ?_
    · exact absurd due (by decide)
    · refine ⟨12, rfl, (by decide : (10 : Int) ≤ 12), ?_, fun none =>
        absurd none (List.cons_ne_nil _ _)⟩
      refine (quietSince_iff_firstSince thresholdTrigger_has.apart).mp ?_
      exact trivial
  · intro run mem
    rcases List.mem_cons.mp mem with rfl | mem'
    · intro i memI
      cases memI
    · rcases List.mem_singleton.mp mem' with rfl
      exact valueSample_valued 12

end NetSnmp
