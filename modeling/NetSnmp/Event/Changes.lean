import NetSnmp.Event.Existence

/-!
# What an existence trigger reports

The changes from one sample to the next one, and when the events of a run are
exactly these.
-/

namespace NetSnmp

variable {entry : MteTrigger} {now prev : Sample} {s : MteResults} {queries : MteQueries}
  {old : List MteVarbind} {index : Oid} {x : Joined MteVarbind MteVarbind}

namespace Sample

variable {sample : Sample}

def Has (sample : Sample) (index : Oid) : Prop := ∃ i ∈ sample.instances, i.index = index

/-- The value of the instance with an index, empty where there is no such instance. -/
def octets (sample : Sample) (index : Oid) : List Byte :=
  ((rowWith MteInstance.index sample.instances index).map MteInstance.octets).getD []

theorem octets_of_mem {i : MteInstance} (mem : i ∈ sample.instances) :
    sample.octets i.index = i.octets := by
  rw [octets, sample.increasing.rowWith_eq_some_iff.mpr ⟨mem, rfl⟩]
  rfl

theorem octets_of_not_has (missing : ¬ sample.Has index) : sample.octets index = [] := by
  have none : rowWith MteInstance.index sample.instances index = none := by
    refine rowWith_eq_none_iff.mpr ?_
    intro i mem same
    exact missing ⟨i, mem, same⟩
  rw [octets, none]
  rfl

end Sample

/-- What is to be reported of an index: the instance has come, it has gone, or it has another
value. -/
def Changed (bits : ExistBits) (prev now : Sample) (index : Oid) : Prop :=
  (bits.present ∧ now.Has index ∧ ¬ prev.Has index) ∨
  (bits.absent ∧ ¬ now.Has index ∧ prev.Has index) ∨
  (bits.changed ∧ ∃ i ∈ now.instances, ∃ j ∈ prev.instances,
    i.index = index ∧ j.index = index ∧ i.octets ≠ j.octets)

/-- The event is fired for the changes, for each of them once and with its index. -/
structure ReportsExactly (entry : MteTrigger) (prev now : Sample) (fired : List Fired) : Prop where
  once : (existenceIndexes fired).Nodup
  exactly : ∀ index, index ∈ existenceIndexes fired ↔ Changed entry.mteTExTest prev now index

structure Comparable (entry : MteTrigger) (prev now : Sample) : Prop where
  /-- No instance goes from behind the last current one. -/
  reached : entry.flagVWild → entry.mteTExTest.absent →
    ∀ j ∈ prev.instances, ∃ i ∈ now.instances, j.index ≤ i.index
  /-- An instance that comes passes for a changed one, unless the first test takes it. -/
  appeared : entry.mteTExTest.changed → ¬ entry.mteTExTest.present →
    ∀ i ∈ now.instances, ¬ prev.Has i.index → i.octets = []
  /-- An instance that goes passes for a changed one, unless the second test takes it. -/
  vanished : entry.mteTExTest.changed → ¬ entry.mteTExTest.absent →
    ∀ j ∈ prev.instances, ¬ now.Has j.index →
      (entry.flagVWild → ∃ i ∈ now.instances, j.index < i.index) → j.octets = []

theorem existenceTest_isSome_iff (vp1 vp2 : MteVarbind) :
    (existenceTest entry vp1 vp2).isSome ↔
      (entry.mteTExTest.present ∧ vp1.type ≠ asnNull ∧ vp2.type = asnNull) ∨
      (entry.mteTExTest.absent ∧ vp1.type = asnNull ∧ vp2.type ≠ asnNull) ∨
      (entry.mteTExTest.changed ∧ vp1.octets ≠ vp2.octets) := by
  have differ : (vp1.octets.length ≠ vp2.octets.length ∨
      memcmp vp1.octets vp2.octets vp1.octets.length ≠ 0) ↔ vp1.octets ≠ vp2.octets := by
    refine not_iff_not.mp ?_
    rw [not_or, not_not, not_not, not_not, memcmp_eq_zero_iff]
    constructor
    · rintro ⟨length, same⟩
      rw [List.take_length, length, List.take_length] at same
      exact same
    · intro same
      rw [same]
      exact ⟨rfl, rfl⟩
  simp only [existenceTest, differ]
  split_ifs with present absent changed
  · exact iff_of_true rfl (Or.inl present)
  · exact iff_of_true rfl (Or.inr (Or.inl absent))
  · exact iff_of_true rfl (Or.inr (Or.inr changed))
  · refine iff_of_false Bool.false_ne_true ?_
    rintro (isPresent | isAbsent | isChanged)
    · exact present isPresent
    · exact absent isAbsent
    · exact changed isChanged

theorem index_of_reports {i : MteInstance} {vp : MteVarbind} (reports : Reports entry i vp)
    (same : vp.name = x.name) (name : x.name = entry.mteTriggerValueID ++ index) :
    i.index = index := by
  have eq := reports.1.symm.trans (same.trans name)
  exact List.append_cancel_left eq

section Tests

variable (current : Recorded entry now ((retrieve entry now).map flatten))
  (previous : Recorded entry prev old)
  (mem : x ∈ comparisons (retrieve entry now) old)
  (name : x.name = entry.mteTriggerValueID ++ index)

include current previous mem name

theorem current_type_ne_iff : x.current.type ≠ asnNull ↔ now.Has index := by
  constructor
  · intro type
    rcases present_of_current current previous mem type with ⟨i, memI, reports⟩
    exact ⟨i, memI, index_of_reports reports x.current_name name⟩
  · rintro ⟨i, memI, rfl⟩
    exact (reports_current current previous mem memI name).2.1 ▸ i.type_ne

theorem previous_type_ne_iff : x.previous.type ≠ asnNull ↔ prev.Has index := by
  constructor
  · intro type
    rcases present_of_previous current previous mem type with ⟨j, memJ, reports⟩
    exact ⟨j, memJ, index_of_reports reports (previous_name current previous mem) name⟩
  · rintro ⟨j, memJ, rfl⟩
    exact (reports_previous current previous mem memJ name).2.1 ▸ j.type_ne

theorem current_octets : x.current.octets = now.octets index := by
  by_cases has : now.Has index
  · rcases has with ⟨i, memI, rfl⟩
    rw [now.octets_of_mem memI, MteVarbind.octets,
      (reports_current current previous mem memI name).2.2]
    rfl
  · have type := not_not.mp ((current_type_ne_iff current previous mem name).not.mpr has)
    rw [Sample.octets_of_not_has has, MteVarbind.octets, current_val current previous mem type]
    rfl

theorem previous_octets : x.previous.octets = prev.octets index := by
  by_cases has : prev.Has index
  · rcases has with ⟨j, memJ, rfl⟩
    rw [prev.octets_of_mem memJ, MteVarbind.octets,
      (reports_previous current previous mem memJ name).2.2]
    rfl
  · have type := not_not.mp ((previous_type_ne_iff current previous mem name).not.mpr has)
    rw [Sample.octets_of_not_has has, MteVarbind.octets, previous_val current previous mem type]
    rfl

theorem test_iff : (existenceTest entry x.current x.previous).isSome ↔
    (entry.mteTExTest.present ∧ now.Has index ∧ ¬ prev.Has index) ∨
    (entry.mteTExTest.absent ∧ ¬ now.Has index ∧ prev.Has index) ∨
    (entry.mteTExTest.changed ∧ now.octets index ≠ prev.octets index) := by
  rw [existenceTest_isSome_iff, current_octets current previous mem name,
    previous_octets current previous mem name, ← current_type_ne_iff current previous mem name,
    ← previous_type_ne_iff current previous mem name, not_not, not_not]

end Tests

section Reached

variable (current : Recorded entry now ((retrieve entry now).map flatten))
  (previous : Recorded entry prev old)

def Reached (entry : MteTrigger) (now : Sample) (old : List MteVarbind) (index : Oid) : Prop :=
  ∃ x ∈ comparisons (retrieve entry now) old, x.name = entry.mteTriggerValueID ++ index

include current previous

theorem reached_of_has (has : now.Has index) : Reached entry now old index := by
  rcases has with ⟨i, memI, rfl⟩
  rcases current.reported i memI with ⟨vp1, mem1, reports⟩
  rcases exists_comparison current previous mem1 with ⟨x, mem, bare⟩
  refine ⟨x, mem, ?_⟩
  rw [← x.current_name, (MteVarbind.bare_eq_iff.mp bare).1, reports.1]

theorem reached_iff_of_vanished (walked : entry.flagVWild = true → now.instances ≠ [])
    (had : prev.Has index) (gone : ¬ now.Has index) : Reached entry now old index ↔
      (entry.flagVWild → ∃ i ∈ now.instances, index < i.index) := by
  rcases had with ⟨j, memJ, rfl⟩
  rcases previous.reported j memJ with ⟨vp2, mem2, reports2⟩
  constructor
  · rintro ⟨x, mem, name⟩ wild
    have joins := ((mem_comparisons_iff current previous).mp mem).1
    have eq := flatten_retrieve_walk wild (walked wild)
    rw [eq] at joins
    -- only an entry behind it can stand for the name
    have alone : ∀ vp1 ∈ now.instances.map (MteInstance.varbind entry.mteTriggerValueID),
        vp1.name ≠ entry.mteTriggerValueID ++ j.index := by
      intro vp1 mem1 same
      rcases List.mem_map.mp mem1 with ⟨i, memI, rfl⟩
      exact gone ⟨i, memI, List.append_cancel_left same⟩
    cases x with
    | left vp1 => exact absurd name (alone vp1 joins.1)
    | both vp1 vp2 => exact absurd name (alone vp1 joins.1)
    | right vp2 =>
        rcases joins.2.2 with ⟨vp1, mem1, behind⟩
        rcases List.mem_map.mp mem1 with ⟨i, memI, rfl⟩
        have same : vp2.name = entry.mteTriggerValueID ++ j.index := name
        rw [same] at behind
        exact ⟨i, memI, (append_lt_append_iff_left _).mp behind⟩
  · intro behind
    have present : vp2.type ≠ asnNull := reports2.2.1 ▸ j.type_ne
    have reached : ∃ vp1 ∈ (retrieve entry now).map flatten, vp2.name ≤ vp1.name := by
      cases wild : entry.flagVWild with
      | true =>
          rcases behind wild with ⟨i, memI, lt⟩
          rcases current.reported i memI with ⟨vp1, mem1, reports1⟩
          refine ⟨vp1, mem1, ?_⟩
          rw [reports1.1, reports2.1]
          exact ((append_lt_append_iff_left _).mpr lt).le
      | false =>
          rcases current.single wild with ⟨vp1, eq1, name1⟩
          rcases previous.single wild with ⟨vp2', eq2, name2⟩
          rw [eq2, List.mem_singleton] at mem2
          refine ⟨vp1, eq1 ▸ List.mem_cons_self, ?_⟩
          rw [mem2, name1, name2]
    rcases exists_comparison_previous current previous mem2 present reached with ⟨x, mem, name⟩
    exact ⟨x, mem, name.trans reports2.1⟩

theorem mem_events_iff :
    index ∈ ((comparisons (retrieve entry now) old).filterMap (existenceEvent entry)).map
      Fired.instance_ ↔
    ∃ x ∈ comparisons (retrieve entry now) old, x.name = entry.mteTriggerValueID ++ index ∧
      (existenceTest entry x.current x.previous).isSome := by
  have suffix : ∀ x ∈ comparisons (retrieve entry now) old, ∀ hot,
      (fire entry .existence entry.mteTExEvent x.current hot).instance_ = index ↔
        x.name = entry.mteTriggerValueID ++ index := by
    intro x mem hot
    rcases name_below current previous mem with ⟨index', name⟩
    simp [fire, x.current_name, name]
  constructor
  · intro mem
    rcases List.mem_map.mp mem with ⟨f, memF, rfl⟩
    rcases List.mem_filterMap.mp memF with ⟨x, memX, event⟩
    rcases Option.map_eq_some_iff.mp event with ⟨hot, test, rfl⟩
    exact ⟨x, memX, (suffix x memX hot).mp rfl, by rw [test]; rfl⟩
  · rintro ⟨x, memX, name, test⟩
    rcases Option.isSome_iff_exists.mp test with ⟨hot, eq⟩
    refine List.mem_map.mpr ⟨_, List.mem_filterMap.mpr ⟨x, memX, ?_⟩, (suffix x memX hot).mpr name⟩
    rw [existenceEvent, eq]
    rfl

theorem nodup_events : (((comparisons (retrieve entry now) old).filterMap
    (existenceEvent entry)).map Fired.instance_).Nodup := by
  have increasing := increasing_comparisons current previous
  refine List.pairwise_map.mpr (List.pairwise_filterMap.mpr ?_)
  refine increasing.imp_of_mem ?_
  intro x y memX memY lt f eventX g eventY same
  rcases Option.map_eq_some_iff.mp eventX with ⟨hotX, -, rfl⟩
  rcases Option.map_eq_some_iff.mp eventY with ⟨hotY, -, rfl⟩
  rcases name_below current previous memX with ⟨indexX, nameX⟩
  rcases name_below current previous memY with ⟨indexY, nameY⟩
  simp only [fire, Joined.current_name, nameX, nameY, List.drop_left] at same
  rw [nameX, nameY, same] at lt
  exact lt_irrefl _ lt

end Reached

theorem has_iff_octets_ne : (∃ i ∈ now.instances, ∃ j ∈ prev.instances,
      i.index = index ∧ j.index = index ∧ i.octets ≠ j.octets) ↔
    now.Has index ∧ prev.Has index ∧ now.octets index ≠ prev.octets index := by
  constructor
  · rintro ⟨i, memI, j, memJ, rfl, same, differ⟩
    refine ⟨⟨i, memI, rfl⟩, ⟨j, memJ, same⟩, ?_⟩
    rw [now.octets_of_mem memI, ← same, prev.octets_of_mem memJ]
    exact differ
  · rintro ⟨⟨i, memI, rfl⟩, ⟨j, memJ, same⟩, differ⟩
    refine ⟨i, memI, j, memJ, rfl, same, ?_⟩
    rw [now.octets_of_mem memI, ← same, prev.octets_of_mem memJ] at differ
    exact differ

section Exactly

variable (current : Recorded entry now ((retrieve entry now).map flatten))
  (previous : Recorded entry prev old) (walked : entry.flagVWild = true → now.instances ≠ [])

include current previous

theorem fires_iff : (∃ x ∈ comparisons (retrieve entry now) old,
      x.name = entry.mteTriggerValueID ++ index ∧
        (existenceTest entry x.current x.previous).isSome) ↔
    Reached entry now old index ∧
      ((entry.mteTExTest.present ∧ now.Has index ∧ ¬ prev.Has index) ∨
      (entry.mteTExTest.absent ∧ ¬ now.Has index ∧ prev.Has index) ∨
      (entry.mteTExTest.changed ∧ now.octets index ≠ prev.octets index)) := by
  constructor
  · rintro ⟨x, mem, name, test⟩
    exact ⟨⟨x, mem, name⟩, (test_iff current previous mem name).mp test⟩
  · rintro ⟨⟨x, mem, name⟩, holds⟩
    exact ⟨x, mem, name, (test_iff current previous mem name).mpr holds⟩

include walked

theorem Comparable.fires (comparable : Comparable entry prev now) (index : Oid) :
    (∃ x ∈ comparisons (retrieve entry now) old, x.name = entry.mteTriggerValueID ++ index ∧
      (existenceTest entry x.current x.previous).isSome) ↔
    Changed entry.mteTExTest prev now index := by
  rw [fires_iff current previous, Changed, has_iff_octets_ne]
  constructor
  · rintro ⟨reached, present | absent | ⟨changed, differ⟩⟩
    · exact Or.inl present
    · exact Or.inr (Or.inl absent)
    · by_cases has : now.Has index
      · by_cases had : prev.Has index
        · exact Or.inr (Or.inr ⟨changed, has, had, differ⟩)
        · -- the instance is new
          by_cases present : entry.mteTExTest.present = true
          · exact Or.inl ⟨present, has, had⟩
          · rcases has with ⟨i, memI, rfl⟩
            rw [now.octets_of_mem memI, comparable.appeared changed present i memI had,
              Sample.octets_of_not_has had] at differ
            exact absurd rfl differ
      · by_cases had : prev.Has index
        · -- the instance has gone
          by_cases absent : entry.mteTExTest.absent = true
          · exact Or.inr (Or.inl ⟨absent, has, had⟩)
          · have behind := (reached_iff_of_vanished current previous walked had has).mp reached
            rcases had with ⟨j, memJ, rfl⟩
            rw [prev.octets_of_mem memJ, comparable.vanished changed absent j memJ has behind,
              Sample.octets_of_not_has has] at differ
            exact absurd rfl differ
        · rw [Sample.octets_of_not_has has, Sample.octets_of_not_has had] at differ
          exact absurd rfl differ
  · rintro (⟨present, has, had⟩ | ⟨absent, has, had⟩ | ⟨changed, has, had, differ⟩)
    · exact ⟨reached_of_has current previous has, Or.inl ⟨present, has, had⟩⟩
    · refine ⟨?_, Or.inr (Or.inl ⟨absent, has, had⟩)⟩
      refine (reached_iff_of_vanished current previous walked had has).mpr ?_
      intro wild
      rcases had with ⟨j, memJ, rfl⟩
      rcases comparable.reached wild absent j memJ with ⟨i, memI, le⟩
      exact ⟨i, memI, lt_of_le_of_ne le fun same => has ⟨i, memI, same.symm⟩⟩
    · exact ⟨reached_of_has current previous has, Or.inr (Or.inr ⟨changed, differ⟩)⟩

theorem comparable_of_fires
    (fires : ∀ index, (∃ x ∈ comparisons (retrieve entry now) old,
      x.name = entry.mteTriggerValueID ++ index ∧
        (existenceTest entry x.current x.previous).isSome) ↔
      Changed entry.mteTExTest prev now index) : Comparable entry prev now := by
  have fires' := fun index => Iff.trans (fires_iff current previous).symm (fires index)
  constructor
  · intro wild absent j memJ
    by_cases has : now.Has j.index
    · rcases has with ⟨i, memI, same⟩
      exact ⟨i, memI, same.ge⟩
    · have had : prev.Has j.index := ⟨j, memJ, rfl⟩
      have reached := ((fires' j.index).mpr (Or.inr (Or.inl ⟨absent, has, had⟩))).1
      rcases (reached_iff_of_vanished current previous walked had has).mp reached wild with
        ⟨i, memI, lt⟩
      exact ⟨i, memI, lt.le⟩
  · intro changed present i memI had
    by_contra valued
    have has : now.Has i.index := ⟨i, memI, rfl⟩
    have differ : now.octets i.index ≠ prev.octets i.index := by
      rw [now.octets_of_mem memI, Sample.octets_of_not_has had]
      exact valued
    have reported := (fires' i.index).mp
      ⟨reached_of_has current previous has, Or.inr (Or.inr ⟨changed, differ⟩)⟩
    rw [Changed, has_iff_octets_ne] at reported
    rcases reported with ⟨isPresent, -⟩ | ⟨-, missing, -⟩ | ⟨-, -, had', -⟩
    · exact present isPresent
    · exact missing has
    · exact had had'
  · intro changed absent j memJ has behind
    by_contra valued
    have had : prev.Has j.index := ⟨j, memJ, rfl⟩
    have differ : now.octets j.index ≠ prev.octets j.index := by
      rw [prev.octets_of_mem memJ, Sample.octets_of_not_has has]
      exact Ne.symm valued
    have reached := (reached_iff_of_vanished current previous walked had has).mpr behind
    have reported := (fires' j.index).mp ⟨reached, Or.inr (Or.inr ⟨changed, differ⟩)⟩
    rw [Changed, has_iff_octets_ne] at reported
    rcases reported with ⟨-, has', -⟩ | ⟨isAbsent, -⟩ | ⟨-, has', -⟩
    · exact has has'
    · exact absent isAbsent
    · exact has has'

end Exactly

/-- At a run after the first one, entries of the same name are compared, and the event is fired
for exactly the changes if and only if the tests of the run tell these apart. -/
theorem reportsExactly_iff {fired : List Fired} {log : List (Sample × List Fired)}
    (configured : entry.existence = true) (hasEvent : entry.mteTExEvent.isSet = true)
    (runs : MteRuns entry (fun _ now queries => Undisturbed entry now queries)
      ((prev, fired) :: log) s)
    (answered : queries.values = some now) (monitored : now.Of entry)
    (walked : entry.flagVWild = true → now.instances ≠ []) :
    (align (retrieve entry now) false s.oldResults).1.map MteVarbind.name <+:
        (align (retrieve entry now) false s.oldResults).2.map MteVarbind.name ∧
      (ReportsExactly entry prev now (mteTriggerRun entry s queries).fired ↔
        Comparable entry prev now) := by
  have answers : now.Answers entry := ⟨monitored, walked⟩
  have current := answers.recorded
  rcases (runs.recorded fun _ _ _ calm => calm).2 prev fired log rfl with ⟨answered', previous⟩
  rcases align_recorded answers previous answered'.walked with ⟨behind, eq⟩
  have names : (comparisons (retrieve entry now) s.oldResults).map (fun x => x.current.name) =
      (comparisons (retrieve entry now) s.oldResults).map (fun x => x.previous.name) := by
    refine List.map_congr_left ?_
    intro x mem
    rw [x.current_name, previous_name current previous mem]
  have later : (align (retrieve entry now) false s.oldResults).2 ≠ [] := by
    rcases List.exists_mem_of_ne_nil _ current.nonempty with ⟨vp1, mem1⟩
    rcases exists_comparison current previous mem1 with ⟨x, mem, -⟩
    rw [eq]
    intro none
    have memMap := List.mem_map_of_mem (f := Joined.previous) mem
    rw [(List.append_eq_nil_iff.mp none).1] at memMap
    cases memMap
  have indexes := existenceIndexes_run configured hasEvent answered eq
    (by rw [eq] at later; exact later)
  rw [existenceLoop_map] at indexes
  constructor
  · rw [eq, List.map_append, List.map_map, List.map_map]
    exact ⟨behind.map MteVarbind.name, congrArg (· ++ behind.map MteVarbind.name) names⟩
  · constructor
    · intro reports
      refine comparable_of_fires current previous walked ?_
      intro index
      rw [← mem_events_iff current previous, ← indexes]
      exact reports.exactly index
    · intro comparable
      constructor
      · rw [indexes]
        exact nodup_events current previous
      · intro index
        rw [indexes, mem_events_iff current previous]
        exact comparable.fires current previous walked index

/-- A trigger for the instances below `1.3` that go. -/
def absentTrigger : MteTrigger where
  mteTriggerValueID := [1, 3]
  mteDeltaDiscontID := []
  existence := true
  boolean := false
  threshold := false
  flagDelta := false
  flagVWild := true
  flagDWild := false
  flagSysUpT := true
  flagBStart := false
  mteTExTest := ⟨false, true, false⟩
  mteTExStartup := ⟨false, false, false⟩
  mteTExEvent := ⟨[], [0x65]⟩
  mteTBoolComparison := .unequal
  mteTBoolValue := 0
  mteTBoolEvent := ⟨[], []⟩
  mteTThStartRise := true
  mteTThStartFall := true
  mteTThRiseValue := 0
  mteTThFallValue := 0
  mteTThDRiseValue := 0
  mteTThDFallValue := 0
  mteTThRiseEvent := ⟨[], []⟩
  mteTThFallEvent := ⟨[], []⟩
  mteTThDRiseEvent := ⟨[], []⟩
  mteTThDFallEvent := ⟨[], []⟩

def integerInstance (index : Oid) (v : Int) : MteInstance :=
  ⟨index, asnInteger, some ⟨[], v⟩, by decide⟩

def bothPresent : Sample :=
  ⟨[integerInstance [1] 5, integerInstance [2] 5],
    List.pairwise_pair.mpr (by decide), snmpNosuchinstance, by decide⟩

def firstPresent : Sample :=
  ⟨[integerInstance [1] 5], List.pairwise_singleton _ _, snmpNosuchinstance, by decide⟩

def lastPresent : Sample :=
  ⟨[integerInstance [2] 5], List.pairwise_singleton _ _, snmpNosuchinstance, by decide⟩

def plainQueries (sample : Sample) : MteQueries := ⟨some sample, some 0, none⟩

theorem absentTrigger_started (allowed : MteResults → Sample → MteQueries → Prop)
    (sample : Sample)
    (allows : allowed MteResults.empty sample (plainQueries sample)) :
    ∃ s, (mteTriggerRun absentTrigger MteResults.empty (plainQueries sample)).results = some s ∧
      MteRuns absentTrigger allowed
        [(sample, (mteTriggerRun absentTrigger MteResults.empty (plainQueries sample)).fired)]
          s := by
  have ran : ∃ s, (mteTriggerRun absentTrigger MteResults.empty (plainQueries sample)).results =
      some s := ⟨_, rfl⟩
  rcases ran with ⟨s, ran⟩
  refine ⟨s, ran, .run .start rfl ?_ allows ran⟩
  intro get
  cases get

theorem reportsExactly_absentTrigger : ∃ s,
    (mteTriggerRun absentTrigger MteResults.empty (plainQueries bothPresent)).results = some s ∧
    ReportsExactly absentTrigger bothPresent lastPresent
      (mteTriggerRun absentTrigger s (plainQueries lastPresent)).fired := by
  have calm : Undisturbed absentTrigger bothPresent (plainQueries bothPresent) := by
    refine ⟨fun _ => List.cons_ne_nil _ _, ?_⟩
    rintro (boolean | threshold)
    · cases boolean
    · cases threshold
  rcases absentTrigger_started
    (fun _ now queries => Undisturbed absentTrigger now queries) bothPresent calm with
    ⟨s, ran, runs⟩
  have monitored : lastPresent.Of absentTrigger := by
    intro get
    cases get
  have answered : (plainQueries lastPresent).values = some lastPresent := rfl
  have reports := reportsExactly_iff rfl rfl runs answered monitored
    fun _ => List.cons_ne_nil _ _
  refine ⟨s, ran, reports.2.mpr ⟨?_, ?_, ?_⟩⟩
  · intro _ _ j mem
    refine ⟨integerInstance [2] 5, List.mem_cons_self, ?_⟩
    rcases List.mem_cons.mp mem with rfl | mem'
    · decide
    · rcases List.mem_singleton.mp mem' with rfl
      decide
  · intro changed
    cases changed
  · intro changed
    cases changed

theorem not_reportsExactly : ¬ ∀ (entry : MteTrigger) (prev now : Sample) (fired : List Fired)
    (log : List (Sample × List Fired)) (s : MteResults) (queries : MteQueries),
    entry.existence = true → entry.mteTExEvent.isSet = true →
    MteRuns entry (fun _ _ _ => True) ((prev, fired) :: log) s → queries.values = some now →
    now.Of entry → ReportsExactly entry prev now (mteTriggerRun entry s queries).fired := by
  intro alwaysReports
  rcases absentTrigger_started (fun _ _ _ => True) bothPresent trivial with ⟨s, ran, runs⟩
  have reports := alwaysReports absentTrigger bothPresent firstPresent _ [] s
    (plainQueries firstPresent) rfl rfl runs rfl (by intro get; cases get)
  have gone : Changed absentTrigger.mteTExTest bothPresent firstPresent [2] := by
    refine Or.inr (Or.inl ⟨rfl, ?_, ⟨_, List.mem_cons_of_mem _ List.mem_cons_self, rfl⟩⟩)
    rintro ⟨i, mem, index⟩
    rcases List.mem_singleton.mp mem with rfl
    cases index
  have mem := (reports.exactly [2]).mpr gone
  have s_eq : s = ⟨[⟨[1, 3, 1], asnInteger, some ⟨[], 5⟩, Armed.all⟩,
      ⟨[1, 3, 2], asnInteger, some ⟨[], 5⟩, Armed.all⟩], [], 0⟩ := by
    have eq : (mteTriggerRun absentTrigger MteResults.empty (plainQueries bothPresent)).results =
        some ⟨[⟨[1, 3, 1], asnInteger, some ⟨[], 5⟩, Armed.all⟩,
          ⟨[1, 3, 2], asnInteger, some ⟨[], 5⟩, Armed.all⟩], [], 0⟩ := by decide
    exact Option.some.inj (ran.symm.trans eq)
  have none : existenceIndexes (mteTriggerRun absentTrigger s (plainQueries firstPresent)).fired =
    [] := by
    rw [s_eq]
    decide
  rw [none] at mem
  cases mem

end NetSnmp
