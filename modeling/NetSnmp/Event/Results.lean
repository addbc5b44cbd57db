import NetSnmp.Event.Trigger

/-!
# The results of two runs, brought into line

The loop over the current results computes the join of the two lists by name, less
the entries that had gone by the last run already. What a run leaves in
`old_results` is then what it found.
-/

namespace NetSnmp

variable {entry : MteTrigger} {sample : Sample} {s : MteResults} {var old : List MteVarbind}

/-- The entry of the current results for one name. -/
def Joined.current : Joined MteVarbind MteVarbind → MteVarbind
  | .left vp1 => { vp1 with index := Armed.all }
  | .both vp1 vp2 => { vp1 with index := vp2.index }
  | .right vp2 => MteVarbind.dummy vp2.name

def Joined.previous : Joined MteVarbind MteVarbind → MteVarbind
  | .left vp1 => MteVarbind.dummy vp1.name
  | .both _ vp2 => vp2
  | .right vp2 => vp2

def Joined.compared : Joined MteVarbind MteVarbind → Bool
  | .right vp2 => vp2.type ≠ asnNull
  | _ => true

def comparisons (var old : List MteVarbind) : List (Joined MteVarbind MteVarbind) :=
  (join MteVarbind.name MteVarbind.name (var.map flatten) old).filter Joined.compared

@[simp]
theorem flatten_name (vp : MteVarbind) : (flatten vp).name = vp.name := by
  unfold flatten
  split
  · rfl
  · rfl

@[simp]
theorem flatten_val (vp : MteVarbind) : (flatten vp).val = vp.val := by
  unfold flatten
  split
  · rfl
  · rfl

@[simp]
theorem MteVarbind.dummy_name (name : Oid) : (dummy name).name = name := rfl

@[simp]
theorem MteInstance.varbind_name (i : MteInstance) (valueID : Oid) :
    (i.varbind valueID).name = valueID ++ i.index := rfl

theorem align_eq_join (var old : List MteVarbind) :
    ∃ behind, align var true old =
      ((comparisons var old).map Joined.current,
        (comparisons var old).map Joined.previous ++ behind) := by
  induction var generalizing old with
  | nil => exact ⟨old, rfl⟩
  | cons vp1 var ih =>
      induction old with
      | nil =>
          rcases ih [] with ⟨behind, eq⟩
          refine ⟨behind, ?_⟩
          simp only [align, alignEntry, inFront, eq, comparisons, List.map_cons, join, joinEntry,
            List.filter_cons]
          rfl
      | cons vp2 old ih' =>
          simp only [comparisons, align, alignEntry, List.map_cons, join, joinEntry,
            snmpOidCompare_neg_iff, snmpOidCompare_eq_zero_iff] at ih' ⊢
          split_ifs with lt same present
          · rcases ih (vp2 :: old) with ⟨behind, eq⟩
            refine ⟨behind, ?_⟩
            rw [eq]
            rfl
          · rcases ih old with ⟨behind, eq⟩
            refine ⟨behind, ?_⟩
            rw [eq]
            rfl
          · rcases ih' with ⟨behind, eq⟩
            refine ⟨behind, ?_⟩
            rw [eq, List.filter_cons_of_pos (by simpa [Joined.compared] using present)]
            rfl
          · rcases ih' with ⟨behind, eq⟩
            refine ⟨behind, ?_⟩
            rw [eq, List.filter_cons_of_neg (by simpa [Joined.compared] using present)]

theorem align_first (var : List MteVarbind) :
    align var false [] = (var.map fun vp1 => { flatten vp1 with index := Armed.all }, []) := by
  induction var with
  | nil => rfl
  | cons vp1 var ih => simp [align, alignEntry, inFront, ih]

theorem align_eq_align_true (sorted : Increasing MteVarbind.name var)
    (stays : ∃ vp2 ∈ old, vp2.type ≠ asnNull ∨ ∃ vp1 ∈ var, vp1.name = vp2.name) :
    align var false old = align var true old := by
  cases var with
  | nil => rfl
  | cons vp1 var =>
      induction old with
      | nil => simp at stays
      | cons vp2 old ih =>
          simp only [align, alignEntry, snmpOidCompare_neg_iff, snmpOidCompare_eq_zero_iff,
            flatten_name] at ih ⊢
          split_ifs with lt same present
          · rfl
          · rfl
          · rfl
          · refine ih ?_
            -- `vp2` has gone, and all current names are behind it
            rcases stays with ⟨vp, mem, stay⟩
            rcases List.mem_cons.mp mem with rfl | mem'
            · rcases stay with present' | ⟨vp1', mem1, same'⟩
              · exact absurd present' present
              · rcases List.mem_cons.mp mem1 with rfl | mem1'
                · exact absurd same' same
                · exact absurd (same' ▸ sorted.head_lt mem1') lt
            · exact ⟨vp, mem', stay⟩

def MteVarbind.bare (vp : MteVarbind) : MteVarbind := { vp with index := Armed.zero }

theorem MteVarbind.bare_eq_iff {vp vp' : MteVarbind} :
    vp.bare = vp'.bare ↔ vp.name = vp'.name ∧ vp.type = vp'.type ∧ vp.val = vp'.val := by
  simp [bare]

theorem sampleTests_map {β : Type} {sampled : MteVarbind → Option MteVarbind → Sampled}
    {test : MteVarbind → Int → Armed × List Fired} {var' : List MteVarbind} (part : MteVarbind → β)
    (keeps : ∀ vp1 v, part { vp1 with index := (test vp1 v).1 } = part vp1)
    (tested : (sampleTests sampled test var old).2 = some var') :
    var'.map part = var.map part := by
  induction var generalizing old var' with
  | nil =>
      cases tested
      rfl
  | cons vp1 var ih =>
      simp only [sampleTests] at tested
      split at tested
      · cases tested
      · rcases Option.map_eq_some_iff.mp tested with ⟨rest, restTested, rfl⟩
        rw [List.map_cons, List.map_cons, ih restTested]
      · rcases Option.map_eq_some_iff.mp tested with ⟨rest, restTested, rfl⟩
        rw [List.map_cons, List.map_cons, ih restTested, keeps]

theorem sampleTests_bare {sampled : MteVarbind → Option MteVarbind → Sampled}
    {test : MteVarbind → Int → Armed × List Fired} {var' : List MteVarbind}
    (tested : (sampleTests sampled test var old).2 = some var') :
    var'.map MteVarbind.bare = var.map MteVarbind.bare :=
  sampleTests_map MteVarbind.bare (fun _ _ => rfl) tested

theorem tests_bare {applies : Bool} {loop : List MteVarbind → List Fired × Option (List MteVarbind)}
    {soFar : List Fired × Option (List MteVarbind)} {var' : List MteVarbind}
    (keeps : ∀ var var', (loop var).2 = some var' →
      var'.map MteVarbind.bare = var.map MteVarbind.bare)
    (before : ∀ var', soFar.2 = some var' → var'.map MteVarbind.bare = var.map MteVarbind.bare)
    (tested : (MteRun.tests applies loop soFar).2 = some var') :
    var'.map MteVarbind.bare = var.map MteVarbind.bare := by
  unfold MteRun.tests at tested
  split at tested
  · exact (keeps _ _ tested).trans (before _ ‹_›)
  · exact before _ tested

theorem integerTests_bare {dvar var' : List MteVarbind}
    (tested : (integerTests entry s dvar var).2 = some var') :
    var'.map MteVarbind.bare = var.map MteVarbind.bare := by
  refine tests_bare (fun _ _ => sampleTests_bare) (fun _ => ?_) tested
  refine tests_bare (fun _ _ => sampleTests_bare) (fun _ => ?_)
  refine tests_bare (fun _ _ => sampleTests_bare) (fun _ first => ?_)
  cases first
  rfl

def MteQueries.HasMarkers (entry : MteTrigger) (queries : MteQueries) : Prop :=
  (entry.boolean ∨ entry.threshold) → entry.flagDelta → ¬ entry.flagSysUpT →
    queries.discontinuity.isSome

theorem deltaChecks_stop {sysUT : Option Int} {dvar : List MteVarbind} {results : MteResults}
    (stops : deltaChecks entry s var sysUT dvar = .stop results) : results.oldResults = var := by
  unfold deltaChecks at stops
  split at stops
  · cases stops
  · split_ifs at stops
    · cases stops
      rfl
    · cases stops
      rfl
    · split at stops
      · cases stops
      · cases stops

theorem integerChecks_stop {queries : MteQueries} {results : MteResults}
    (markers : queries.HasMarkers entry) (stops : integerChecks entry s var queries =
      .stop results) :
    results.oldResults = var := by
  unfold integerChecks at stops
  split_ifs at stops with tests integer delta sysUpT
  · exact deltaChecks_stop stops
  · split at stops
    · rename_i missing
      have isSome := markers tests delta sysUpT
      rw [missing] at isSome
      cases isSome
    · exact deltaChecks_stop stops
  · cases stops
    rfl

theorem mteTriggerRun_oldResults {queries : MteQueries} {s' : MteResults}
    (answered : queries.values = some sample) (markers : queries.HasMarkers entry)
    (ran : (mteTriggerRun entry s queries).results = some s') :
    s'.oldResults.map MteVarbind.bare =
      (align (retrieve entry sample) false s.oldResults).1.map MteVarbind.bare := by
  simp only [mteTriggerRun, answered] at ran
  split at ran
  · cases ran
    rw [integerChecks_stop markers ‹_›]
  · cases ran
  · rcases Option.bind_eq_some_iff.mp ran with ⟨var', tested, rotated⟩
    rw [← integerTests_bare tested]
    unfold rotate at rotated
    split_ifs at rotated
    · rcases Option.map_eq_some_iff.mp rotated with ⟨time, -, rfl⟩
      rfl
    · cases rotated
      rfl

def Reports (entry : MteTrigger) (i : MteInstance) (vp : MteVarbind) : Prop :=
  vp.name = entry.mteTriggerValueID ++ i.index ∧ vp.type = i.type ∧ vp.val = i.val

/-- The results hold the instances of a sample, and apart from these only entries for missing
ones. -/
structure Recorded (entry : MteTrigger) (sample : Sample) (old : List MteVarbind) : Prop where
  increasing : Increasing MteVarbind.name old
  reported : ∀ i ∈ sample.instances, ∃ vp ∈ old, Reports entry i vp
  reports : ∀ vp ∈ old, vp.type ≠ asnNull → ∃ i ∈ sample.instances, Reports entry i vp
  empty : ∀ vp ∈ old, vp.type = asnNull → vp.val = none
  below : ∀ vp ∈ old, ∃ index, vp.name = entry.mteTriggerValueID ++ index
  single : entry.flagVWild = false → ∃ vp, old = [vp] ∧ vp.name = entry.mteTriggerValueID
  nonempty : old ≠ []

structure Sample.Answers (entry : MteTrigger) (sample : Sample) : Prop where
  monitored : sample.Of entry
  walked : entry.flagVWild = true → sample.instances ≠ []

theorem Recorded.congr {old' : List MteVarbind} (recorded : Recorded entry sample old)
    (same : old'.map MteVarbind.bare = old.map MteVarbind.bare) : Recorded entry sample old' := by
  have origin : ∀ vp' ∈ old', ∃ vp ∈ old, vp.name = vp'.name ∧ vp.type = vp'.type ∧
      vp.val = vp'.val := by
    intro vp' mem
    have mem' := List.mem_map_of_mem (f := MteVarbind.bare) mem
    rw [same] at mem'
    rcases List.mem_map.mp mem' with ⟨vp, memVp, eq⟩
    exact ⟨vp, memVp, MteVarbind.bare_eq_iff.mp eq⟩
  have image : ∀ vp ∈ old, ∃ vp' ∈ old', vp'.name = vp.name ∧ vp'.type = vp.type ∧
      vp'.val = vp.val := by
    intro vp mem
    have mem' := List.mem_map_of_mem (f := MteVarbind.bare) mem
    rw [← same] at mem'
    rcases List.mem_map.mp mem' with ⟨vp', memVp, eq⟩
    exact ⟨vp', memVp, MteVarbind.bare_eq_iff.mp eq⟩
  have names : old'.map MteVarbind.name = old.map MteVarbind.name := by
    have mapped := congrArg (List.map MteVarbind.name) same
    rw [List.map_map, List.map_map] at mapped
    exact mapped
  constructor
  · have increasing := List.pairwise_map.mpr recorded.increasing
    rw [← names] at increasing
    exact List.pairwise_map.mp increasing
  · intro i mem
    rcases recorded.reported i mem with ⟨vp, memVp, name, type, val⟩
    rcases image vp memVp with ⟨vp', memVp', name', type', val'⟩
    exact ⟨vp', memVp', name'.trans name, type'.trans type, val'.trans val⟩
  · intro vp' mem present
    rcases origin vp' mem with ⟨vp, memVp, name', type', val'⟩
    rcases recorded.reports vp memVp (type' ▸ present) with ⟨i, memI, name, type, val⟩
    exact ⟨i, memI, name'.symm.trans name, type'.symm.trans type, val'.symm.trans val⟩
  · intro vp' mem missing
    rcases origin vp' mem with ⟨vp, memVp, -, type', val'⟩
    exact val' ▸ recorded.empty vp memVp (type'.trans missing)
  · intro vp' mem
    rcases origin vp' mem with ⟨vp, memVp, name', -, -⟩
    rcases recorded.below vp memVp with ⟨index, name⟩
    exact ⟨index, name'.symm.trans name⟩
  · intro get
    rcases recorded.single get with ⟨vp, rfl, name⟩
    rcases List.map_eq_singleton_iff.mp same with ⟨vp', rfl, eq⟩
    exact ⟨vp', rfl, (MteVarbind.bare_eq_iff.mp eq).1.trans name⟩
  · intro none
    rw [none] at same
    exact recorded.nonempty (List.map_eq_nil_iff.mp same.symm)

theorem MteInstance.type_ne (i : MteInstance) : i.type ≠ asnNull := by
  intro missing
  have present := i.exists_
  rw [missing] at present
  cases present

theorem MteInstance.flatten_varbind (i : MteInstance) (valueID : Oid) :
    flatten (i.varbind valueID) = i.varbind valueID := by
  have present := i.exists_
  simp only [isMissing, Bool.or_eq_false_iff, decide_eq_false_iff_not] at present
  refine if_neg ?_
  rintro (noInstance | noObject | retry)
  · exact present.1.2 noInstance
  · exact present.1.1.2 noObject
  · exact present.2 retry

theorem MteInstance.reports_varbind (i : MteInstance) :
    Reports entry i (i.varbind entry.mteTriggerValueID) := ⟨rfl, rfl, rfl⟩

theorem flatten_exception (exception : Byte) (missing : isMissing exception = true) (name : Oid) :
    flatten { MteVarbind.unset name with type := exception } = MteVarbind.dummy name := by
  simp only [isMissing, Bool.or_eq_true, decide_eq_true_eq] at missing
  rcases missing with ((null | noObject) | noInstance) | retry
  · subst null
    rfl
  · subst noObject
    rfl
  · subst noInstance
    rfl
  · subst retry
    rfl

theorem flatten_retrieve_walk (wild : entry.flagVWild = true) (found : sample.instances ≠ []) :
    (retrieve entry sample).map flatten =
      sample.instances.map (MteInstance.varbind entry.mteTriggerValueID) := by
  have nonempty : (sample.instances.map
      (MteInstance.varbind entry.mteTriggerValueID)).isEmpty = false := by
    simpa using found
  simp only [retrieve, wild, if_true, netsnmpQueryWalk, nonempty, Bool.false_eq_true, if_false,
    List.map_map]
  refine List.map_congr_left ?_
  intro i _
  exact i.flatten_varbind entry.mteTriggerValueID

theorem flatten_retrieve_get (get : entry.flagVWild = false) (monitored : sample.Of entry) :
    (∃ i, sample.instances = [i] ∧ i.index = [] ∧
      (retrieve entry sample).map flatten = [i.varbind entry.mteTriggerValueID]) ∨
    (sample.instances = [] ∧
      (retrieve entry sample).map flatten = [MteVarbind.dummy entry.mteTriggerValueID]) := by
  have increasing := sample.increasing
  have single := monitored get
  simp only [retrieve, get, Bool.false_eq_true, if_false, netsnmpQueryGet, List.head?_map]
  rcases instances : sample.instances with _ | ⟨i, rest⟩
  · right
    refine ⟨rfl, ?_⟩
    simp [flatten_exception _ sample.missing]
  · left
    rw [instances] at increasing single
    have index : i.index = [] := single i List.mem_cons_self
    refine ⟨i, ?_, index, ?_⟩
    · -- a second instance would have the same index
      rcases rest with _ | ⟨j, rest⟩
      · rfl
      · have lt : i.index < j.index := increasing.head_lt List.mem_cons_self
        rw [index, single j (by simp)] at lt
        exact absurd lt (lt_irrefl _)
    · simp [i.flatten_varbind]

theorem Sample.Answers.recorded (answers : sample.Answers entry) :
    Recorded entry sample ((retrieve entry sample).map flatten) := by
  cases wild : entry.flagVWild with
  | true =>
      have found := answers.walked wild
      rw [flatten_retrieve_walk wild found]
      constructor
      · refine List.pairwise_map.mpr (sample.increasing.imp ?_)
        intro i j lt
        exact (append_lt_append_iff_left _).mpr lt
      · intro i mem
        exact ⟨_, List.mem_map_of_mem mem, i.reports_varbind⟩
      · intro vp mem _
        rcases List.mem_map.mp mem with ⟨i, memI, rfl⟩
        exact ⟨i, memI, i.reports_varbind⟩
      · intro vp mem missing
        rcases List.mem_map.mp mem with ⟨i, memI, rfl⟩
        exact absurd missing i.type_ne
      · intro vp mem
        rcases List.mem_map.mp mem with ⟨i, memI, rfl⟩
        exact ⟨i.index, rfl⟩
      · intro get
        rw [wild] at get
        cases get
      · simpa using found
  | false =>
      rcases flatten_retrieve_get wild answers.monitored with
        ⟨i, instances, index, eq⟩ | ⟨instances, eq⟩
      · rw [eq]
        constructor
        · exact List.pairwise_singleton _ _
        · intro j mem
          rw [instances, List.mem_singleton] at mem
          subst mem
          exact ⟨_, List.mem_cons_self, j.reports_varbind⟩
        · intro vp mem _
          rw [List.mem_singleton] at mem
          subst mem
          exact ⟨i, by rw [instances]; exact List.mem_cons_self, i.reports_varbind⟩
        · intro vp mem missing
          rw [List.mem_singleton] at mem
          subst mem
          exact absurd missing i.type_ne
        · intro vp mem
          rw [List.mem_singleton] at mem
          subst mem
          exact ⟨i.index, rfl⟩
        · intro _
          exact ⟨_, rfl, by rw [MteInstance.varbind_name, index, List.append_nil]⟩
        · exact List.cons_ne_nil _ _
      · rw [eq]
        constructor
        · exact List.pairwise_singleton _ _
        · intro j mem
          rw [instances] at mem
          cases mem
        · intro vp mem present
          rw [List.mem_singleton] at mem
          subst mem
          exact absurd rfl present
        · intro vp mem _
          rw [List.mem_singleton] at mem
          subst mem
          rfl
        · intro vp mem
          rw [List.mem_singleton] at mem
          subst mem
          exact ⟨[], by rw [MteVarbind.dummy_name, List.append_nil]⟩
        · intro _
          exact ⟨_, rfl, rfl⟩
        · exact List.cons_ne_nil _ _

section Comparisons

variable {now prev : Sample} {x : Joined MteVarbind MteVarbind} {index : Oid}

abbrev Joined.name (x : Joined MteVarbind MteVarbind) : Oid := x.at MteVarbind.name MteVarbind.name

theorem Joined.current_name (x : Joined MteVarbind MteVarbind) : x.current.name = x.name := by
  cases x with
  | left vp1 => rfl
  | both vp1 vp2 => rfl
  | right vp2 => rfl

variable (current : Recorded entry now (var.map flatten)) (previous : Recorded entry prev old)

include current previous

theorem mem_comparisons_iff : x ∈ comparisons var old ↔
    Joins MteVarbind.name MteVarbind.name (var.map flatten) old x ∧ x.compared = true := by
  rw [comparisons, List.mem_filter, mem_join current.increasing previous.increasing]

theorem increasing_comparisons : Increasing Joined.name (comparisons var old) :=
  List.Pairwise.filter _ (increasing_join current.increasing previous.increasing)

theorem previous_name (mem : x ∈ comparisons var old) : x.previous.name = x.name := by
  have joins := ((mem_comparisons_iff current previous).mp mem).1
  cases x with
  | left vp1 => rfl
  | both vp1 vp2 => exact joins.2.2.symm
  | right vp2 => rfl

theorem exists_comparison {vp1 : MteVarbind} (mem : vp1 ∈ var.map flatten) :
    ∃ x ∈ comparisons var old, x.current.bare = vp1.bare := by
  by_cases paired : ∃ vp2 ∈ old, vp1.name = vp2.name
  · rcases paired with ⟨vp2, mem2, same⟩
    refine ⟨.both vp1 vp2, ?_, rfl⟩
    exact (mem_comparisons_iff current previous).mpr ⟨⟨mem, mem2, same⟩, rfl⟩
  · refine ⟨.left vp1, ?_, rfl⟩
    refine (mem_comparisons_iff current previous).mpr ⟨⟨mem, ?_⟩, rfl⟩
    intro vp2 mem2 same
    exact paired ⟨vp2, mem2, same⟩

theorem exists_comparison_previous {vp2 : MteVarbind} (mem : vp2 ∈ old)
    (present : vp2.type ≠ asnNull)
    (reached : ∃ vp1 ∈ var.map flatten, vp2.name ≤ vp1.name) :
    ∃ x ∈ comparisons var old, x.name = vp2.name := by
  by_cases paired : ∃ vp1 ∈ var.map flatten, vp1.name = vp2.name
  · rcases paired with ⟨vp1, mem1, same⟩
    refine ⟨.both vp1 vp2, ?_, same⟩
    exact (mem_comparisons_iff current previous).mpr ⟨⟨mem1, mem, same⟩, rfl⟩
  · refine ⟨.right vp2, ?_, rfl⟩
    have apart : ∀ vp1 ∈ var.map flatten, vp1.name ≠ vp2.name := by
      intro vp1 mem1 same
      exact paired ⟨vp1, mem1, same⟩
    rcases reached with ⟨vp1, mem1, le⟩
    have behind := lt_of_le_of_ne le (apart vp1 mem1).symm
    refine (mem_comparisons_iff current previous).mpr ⟨⟨mem, apart, vp1, mem1, behind⟩, ?_⟩
    simpa [Joined.compared] using present

theorem previous_eq (mem : x ∈ comparisons var old) {vp2 : MteVarbind} (mem2 : vp2 ∈ old)
    (same : x.name = vp2.name) : x.previous = vp2 := by
  have joins := ((mem_comparisons_iff current previous).mp mem).1
  cases x with
  | left vp1 => exact absurd same (joins.2 vp2 mem2)
  | both vp1 vp2' =>
      exact previous.increasing.eq_of_key_eq joins.2.1 mem2 (joins.2.2.symm.trans same)
  | right vp2' => exact previous.increasing.eq_of_key_eq joins.1 mem2 same

theorem previous_cases (mem : x ∈ comparisons var old) :
    x.previous ∈ old ∨ x.previous = MteVarbind.dummy x.name := by
  have joins := ((mem_comparisons_iff current previous).mp mem).1
  cases x with
  | left vp1 => exact Or.inr rfl
  | both vp1 vp2 => exact Or.inl joins.2.1
  | right vp2 => exact Or.inl joins.1

theorem current_cases (mem : x ∈ comparisons var old) :
    (∃ vp1 ∈ var.map flatten, x.current.bare = vp1.bare) ∨
      (x.current = MteVarbind.dummy x.name ∧
        ∃ vp2 ∈ old, vp2.name = x.name ∧ vp2.type ≠ asnNull) := by
  rcases (mem_comparisons_iff current previous).mp mem with ⟨joins, compared⟩
  cases x with
  | left vp1 => exact Or.inl ⟨vp1, joins.1, rfl⟩
  | both vp1 vp2 => exact Or.inl ⟨vp1, joins.1, rfl⟩
  | right vp2 => exact Or.inr ⟨rfl, vp2, joins.1, rfl, of_decide_eq_true compared⟩

theorem Recorded.comparisons : Recorded entry now ((comparisons var old).map Joined.current) := by
  constructor
  · refine List.pairwise_map.mpr ((increasing_comparisons current previous).imp ?_)
    intro x y lt
    rw [x.current_name, y.current_name]
    exact lt
  · intro i memI
    rcases current.reported i memI with ⟨vp1, mem1, name, type, val⟩
    rcases exists_comparison current previous mem1 with ⟨x, mem, bare⟩
    rcases MteVarbind.bare_eq_iff.mp bare with ⟨name', type', val'⟩
    exact ⟨x.current, List.mem_map_of_mem mem, name'.trans name, type'.trans type, val'.trans val⟩
  · intro vp mem present
    rcases List.mem_map.mp mem with ⟨x, memX, rfl⟩
    rcases current_cases current previous memX with ⟨vp1, mem1, bare⟩ | ⟨dummy, -⟩
    · rcases MteVarbind.bare_eq_iff.mp bare with ⟨name', type', val'⟩
      rcases current.reports vp1 mem1 (type' ▸ present) with ⟨i, memI, name, type, val⟩
      exact ⟨i, memI, name'.trans name, type'.trans type, val'.trans val⟩
    · rw [dummy] at present
      exact absurd rfl present
  · intro vp mem missing
    rcases List.mem_map.mp mem with ⟨x, memX, rfl⟩
    rcases current_cases current previous memX with ⟨vp1, mem1, bare⟩ | ⟨dummy, -⟩
    · rcases MteVarbind.bare_eq_iff.mp bare with ⟨-, type', val'⟩
      exact val'.trans (current.empty vp1 mem1 (type'.symm.trans missing))
    · rw [dummy]
      rfl
  · intro vp mem
    rcases List.mem_map.mp mem with ⟨x, memX, rfl⟩
    rcases current_cases current previous memX with ⟨vp1, mem1, bare⟩ | ⟨-, vp2, mem2, name', -⟩
    · rcases current.below vp1 mem1 with ⟨index, name⟩
      exact ⟨index, (MteVarbind.bare_eq_iff.mp bare).1.trans name⟩
    · rcases previous.below vp2 mem2 with ⟨index, name⟩
      exact ⟨index, x.current_name.trans (name'.symm.trans name)⟩
  · intro get
    rcases current.single get with ⟨vp1, eq1, name1⟩
    rcases previous.single get with ⟨vp2, eq2, name2⟩
    refine ⟨{ vp1 with index := vp2.index }, ?_, name1⟩
    have same : vp1.name = vp2.name := name1.trans name2.symm
    have joined : NetSnmp.comparisons var old = [.both vp1 vp2] := by
      simp only [NetSnmp.comparisons, eq1, eq2, join, joinEntry, same, lt_irrefl, if_false, if_true]
      rfl
    rw [joined]
    rfl
  · intro none
    rcases List.exists_mem_of_ne_nil _ current.nonempty with ⟨vp1, mem1⟩
    rcases exists_comparison current previous mem1 with ⟨x, mem, -⟩
    have memMap := List.mem_map_of_mem (f := Joined.current) mem
    rw [none] at memMap
    cases memMap

theorem reports_current (mem : x ∈ comparisons var old) {i : MteInstance}
    (present : i ∈ now.instances) (same : x.name = entry.mteTriggerValueID ++ i.index) :
    Reports entry i x.current := by
  have recorded := current.comparisons previous
  rcases recorded.reported i present with ⟨vp, memVp, reports⟩
  have eq : vp = x.current := by
    refine recorded.increasing.eq_of_key_eq memVp (List.mem_map_of_mem mem) ?_
    rw [reports.1, x.current_name, same]
  exact eq ▸ reports

theorem reports_previous (mem : x ∈ comparisons var old) {j : MteInstance}
    (present : j ∈ prev.instances) (same : x.name = entry.mteTriggerValueID ++ j.index) :
    Reports entry j x.previous := by
  rcases previous.reported j present with ⟨vp, memVp, reports⟩
  have eq : x.previous = vp := previous_eq current previous mem memVp (same.trans reports.1.symm)
  exact eq.symm ▸ reports

theorem present_of_current (mem : x ∈ comparisons var old) (type : x.current.type ≠ asnNull) :
    ∃ i ∈ now.instances, Reports entry i x.current :=
  (current.comparisons previous).reports _ (List.mem_map_of_mem mem) type

theorem present_of_previous (mem : x ∈ comparisons var old) (type : x.previous.type ≠ asnNull) :
    ∃ j ∈ prev.instances, Reports entry j x.previous := by
  rcases previous_cases current previous mem with memOld | dummy
  · exact previous.reports _ memOld type
  · rw [dummy] at type
    exact absurd rfl type

theorem current_val (mem : x ∈ comparisons var old) (type : x.current.type = asnNull) :
    x.current.val = none :=
  (current.comparisons previous).empty _ (List.mem_map_of_mem mem) type

theorem previous_val (mem : x ∈ comparisons var old) (type : x.previous.type = asnNull) :
    x.previous.val = none := by
  rcases previous_cases current previous mem with memOld | dummy
  · exact previous.empty _ memOld type
  · rw [dummy]
    rfl

theorem name_below (mem : x ∈ comparisons var old) :
    ∃ index, x.name = entry.mteTriggerValueID ++ index := by
  rcases (current.comparisons previous).below _ (List.mem_map_of_mem mem) with ⟨index, name⟩
  exact ⟨index, x.current_name.symm.trans name⟩

end Comparisons

theorem align_recorded {now prev : Sample} (answers : now.Answers entry)
    (previous : Recorded entry prev old) (found : entry.flagVWild = true → prev.instances ≠ []) :
    ∃ behind, align (retrieve entry now) false old =
      ((comparisons (retrieve entry now) old).map Joined.current,
        (comparisons (retrieve entry now) old).map Joined.previous ++ behind) := by
  have current := answers.recorded
  have sorted : Increasing MteVarbind.name (retrieve entry now) := by
    have increasing := List.pairwise_map.mp current.increasing
    exact increasing.imp (by simp)
  rw [align_eq_align_true sorted]
  · exact align_eq_join _ _
  · cases wild : entry.flagVWild with
    | true =>
        rcases List.exists_mem_of_ne_nil _ (found wild) with ⟨j, memJ⟩
        rcases previous.reported j memJ with ⟨vp, mem, -, type, -⟩
        exact ⟨vp, mem, Or.inl (type ▸ j.type_ne)⟩
    | false =>
        rcases previous.single wild with ⟨vp2, rfl, name2⟩
        rcases current.single wild with ⟨vp1, eq, name1⟩
        rcases List.map_eq_singleton_iff.mp eq with ⟨vp, eq', rfl⟩
        refine ⟨vp2, List.mem_cons_self, Or.inr ⟨vp, ?_, ?_⟩⟩
        · rw [eq']
          exact List.mem_cons_self
        · rw [name2, ← name1, flatten_name]

end NetSnmp
