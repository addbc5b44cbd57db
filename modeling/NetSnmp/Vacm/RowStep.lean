import NetSnmp.Vacm.RowMap

/-!
# SET requests and the rows of the tables

What the write methods do suits the row that they have found. So in every phase of every SET request
the lists stay in order, and only the rows that the request names come, go or change.
-/

set_option linter.constructorNameAsVariable false

namespace NetSnmp

def groupWritten (action : SetAction) (var : SetVar) (geptr : Option VacmGroupEntry)
    (statics : WriteStatics) : Written VacmGroupEntry :=
  match var.column with
  | .groupName => writeVacmGroupName action var.value geptr statics
  | .groupStorageType => writeVacmSecurityToGroupStorageType action var.value geptr statics
  | _ =>
      writeVacmSecurityToGroupStatus action var.value (sec2groupParseOid var.index) geptr statics

def accessWritten (action : SetAction) (var : SetVar) (aptr : Option VacmAccessEntry)
    (statics : WriteStatics) : Written VacmAccessEntry :=
  match var.column with
  | .accessContextMatch => writeVacmAccessContextMatch action var.value aptr statics
  | .accessViewName view => writeVacmAccessViewName view action var.value aptr statics
  | .accessStorageType => writeVacmAccessStorageType action var.value aptr statics
  | _ => writeVacmAccessStatus action var.value (accessParseOid var.index) aptr statics

def viewWritten (action : SetAction) (var : SetVar) (vptr : Option (Option VacmViewEntry))
    (statics : WriteStatics) : Option (Written VacmViewEntry) :=
  match var.column with
  | .viewMask => writeVacmViewMask action var.value vptr statics
  | .viewType => writeVacmViewType action var.value vptr statics
  | .viewStorageType => writeVacmViewStorageType action var.value vptr statics
  | _ => writeVacmViewStatus action var.value (viewParseOid var.index) vptr statics

theorem writeMethod_eq (action : SetAction) (var : SetVar) (s : VacmState) :
    writeMethod action var s =
      match var.column.table with
      | .group =>
          let geptr := sec2groupParseGroupEntry s.groupList var.index
          some (s.applyGroup var.index geptr (groupWritten action var geptr s.statics))
      | .access =>
          let aptr := accessParseAccessEntry s.accessList var.index
          some (s.applyAccess var.index aptr (accessWritten action var aptr s.statics))
      | .view =>
          let vptr := viewParseViewEntry s.viewList var.index
          (viewWritten action var vptr s.statics).map (s.applyView var.index (vptr.bind id)) := by
  rcases var with ⟨column, index, value⟩
  cases column with
  | accessViewName view => cases view <;> rfl
  | _ => rfl

section Written

variable {action : SetAction} {var : SetVar} {statics : WriteStatics}

theorem groupWritten_suits (action : SetAction) (statics : WriteStatics)
    (group : var.column.table = .group) (geptr : Option VacmGroupEntry) :
    (groupWritten action var geptr statics).Suits (fun gp gp' => groupIndex gp' = groupIndex gp)
      geptr (geptr = none ∧ sec2groupParseOid var.index ≠ none) := by
  rcases var with ⟨column, index, value⟩
  cases column <;> cases group
  case groupName =>
    simp only [groupWritten, writeVacmGroupName]
    cases action with
    | reserve1 => (repeat' split) <;> trivial
    | reserve2 =>
        cases geptr with
        | none => trivial
        | some gp => exact ⟨gp, rfl, by simp only [groupIndex]⟩
    | free =>
        cases geptr with
        | none => trivial
        | some gp =>
            simp only
            split
            · exact ⟨gp, rfl, by simp only [groupIndex]⟩
            · trivial
    | _ => trivial
  case groupStorageType =>
    simp only [groupWritten, writeVacmSecurityToGroupStorageType]
    (repeat' split) <;> first | trivial | exact ⟨_, rfl, rfl⟩
  case groupStatus =>
    simp only [groupWritten, writeVacmSecurityToGroupStatus]
    cases action with
    | reserve1 =>
        (repeat' split) <;>
          first
          | trivial
          | exact ⟨rfl, by simp [*]⟩
    | action => (repeat' split) <;> first | trivial | exact ⟨_, rfl, rfl⟩
    | commit =>
        simp only
        split
        · rename_i isDestroy
          exact Option.isSome_iff_ne_none.mp isDestroy.1
        · trivial
    | undo =>
        simp only
        split
        · rename_i isDestroy
          exact Option.isSome_iff_ne_none.mp isDestroy.2
        · trivial
    | _ => trivial

theorem accessWritten_suits (action : SetAction) (statics : WriteStatics)
    (access : var.column.table = .access) (aptr : Option VacmAccessEntry) :
    (accessWritten action var aptr statics).Suits SameAccess aptr
      (aptr = none ∧ accessParseOid var.index ≠ none) := by
  rcases var with ⟨column, index, value⟩
  cases column <;> cases access
  case accessContextMatch =>
    simp only [accessWritten, writeVacmAccessContextMatch]
    (repeat' split) <;>
      first
      | trivial
      | rename_i context
        exact ⟨_, rfl, rfl, fun _ => context⟩
  case accessViewName view =>
    simp only [accessWritten, writeVacmAccessViewName]
    cases action with
    | reserve1 => (repeat' split) <;> trivial
    | reserve2 =>
        cases aptr with
        | none => trivial
        | some ap => exact ⟨ap, rfl, by simp only [accessIndex], id⟩
    | free =>
        cases aptr with
        | none => trivial
        | some ap =>
            simp only
            split
            · exact ⟨ap, rfl, by simp only [accessIndex], id⟩
            · trivial
    | _ => trivial
  case accessStorageType =>
    simp only [accessWritten, writeVacmAccessStorageType]
    (repeat' split) <;> trivial
  case accessStatus =>
    simp only [accessWritten, writeVacmAccessStatus]
    cases action with
    | reserve1 =>
        (repeat' split) <;>
          first
          | trivial
          | exact ⟨rfl, by simp [*]⟩
    | action => (repeat' split) <;> first | trivial | exact ⟨_, rfl, rfl, id⟩
    | commit =>
        simp only
        split
        · trivial
        · split
          · rename_i isDestroy
            exact Option.isSome_iff_ne_none.mp isDestroy.1
          · trivial
    | undo =>
        simp only
        split
        · split
          · trivial
          · split
            · rename_i isThere
              exact Option.isSome_iff_ne_none.mp isThere
            · trivial
        · trivial
    | _ => trivial

theorem viewWritten_suits (view : var.column.table = .view) {vptr : Option VacmViewEntry}
    {written : Written VacmViewEntry}
    (wrote : viewWritten action var (some vptr) statics = some written) :
    written.Suits (fun vp vp' => viewIndex vp' = viewIndex vp) vptr
      (reservedView var.index vptr = none ∧ viewParseOid var.index ≠ none) := by
  rcases var with ⟨column, index, value⟩
  cases column <;> cases view
  case viewMask =>
    simp only [viewWritten, writeVacmViewMask, Option.map_some] at wrote
    (repeat' split at wrote) <;> rcases Option.some.inj wrote with rfl
    all_goals first | trivial | exact ⟨_, rfl, by simp only [viewIndex]⟩
  case viewType =>
    simp only [viewWritten, writeVacmViewType, Option.map_some] at wrote
    (repeat' split at wrote) <;> rcases Option.some.inj wrote with rfl
    all_goals first | trivial | exact ⟨_, rfl, by simp only [viewIndex]⟩
  case viewStorageType =>
    simp only [viewWritten, writeVacmViewStorageType, Option.map_some] at wrote
    (repeat' split at wrote) <;> rcases Option.some.inj wrote with rfl
    all_goals first | trivial | exact ⟨_, rfl, by simp only [viewIndex]⟩
  case viewStatus =>
    simp only [viewWritten, writeVacmViewStatus, Option.map_some] at wrote
    cases action with
    | reserve1 =>
        simp only at wrote
        cases value with
        | integer longRet =>
            simp only at wrote
            split at wrote
            · rcases Option.some.inj wrote with rfl
              trivial
            · cases parsed : viewParseOid index with
              | none =>
                  simp only [parsed] at wrote
                  rcases Option.some.inj wrote with rfl
                  trivial
              | some name =>
                  rcases name with ⟨⟨viewName, viewNameLen⟩, newViewSubtree⟩
                  simp only [parsed] at wrote
                  (repeat' split at wrote) <;> rcases Option.some.inj wrote with rfl
                  all_goals first | trivial | skip
                  rename_i absent _ _
                  refine ⟨?_, by simp⟩
                  simpa only [reservedView, parsed, Option.bind_some] using absent
        | _ =>
            rcases Option.some.inj wrote with rfl
            trivial
    | action =>
        simp only at wrote
        rcases Option.some.inj wrote with rfl
        (repeat' split) <;> first | trivial | exact ⟨_, rfl, by simp only [viewIndex]⟩
    | commit =>
        simp only at wrote
        rcases Option.some.inj wrote with rfl
        split
        · rename_i isDestroy
          exact Option.isSome_iff_ne_none.mp isDestroy.1
        · trivial
    | undo =>
        simp only at wrote
        split at wrote
        · rcases Option.some.inj wrote with rfl
          split
          · rename_i isThere
            exact Option.isSome_iff_ne_none.mp isThere
          · trivial
        · rcases Option.some.inj wrote with rfl
          trivial
    | _ =>
        rcases Option.some.inj wrote with rfl
        trivial

theorem viewWritten_none {written : Written VacmViewEntry}
    (wrote : viewWritten action var none statics = some written) : written.change = .keep := by
  rcases var with ⟨column, index, value⟩
  cases column <;> cases action <;> cases value <;>
    simp only [viewWritten, writeVacmViewMask, writeVacmViewType, writeVacmViewStorageType,
      writeVacmViewStatus, Option.map_none, reduceCtorEq] at wrote
  all_goals
    (repeat' split at wrote) <;>
      first
      | rcases Option.some.inj wrote with rfl
        rfl
      | cases wrote

end Written

theorem writeMethod_changes {action : SetAction} {var : SetVar} {s s' : VacmState} {err : SetError}
    (orderly : s.Orderly) (wrote : writeMethod action var s = some (err, s')) :
    s.KeyChanges var.key s' := by
  rw [writeMethod_eq] at wrote
  rw [SetVar.key]
  cases table : var.column.table with
  | group =>
      simp only [table, Option.some.injEq] at wrote ⊢
      have changes := applyGroup_changes orderly rfl
        (groupWritten_suits action s.statics table _)
      rwa [wrote] at changes
  | access =>
      simp only [table, Option.some.injEq] at wrote ⊢
      have changes := applyAccess_changes orderly rfl
        (accessWritten_suits action s.statics table _)
      rwa [wrote] at changes
  | view =>
      simp only [table, Option.map_eq_some_iff] at wrote
      rcases wrote with ⟨written, wrote, applied⟩
      cases looked : viewParseViewEntry s.viewList var.index with
      | none =>
          rw [looked] at wrote applied
          have kept := viewWritten_none wrote
          rcases written with ⟨err', change, statics⟩
          rcases kept with rfl
          rcases Prod.mk.inj applied with ⟨-, rfl⟩
          exact ⟨.refl orderly.groups, .refl orderly.accesses, .refl orderly.views,
            orderly.contexts⟩
      | some vptr =>
          rw [looked] at wrote applied
          have changes := applyView_changes orderly looked (viewWritten_suits table wrote)
          simp only [Option.bind_some, id] at applied
          rwa [applied] at changes

def RequestTouches (vars : List SetVar) (k : RowKey) : Prop :=
  ∃ var ∈ vars, var.key.map RowKey.name = some k.name

def RequestNames (vars : List SetVar) (k : RowKey) : Prop := ∃ var ∈ vars, var.key = some k

theorem runPhase_changes {action : SetAction} {vars : List SetVar} {s s' : VacmState}
    {failed : Bool} (orderly : s.Orderly) (ran : runPhase action vars s = some (failed, s')) :
    VacmState.Changes (RequestTouches vars) (RequestNames vars) s s' := by
  induction vars generalizing s failed with
  | nil =>
      rcases Prod.mk.inj (Option.some.inj ran) with ⟨-, rfl⟩
      exact .refl orderly
  | cons var vars ih =>
      rcases Option.bind_eq_some_iff.mp ran with ⟨⟨err, middle⟩, wrote, rest⟩
      rcases Option.map_eq_some_iff.mp rest with ⟨⟨failed', last⟩, ran', same⟩
      rcases Prod.mk.inj same with ⟨-, rfl⟩
      have first := writeMethod_changes orderly wrote
      have others := ih first.orderly ran'
      refine .trans (first.mono ?_ ?_) (others.mono ?_ ?_)
      · exact fun k touches => ⟨var, List.mem_cons_self, touches⟩
      · exact fun k isKey => ⟨var, List.mem_cons_self, isKey⟩
      · rintro k ⟨other, mem, touches⟩
        exact ⟨other, List.mem_cons_of_mem _ mem, touches⟩
      · rintro k ⟨other, mem, isKey⟩
        exact ⟨other, List.mem_cons_of_mem _ mem, isKey⟩

theorem runSet_changes {vars : List SetVar} {s s' : VacmState} {outcome : SetOutcome}
    (orderly : s.Orderly) (ran : runSet vars s = some (outcome, s')) :
    VacmState.Changes (RequestTouches vars) (RequestNames vars) s s' := by
  have last {action : SetAction} {t : VacmState} (toOutcome : Bool × VacmState →
        SetOutcome × VacmState) (keeps : ∀ ended, (toOutcome ended).2 = ended.2)
      (before : VacmState.Changes (RequestTouches vars) (RequestNames vars) s t)
      (ended : (runPhase action vars t).map toOutcome = some (outcome, s')) :
      VacmState.Changes (RequestTouches vars) (RequestNames vars) s s' := by
    rcases Option.map_eq_some_iff.mp ended with ⟨⟨failed, t'⟩, ran', same⟩
    have same' : t' = s' := (keeps _).symm.trans (congrArg Prod.snd same)
    exact before.trans (same' ▸ runPhase_changes before.orderly ran')
  rcases Option.bind_eq_some_iff.mp ran with ⟨⟨failed₁, s₁⟩, reserved, ran₁⟩
  have changes₁ := runPhase_changes orderly reserved
  simp only at ran₁
  split at ran₁
  · exact last _ (fun _ => rfl) changes₁ ran₁
  · rcases Option.bind_eq_some_iff.mp ran₁ with ⟨⟨failed₂, s₂⟩, reserved₂, ran₂⟩
    have changes₂ := changes₁.trans (runPhase_changes changes₁.orderly reserved₂)
    simp only at ran₂
    split at ran₂
    · exact last _ (fun _ => rfl) changes₂ ran₂
    · rcases Option.bind_eq_some_iff.mp ran₂ with ⟨⟨failed₃, s₃⟩, acted, ran₃⟩
      have changes₃ := changes₂.trans (runPhase_changes changes₂.orderly acted)
      simp only at ran₃
      split at ran₃
      · exact last _ (fun _ => rfl) changes₃ ran₃
      · exact last _ (fun _ => rfl) changes₃ ran₃

def runSets : List (List SetVar) → VacmState → Option VacmState
  | [], s => some s
  | vars :: requests, s => (runSet vars s).bind fun (_, s) => runSets requests s

theorem runSets_keyChanges {requests : List (List SetVar)} {s s' : VacmState} (orderly : s.Orderly)
    (ran : runSets requests s = some s') :
    VacmState.Changes (fun k => ∃ vars ∈ requests, RequestTouches vars k)
      (fun k => ∃ vars ∈ requests, RequestNames vars k) s s' := by
  induction requests generalizing s with
  | nil =>
      rcases Option.some.inj ran with rfl
      exact .refl orderly
  | cons vars requests ih =>
      rcases Option.bind_eq_some_iff.mp ran with ⟨⟨outcome, middle⟩, first, ran'⟩
      have changes := runSet_changes orderly first
      have others := ih changes.orderly ran'
      refine .trans (changes.mono ?_ ?_) (others.mono ?_ ?_)
      · exact fun k touches => ⟨vars, List.mem_cons_self, touches⟩
      · exact fun k names => ⟨vars, List.mem_cons_self, names⟩
      · rintro k ⟨vars', mem, touches⟩
        exact ⟨vars', List.mem_cons_of_mem _ mem, touches⟩
      · rintro k ⟨vars', mem, names⟩
        exact ⟨vars', List.mem_cons_of_mem _ mem, names⟩

section Covered

theorem exists_viewParseViewEntry {var : SetVar} (view : var.column.table = .view)
    (covered : var.Covered) (viewList : List VacmViewEntry) :
    ∃ vptr, viewParseViewEntry viewList var.index = some vptr := by
  rw [viewParseViewEntry]
  cases parsed : viewParseOid var.index with
  | none => exact ⟨none, rfl⟩
  | some name =>
      rcases name with ⟨⟨viewName, viewNameLen⟩, newViewSubtree⟩
      cases newViewSubtree with
      | cons len subtree => exact ⟨_, rfl⟩
      | nil =>
          -- then the index ends with the name of the view
          cases index_eq : var.index with
          | nil => simp [index_eq, viewParseOid] at parsed
          | cons viewNameL rest =>
              simp only [index_eq, viewParseOid] at parsed
              (repeat' split at parsed) <;> try exact (Option.some_ne_none _ parsed.symm).elim
              rename_i long small
              simp only [Option.some.injEq, Prod.mk.injEq, List.drop_eq_nil_iff] at parsed
              exact absurd (le_antisymm parsed.2 (le_of_not_gt long))
                (covered view viewNameL rest index_eq)

theorem exists_viewWritten {var : SetVar} (action : SetAction) (statics : WriteStatics)
    (view : var.column.table = .view) (vptr : Option VacmViewEntry) :
    ∃ written, viewWritten action var (some vptr) statics = some written := by
  rcases var with ⟨column, index, value⟩
  apply Option.isSome_iff_exists.mp
  cases column <;> cases view <;> cases action <;>
    simp only [viewWritten, writeVacmViewMask, writeVacmViewType, writeVacmViewStorageType,
      writeVacmViewStatus, Option.map_some, Option.isSome_some]
  all_goals (repeat' split) <;> rfl

theorem exists_writeMethod {var : SetVar} (covered : var.Covered) (action : SetAction)
    (s : VacmState) : ∃ wrote, writeMethod action var s = some wrote := by
  rw [writeMethod_eq]
  cases table : var.column.table with
  | group => exact ⟨_, rfl⟩
  | access => exact ⟨_, rfl⟩
  | view =>
      rcases exists_viewParseViewEntry table covered s.viewList with ⟨vptr, looked⟩
      rcases exists_viewWritten action s.statics table vptr with ⟨written, wrote⟩
      simp only [looked, wrote]
      exact ⟨_, rfl⟩

theorem exists_runPhase {vars : List SetVar} (covered : ∀ var ∈ vars, var.Covered)
    (action : SetAction) (s : VacmState) : ∃ ended, runPhase action vars s = some ended := by
  induction vars generalizing s with
  | nil => exact ⟨_, rfl⟩
  | cons var vars ih =>
      rcases exists_writeMethod (covered var List.mem_cons_self) action s with ⟨⟨err, s'⟩, wrote⟩
      rcases ih (fun other mem => covered other (List.mem_cons_of_mem _ mem)) s' with ⟨ended, ran⟩
      simp only [runPhase, wrote, Option.bind_some, ran]
      exact ⟨_, rfl⟩

theorem exists_runSet {vars : List SetVar} (covered : ∀ var ∈ vars, var.Covered) (s : VacmState) :
    ∃ ended, runSet vars s = some ended := by
  rw [runSet]
  rcases exists_runPhase covered .reserve1 s with ⟨⟨failed₁, s₁⟩, reserved₁⟩
  rw [reserved₁, Option.bind_some]
  rcases exists_runPhase covered .free s₁ with ⟨freed₁, free₁⟩
  rcases exists_runPhase covered .reserve2 s₁ with ⟨⟨failed₂, s₂⟩, reserved₂⟩
  rcases exists_runPhase covered .free s₂ with ⟨freed₂, free₂⟩
  rcases exists_runPhase covered .action s₂ with ⟨⟨failed₃, s₃⟩, acted⟩
  rcases exists_runPhase covered .undo s₃ with ⟨undone, undo⟩
  rcases exists_runPhase covered .commit s₃ with ⟨committed, commit⟩
  simp only [free₁, reserved₂, Option.bind_some, free₂, acted, undo, commit, Option.map_some]
  (repeat' split) <;> exact ⟨_, rfl⟩

theorem exists_runSets {requests : List (List SetVar)}
    (covered : ∀ vars ∈ requests, ∀ var ∈ vars, var.Covered) (s : VacmState) :
    ∃ s', runSets requests s = some s' := by
  induction requests generalizing s with
  | nil => exact ⟨_, rfl⟩
  | cons vars requests ih =>
      rcases exists_runSet (covered vars List.mem_cons_self) s with ⟨⟨outcome, s'⟩, ran⟩
      rw [runSets, ran]
      exact ih (fun other mem => covered other (List.mem_cons_of_mem _ mem)) s'

end Covered

/-- Some variable of the requests is for the row. -/
def RequestsAreFor (requests : List (List SetVar)) (k : RowKey) : Prop :=
  ∃ vars ∈ requests, ∃ var ∈ vars, var.IsFor k

/-- Some variable of the requests is for a row with the security name, group or view of this one. -/
def RequestsShareName (requests : List (List SetVar)) (k : RowKey) : Prop :=
  ∃ vars ∈ requests, ∃ var ∈ vars, ∃ k', var.IsFor k' ∧ k'.name = k.name

/-- In every sequence of requests, whatever their phases return, the lists stay in order with one row
for an index. Behind it only rows that the index of some variable is for have come or gone, and only
rows with the name of one have changed. -/
theorem runSets_changes {requests : List (List SetVar)} {s : VacmState} (orderly : s.Orderly)
    (covered : ∀ vars ∈ requests, ∀ var ∈ vars, var.Covered) :
    ∃ s', runSets requests s = some s' ∧
      VacmState.Changes (RequestsShareName requests) (RequestsAreFor requests) s s' := by
  rcases exists_runSets covered s with ⟨s', ran⟩
  refine ⟨s', ran, (runSets_keyChanges orderly ran).mono ?_ ?_⟩
  · rintro k ⟨vars, mem, var, varMem, touches⟩
    rcases Option.map_eq_some_iff.mp touches with ⟨k', isKey, name_eq⟩
    exact ⟨vars, mem, var, varMem, k',
      SetVar.isFor_of_key (covered vars mem var varMem) isKey, name_eq⟩
  · rintro k ⟨vars, mem, var, varMem, isKey⟩
    exact ⟨vars, mem, var, varMem, SetVar.isFor_of_key (covered vars mem var varMem) isKey⟩

def createGroup : List SetVar :=
  [⟨.groupStatus, [3, 1, 97], .integer rsCreateandgo⟩, ⟨.groupName, [3, 1, 97], .octets [98]⟩]

/-- The view `v` of everything below 1.3 is created. -/
def createView : List SetVar := [⟨.viewStatus, [1, 118, 2, 1, 3], .integer rsCreateandgo⟩]

theorem runSets_changes_create :
    ∃ s', runSets [createGroup, createView] emptyVacm = some s' ∧
      (s'.groupList.length = 1 ∧ s'.viewList.length = 1) ∧
      VacmState.Changes (RequestsShareName [createGroup, createView])
        (RequestsAreFor [createGroup, createView]) emptyVacm s' := by
  have orderly : emptyVacm.Orderly := by
    constructor <;> simp [emptyVacm, Increasing]
  have covered : ∀ vars ∈ [createGroup, createView], ∀ var ∈ vars, var.Covered := by
    simp [createGroup, createView, SetVar.Covered, VacmColumn.table]
  rcases runSets_changes orderly covered with ⟨s', ran, changes⟩
  have rows : (runSets [createGroup, createView] emptyVacm).map
      (fun s => (s.groupList.length, s.viewList.length)) = some (1, 1) := rfl
  rw [ran] at rows
  exact ⟨s', ran, Prod.mk.inj (Option.some.inj rows), changes⟩

end NetSnmp
