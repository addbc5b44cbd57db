import NetSnmp.Vacm.IndexOid

/-!
# The order of the lists under creation and destruction

Sequences of calls of the routines that create and destroy rows, and the order of the lists
by the indexes of their rows as object identifiers.
-/

namespace NetSnmp

structure VacmLists where
  viewList : List VacmViewEntry := []
  groupList : List VacmGroupEntry := []
  accessList : List VacmAccessEntry := []

inductive VacmCall where
  | createView (viewName : CString) (viewSubtree : Oid)
  | destroyView (viewName : CString) (viewSubtree : Oid)
  | destroyAllViews
  | createGroup (securityModel : Int) (securityName : CString)
  | destroyGroup (securityModel : Int) (securityName : CString)
  | destroyAllGroups
  | createAccess (groupName contextPrefix : CString) (securityModel securityLevel : Int)
  | destroyAccess (groupName contextPrefix : CString) (securityModel securityLevel : Int)
  | destroyAllAccesses

namespace VacmLists

/-- The lists after a call. A row that is refused leaves them as they are. -/
def called (lists : VacmLists) : VacmCall → VacmLists
  | .createView viewName viewSubtree =>
      match netsnmpViewCreate lists.viewList viewName viewSubtree with
      | some (viewList, _) => { lists with viewList }
      | none => lists
  | .destroyView viewName viewSubtree =>
      { lists with viewList := vacmDestroyViewEntry lists.viewList viewName viewSubtree }
  | .destroyAllViews => { lists with viewList := [] }
  | .createGroup securityModel securityName =>
      match vacmCreateGroupEntry lists.groupList securityModel securityName with
      | some (groupList, _) => { lists with groupList }
      | none => lists
  | .destroyGroup securityModel securityName =>
      { lists with groupList := vacmDestroyGroupEntry lists.groupList securityModel securityName }
  | .destroyAllGroups => { lists with groupList := [] }
  | .createAccess groupName contextPrefix securityModel securityLevel =>
      match vacmCreateAccessEntry lists.accessList groupName contextPrefix securityModel
        securityLevel with
      | some (accessList, _) => { lists with accessList }
      | none => lists
  | .destroyAccess groupName contextPrefix securityModel securityLevel =>
      { lists with
        accessList := vacmDestroyAccessEntry lists.accessList groupName contextPrefix
          securityModel securityLevel }
  | .destroyAllAccesses => { lists with accessList := [] }

def afterCalls (calls : List VacmCall) : VacmLists := calls.foldl called {}

end VacmLists

def groupRowOid (gp : VacmGroupEntry) : Oid :=
  toSizeT gp.securityModel :: gp.securityName.subids

def accessRowOid (vp : VacmAccessEntry) : Oid :=
  vp.groupName.subids ++ (vp.contextPrefix.subids ++
    [toSizeT vp.securityModel, toSizeT vp.securityLevel])

def InsertedInOrder {α : Type} (index : α → Oid) (list list' : List α) (row : α) : Prop :=
  ∃ front back, list = front ++ back ∧ list' = front ++ row :: back ∧
    (∀ other ∈ front, index other ≤ index row) ∧ ∀ other ∈ back.head?, index row < index other

namespace VacmLists

structure InIndexOrder (lists : VacmLists) : Prop where
  views : SortedBy viewOid lists.viewList
  groups : SortedBy groupRowOid lists.groupList
  accesses : SortedBy accessRowOid lists.accessList

def CreatesInOrder (lists : VacmLists) : VacmCall → Prop
  | .createView viewName viewSubtree => ∀ viewList' vp,
      netsnmpViewCreate lists.viewList viewName viewSubtree = some (viewList', vp) →
        InsertedInOrder viewOid lists.viewList viewList' vp
  | .createGroup securityModel securityName => ∀ groupList' gp,
      vacmCreateGroupEntry lists.groupList securityModel securityName = some (groupList', gp) →
        InsertedInOrder groupRowOid lists.groupList groupList' gp
  | .createAccess groupName contextPrefix securityModel securityLevel => ∀ accessList' vp,
      vacmCreateAccessEntry lists.accessList groupName contextPrefix securityModel
        securityLevel = some (accessList', vp) →
        InsertedInOrder accessRowOid lists.accessList accessList' vp
  | _ => True

end VacmLists

/-- The lists are in order after some calls, and each of the calls inserts in order. -/
structure KeepsIndexOrder (calls : List VacmCall) : Prop where
  sorted : (VacmLists.afterCalls calls).InIndexOrder
  creates : ∀ before call after, calls = before ++ call :: after →
    (VacmLists.afterCalls before).CreatesInOrder call

/-- The models and levels of new rows are not negative. -/
def VacmCall.InRange : VacmCall → Prop
  | .createGroup securityModel _ => IsSubid securityModel
  | .createAccess _ _ securityModel securityLevel =>
      IsSubid securityModel ∧ IsSubid securityLevel
  | _ => True

theorem groupRowOid_eq {gp : VacmGroupEntry} (subid : IsSubid gp.securityModel) :
    groupRowOid gp = groupOid gp := by
  rw [groupRowOid, subid.toSizeT_eq, groupOid]

theorem accessRowOid_eq {vp : VacmAccessEntry}
    (inRange : IsSubid vp.securityModel ∧ IsSubid vp.securityLevel) :
    accessRowOid vp = accessOid vp := by
  rw [accessRowOid, inRange.1.toSizeT_eq, inRange.2.toSizeT_eq, accessOid]

theorem insertedInOrder_insertBefore {α : Type} {index : α → Oid} {behind : α → Bool} {row : α}
    {list : List α}
    (behind_iff : ∀ other ∈ list, behind other = true ↔ index row < index other) :
    InsertedInOrder index list (insertBefore behind row list) row := by
  rcases exists_insertBefore behind row list with ⟨front, back, rfl, inserted, before, after⟩
  refine ⟨front, back, rfl, inserted, ?_, ?_⟩
  · intro other mem
    apply le_of_not_gt
    intro greater
    exact before other mem ((behind_iff other (List.mem_append_left _ mem)).mpr greater)
  · intro other mem
    apply (behind_iff other (List.mem_append_right _ (List.mem_of_mem_head? mem))).mp
    exact after other mem

namespace VacmLists

variable {lists : VacmLists}

/-- The lists are made by creations and destructions, and their indexes are in range. -/
structure WellFormed (lists : VacmLists) : Prop where
  views : ViewTable lists.viewList
  groups : GroupTable lists.groupList
  accesses : AccessTable lists.accessList
  groupsInRange : GroupsInRange lists.groupList
  accessesInRange : AccessesInRange lists.accessList

theorem wellFormed_empty : WellFormed {} :=
  ⟨.empty, .empty, .empty, fun _ mem => absurd mem List.not_mem_nil,
    fun _ mem => absurd mem List.not_mem_nil⟩

theorem vacmCreateGroupEntry_eq {groupList groupList' : List VacmGroupEntry} {securityModel : Int}
    {securityName : CString} {gp : VacmGroupEntry}
    (created : vacmCreateGroupEntry groupList securityModel securityName = some (groupList', gp)) :
    gp.securityModel = securityModel ∧ groupList' = insertBefore (groupBehind gp) gp groupList := by
  rw [vacmCreateGroupEntry] at created
  split at created
  · rcases Prod.mk.inj (Option.some.inj created) with ⟨rfl, rfl⟩
    exact ⟨rfl, rfl⟩
  · exact absurd created (by simp)

theorem vacmCreateAccessEntry_eq {accessList accessList' : List VacmAccessEntry}
    {groupName contextPrefix : CString} {securityModel securityLevel : Int} {vp : VacmAccessEntry}
    (created : vacmCreateAccessEntry accessList groupName contextPrefix securityModel
      securityLevel = some (accessList', vp)) :
    (vp.securityModel = securityModel ∧ vp.securityLevel = securityLevel) ∧
      accessList' = insertBefore (accessBehind vp) vp accessList := by
  rw [vacmCreateAccessEntry] at created
  split at created
  · rcases Prod.mk.inj (Option.some.inj created) with ⟨rfl, rfl⟩
    exact ⟨⟨rfl, rfl⟩, rfl⟩
  · exact absurd created (by simp)

theorem netsnmpViewCreate_eq {viewList viewList' : List VacmViewEntry} {viewName : CString}
    {viewSubtree : Oid} {vp : VacmViewEntry}
    (created : netsnmpViewCreate viewList viewName viewSubtree = some (viewList', vp)) :
    viewList' = insertBefore (viewBehind vp) vp viewList := by
  rw [netsnmpViewCreate] at created
  split at created
  · exact absurd created (by simp)
  · split at created
    · exact absurd created (by simp)
    · rcases Prod.mk.inj (Option.some.inj created) with ⟨rfl, rfl⟩
      exact insertView_eq _ _

theorem WellFormed.called (wellFormed : lists.WellFormed) {call : VacmCall}
    (inRange : call.InRange) : (lists.called call).WellFormed := by
  rcases wellFormed with ⟨views, groups, accesses, groupsInRange, accessesInRange⟩
  cases call with
  | createView viewName viewSubtree =>
      rw [VacmLists.called]
      split
      · rename_i created
        exact ⟨.create views created, groups, accesses, groupsInRange, accessesInRange⟩
      · exact ⟨views, groups, accesses, groupsInRange, accessesInRange⟩
  | destroyView viewName viewSubtree =>
      exact ⟨.destroy views viewName viewSubtree, groups, accesses, groupsInRange,
        accessesInRange⟩
  | destroyAllViews => exact ⟨.empty, groups, accesses, groupsInRange, accessesInRange⟩
  | createGroup securityModel securityName =>
      rw [VacmLists.called]
      split
      · rename_i created
        refine ⟨views, .create groups created, accesses, ?_, accessesInRange⟩
        rcases vacmCreateGroupEntry_eq created with ⟨model_eq, list_eq⟩
        intro gp mem
        simp only [list_eq] at mem
        rcases mem_insertBefore.mp mem with rfl | old
        · rw [model_eq]
          exact inRange
        · exact groupsInRange gp old
      · exact ⟨views, groups, accesses, groupsInRange, accessesInRange⟩
  | destroyGroup securityModel securityName =>
      exact ⟨views, .destroy groups securityModel securityName, accesses,
        fun gp mem => groupsInRange gp (List.mem_of_mem_eraseP mem), accessesInRange⟩
  | destroyAllGroups =>
      exact ⟨views, .empty, accesses, fun gp mem => absurd mem List.not_mem_nil, accessesInRange⟩
  | createAccess groupName contextPrefix securityModel securityLevel =>
      rw [VacmLists.called]
      split
      · rename_i created
        refine ⟨views, groups, .create accesses created, groupsInRange, ?_⟩
        rcases vacmCreateAccessEntry_eq created with ⟨index_eq, list_eq⟩
        intro vp mem
        simp only [list_eq] at mem
        rcases mem_insertBefore.mp mem with rfl | old
        · rw [index_eq.1, index_eq.2]
          exact inRange
        · exact accessesInRange vp old
      · exact ⟨views, groups, accesses, groupsInRange, accessesInRange⟩
  | destroyAccess groupName contextPrefix securityModel securityLevel =>
      exact ⟨views, groups, .destroy accesses groupName contextPrefix securityModel securityLevel,
        groupsInRange, fun vp mem => accessesInRange vp (List.mem_of_mem_eraseP mem)⟩
  | destroyAllAccesses =>
      exact ⟨views, groups, .empty, groupsInRange, fun vp mem => absurd mem List.not_mem_nil⟩

theorem WellFormed.inIndexOrder (wellFormed : lists.WellFormed) : lists.InIndexOrder := by
  constructor
  · exact wellFormed.views.sorted_viewOid
  · apply (wellFormed.groups.sorted_groupOid wellFormed.groupsInRange).of_lt
    intro first firstMem second secondMem less
    rwa [groupRowOid_eq (wellFormed.groupsInRange first firstMem),
      groupRowOid_eq (wellFormed.groupsInRange second secondMem)] at less
  · apply (wellFormed.accesses.sorted_accessOid wellFormed.accessesInRange).of_lt
    intro first firstMem second secondMem less
    rwa [accessRowOid_eq (wellFormed.accessesInRange first firstMem),
      accessRowOid_eq (wellFormed.accessesInRange second secondMem)] at less

theorem WellFormed.createsInOrder (wellFormed : lists.WellFormed) {call : VacmCall}
    (inRange : call.InRange) : lists.CreatesInOrder call := by
  cases call with
  | createView viewName viewSubtree =>
      intro viewList' vp created
      rw [netsnmpViewCreate_eq created]
      apply insertedInOrder_insertBefore
      intro other mem
      rw [viewOid_lt_iff]
      exact decide_eq_true_iff
  | createGroup securityModel securityName =>
      intro groupList' gp created
      rcases vacmCreateGroupEntry_eq created with ⟨rfl, list_eq⟩
      rw [list_eq]
      apply insertedInOrder_insertBefore
      intro other mem
      have otherInRange := wellFormed.groupsInRange other mem
      rw [groupRowOid_eq inRange, groupRowOid_eq otherInRange, groupOid_lt_iff inRange otherInRange]
      exact groupBehind_iff gp other
  | createAccess groupName contextPrefix securityModel securityLevel =>
      intro accessList' vp created
      rcases vacmCreateAccessEntry_eq created with ⟨⟨rfl, rfl⟩, list_eq⟩
      rw [list_eq]
      apply insertedInOrder_insertBefore
      intro other mem
      have otherInRange := wellFormed.accessesInRange other mem
      rw [accessRowOid_eq inRange, accessRowOid_eq otherInRange,
        accessOid_lt_iff inRange otherInRange]
      exact accessBehind_iff vp other
  | destroyView => trivial
  | destroyAllViews => trivial
  | destroyGroup => trivial
  | destroyAllGroups => trivial
  | destroyAccess => trivial
  | destroyAllAccesses => trivial

theorem WellFormed.foldl_called (wellFormed : lists.WellFormed) {calls : List VacmCall}
    (inRange : ∀ call ∈ calls, call.InRange) : (calls.foldl VacmLists.called lists).WellFormed := by
  induction calls generalizing lists with
  | nil => exact wellFormed
  | cons call calls ih =>
      rw [List.foldl_cons]
      apply ih (wellFormed.called (inRange call List.mem_cons_self))
      exact fun other mem => inRange other (List.mem_cons_of_mem _ mem)

end VacmLists

/-- The lists stay in the order of the indexes as long as no model or level of a new row is
negative. -/
theorem keepsIndexOrder_of_inRange (calls : List VacmCall)
    (inRange : ∀ call ∈ calls, call.InRange) : KeepsIndexOrder calls := by
  constructor
  · exact (VacmLists.wellFormed_empty.foldl_called inRange).inIndexOrder
  · rintro before call after rfl
    have beforeInRange : ∀ other ∈ before, other.InRange := fun other mem =>
      inRange other (List.mem_append_left _ mem)
    have here : call.InRange := inRange call (List.mem_append_right _ List.mem_cons_self)
    exact (VacmLists.wellFormed_empty.foldl_called beforeInRange).createsInOrder here

/-- The group `g` with no context prefix. -/
def createLevel (securityLevel : Int) : VacmCall :=
  .createAccess nameG.str emptyName.str 3 securityLevel

theorem keepsIndexOrder_of_inRange_levels :
    (∀ call ∈ [createLevel 2, createLevel 1], call.InRange) ∧
      KeepsIndexOrder [createLevel 2, createLevel 1] := by
  have inRange : ∀ call ∈ [createLevel 2, createLevel 1], call.InRange := by
    simp [createLevel, VacmCall.InRange, IsSubid]
  exact ⟨inRange, keepsIndexOrder_of_inRange _ inRange⟩

theorem not_keepsIndexOrder : ¬ KeepsIndexOrder [createLevel 1, createLevel (-1)] := by
  intro keeps
  have sorted := keeps.sorted.accesses
  rw [SortedBy] at sorted
  revert sorted
  decide +kernel

end NetSnmp
