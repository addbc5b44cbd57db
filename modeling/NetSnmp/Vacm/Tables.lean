import Mathlib.Data.List.Find
import NetSnmp.Vacm.AccessOrder

/-!
# The group list and the order of the tables

The routines that keep the lists of `vacm_groupEntry` and `vacm_viewEntry`
structures in the order of their indexes.
-/

namespace NetSnmp

structure VacmGroupEntry where
  securityModel : Int
  securityName : VacmString
  groupName : VacmBuffer := Vector.replicate vacmStringLen 0
  storageType : Int := 0
  status : Int := 0
  deriving DecidableEq, Repr

/-- The condition on a row in the loop of `vacm_getGroupEntry`. -/
def groupMatches (securityModel : Int) (secname : VacmString) (vp : VacmGroupEntry) : Bool :=
  (securityModel = vp.securityModel || vp.securityModel = snmpSecModelAny) &&
    memcmp vp.securityName.stored secname.stored (secname.str.strlen + 1) = 0

def vacmGetGroupEntry (groupList : List VacmGroupEntry) (securityModel : Int)
    (securityName : CString) : Option VacmGroupEntry :=
  match vacmString securityName with
  | some secname => groupList.find? (groupMatches securityModel secname)
  | none => none

/-- The walk of `vacm_createGroupEntry` stops in front of this row. -/
def groupBehind (gp lg : VacmGroupEntry) : Bool :=
  decide (gp.securityModel < lg.securityModel) ||
    (lg.securityModel = gp.securityModel &&
      decide (0 < memcmp lg.securityName.stored gp.securityName.stored
        (gp.securityName.str.strlen + 1)))

/-- `vacm_createGroupEntry`: the list with the new row, and the row. -/
def vacmCreateGroupEntry (groupList : List VacmGroupEntry) (securityModel : Int)
    (securityName : CString) : Option (List VacmGroupEntry × VacmGroupEntry) :=
  match vacmString securityName with
  | some secname =>
      let gp : VacmGroupEntry := { securityModel, securityName := secname }
      some (insertBefore (groupBehind gp) gp groupList, gp)
  | none => none

/-- `vacm_destroyGroupEntry`: the first row with this index is taken out. -/
def vacmDestroyGroupEntry (groupList : List VacmGroupEntry) (securityModel : Int)
    (securityName : CString) : List VacmGroupEntry :=
  groupList.eraseP fun vp =>
    vp.securityModel = securityModel && strcmp vp.securityName.str securityName = 0

def groupIndex (vp : VacmGroupEntry) : Int ×ₗ List Nat :=
  toLex (vp.securityModel, vp.securityName.order)

theorem groupMatches_iff {securityModel : Int} {secname : VacmString} {vp : VacmGroupEntry} :
    groupMatches securityModel secname vp = true ↔
      (vp.securityModel = securityModel ∨ vp.securityModel = snmpSecModelAny) ∧
        vp.securityName = secname := by
  simp only [groupMatches, Bool.and_eq_true, Bool.or_eq_true, decide_eq_true_eq,
    memcmp_stored_eq_zero_iff]
  rw [eq_comm (a := securityModel)]

theorem vacmGetGroupEntry_eq (groupList : List VacmGroupEntry) (securityModel : Int)
    (securityName : CString) :
    vacmGetGroupEntry groupList securityModel securityName = groupList.find? fun vp =>
      (vp.securityModel = securityModel ∨ vp.securityModel = snmpSecModelAny) ∧
        vp.securityName.str = securityName := by
  cases copied : vacmString securityName with
  | none =>
      have long := vacmString_eq_none_iff.mp copied
      simp only [vacmGetGroupEntry, copied]
      symm
      apply List.find?_eq_none.mpr
      intro vp _ accepted
      rcases of_decide_eq_true accepted with ⟨-, rfl⟩
      exact absurd vp.securityName.short (not_le_of_gt long)
  | some secname =>
      simp only [vacmGetGroupEntry, copied]
      apply List.find?_congr
      intro vp _
      rw [Bool.eq_iff_iff, decide_eq_true_iff, groupMatches_iff,
        ← vacmString_eq_some_iff.mp copied, VacmString.str_inj]

theorem groupBehind_iff (gp lg : VacmGroupEntry) :
    groupBehind gp lg = true ↔ groupIndex gp < groupIndex lg := by
  simp only [groupBehind, groupIndex, VacmString.memcmp_stored, Prod.Lex.toLex_lt_toLex,
    Bool.or_eq_true, Bool.and_eq_true, decide_eq_true_eq, lexCompare_pos_iff]
  exact or_congr_right (and_congr_left fun _ => eq_comm)

/-- The lists of rows that can arise: rows are created, destroyed, and changed in the fields that
are not part of their index. -/
inductive GroupTable : List VacmGroupEntry → Prop
  | empty : GroupTable []
  | create {groupList groupList' : List VacmGroupEntry} {securityModel : Int}
      {securityName : CString} {gp : VacmGroupEntry} (table : GroupTable groupList)
      (created : vacmCreateGroupEntry groupList securityModel securityName =
        some (groupList', gp)) : GroupTable groupList'
  | assign {front back : List VacmGroupEntry} {gp gp' : VacmGroupEntry}
      (table : GroupTable (front ++ gp :: back)) (securityModel : gp'.securityModel =
        gp.securityModel)
      (securityName : gp'.securityName = gp.securityName) : GroupTable (front ++ gp' :: back)
  | destroy {groupList : List VacmGroupEntry} (table : GroupTable groupList) (securityModel : Int)
      (securityName : CString) :
      GroupTable (vacmDestroyGroupEntry groupList securityModel securityName)

theorem GroupTable.sorted {groupList : List VacmGroupEntry} (table : GroupTable groupList) :
    SortedBy groupIndex groupList := by
  induction table with
  | empty => exact List.Pairwise.nil
  | create table created ih =>
      simp only [vacmCreateGroupEntry] at created
      split at created
      · rcases Prod.mk.inj (Option.some.inj created) with ⟨rfl, rfl⟩
        exact ih.insertBefore fun other _ => groupBehind_iff _ other
      · exact absurd created (by simp)
  | assign table securityModel securityName ih =>
      apply ih.replace
      simp only [groupIndex, securityModel, securityName]
  | destroy table securityModel securityName ih =>
      exact ih.sublist List.eraseP_sublist

/-- `vacm_destroyViewEntry`: the first row with this index is taken out.  The subtree is the one
of the argument together with the length in front of it. -/
def vacmDestroyViewEntry (viewList : List VacmViewEntry) (viewName : CString)
    (viewSubtree : Oid) : List VacmViewEntry :=
  viewList.eraseP fun vp =>
    strcmp vp.viewName.str viewName = 0 && storedSubtree vp.viewSubtree = viewSubtree

def viewIndex (vp : VacmViewEntry) : List Nat ×ₗ Oid :=
  toLex (vp.viewName.order, storedSubtree vp.viewSubtree)

/-- The search of `netsnmp_view_create` stops in front of this row. -/
def viewBehind (vp lp : VacmViewEntry) : Bool := viewIndex vp < viewIndex lp

theorem insertView_eq (vp : VacmViewEntry) (head : List VacmViewEntry) :
    insertView vp head = insertBefore (viewBehind vp) vp head := by
  induction head with
  | nil => rfl
  | cons lp rest ih =>
      have same_iff : lexCompare lp.viewName.order vp.viewName.order = 0 ↔
          vp.viewName.order = lp.viewName.order := lexCompare_eq_zero_iff.trans eq_comm
      simp only [insertView, insertBefore, viewBehind, viewIndex, VacmString.memcmp_stored,
        snmpOidCompare, Prod.Lex.toLex_lt_toLex, lexCompare_pos_iff,
          decide_eq_true_eq, same_iff, ih]
      exact if_congr or_comm rfl rfl

inductive ViewTable : List VacmViewEntry → Prop
  | empty : ViewTable []
  | create {viewList viewList' : List VacmViewEntry} {viewName : CString} {viewSubtree : Oid}
      {vp : VacmViewEntry} (table : ViewTable viewList)
      (created : netsnmpViewCreate viewList viewName viewSubtree = some (viewList', vp)) :
      ViewTable viewList'
  | assign {front back : List VacmViewEntry} {vp vp' : VacmViewEntry}
      (table : ViewTable (front ++ vp :: back)) (viewName : vp'.viewName = vp.viewName)
      (viewSubtree : vp'.viewSubtree = vp.viewSubtree) : ViewTable (front ++ vp' :: back)
  | destroy {viewList : List VacmViewEntry} (table : ViewTable viewList) (viewName : CString)
      (viewSubtree : Oid) : ViewTable (vacmDestroyViewEntry viewList viewName viewSubtree)

theorem ViewTable.sorted {viewList : List VacmViewEntry} (table : ViewTable viewList) :
    SortedBy viewIndex viewList := by
  induction table with
  | empty => exact List.Pairwise.nil
  | create table created ih =>
      simp only [netsnmpViewCreate] at created
      split at created
      · exact absurd created (by simp)
      · split at created
        · exact absurd created (by simp)
        · rcases Prod.mk.inj (Option.some.inj created) with ⟨rfl, rfl⟩
          rw [insertView_eq]
          exact ih.insertBefore fun other _ => decide_eq_true_iff
  | assign table viewName viewSubtree ih =>
      apply ih.replace
      simp only [viewIndex, viewName, viewSubtree]
  | destroy table viewName viewSubtree ih =>
      exact ih.sublist List.eraseP_sublist

theorem ViewTable.length_le {viewList : List VacmViewEntry} (table : ViewTable viewList) :
    ∀ vp ∈ viewList, vp.viewSubtree.length ≤ maxOidLen := by
  induction table with
  | empty => simp
  | create table created ih =>
      simp only [netsnmpViewCreate] at created
      split at created
      · exact absurd created (by simp)
      · split at created
        · exact absurd created (by simp)
        · rename_i short
          rcases Prod.mk.inj (Option.some.inj created) with ⟨rfl, rfl⟩
          rw [insertView_eq]
          intro vp mem
          rcases mem_insertBefore.mp mem with rfl | old
          · exact le_of_not_gt short
          · exact ih vp old
  | assign table viewName viewSubtree ih =>
      intro vp mem
      rcases List.mem_append.mp mem with inFront | inBack
      · exact ih vp (List.mem_append_left _ inFront)
      · rcases List.mem_cons.mp inBack with rfl | behind
        · rw [viewSubtree]
          exact ih _ (List.mem_append_right _ List.mem_cons_self)
        · exact ih vp (List.mem_append_right _ (List.mem_cons_of_mem _ behind))
  | destroy table viewName viewSubtree ih =>
      intro vp mem
      exact ih vp (List.mem_of_mem_eraseP mem)

end NetSnmp
