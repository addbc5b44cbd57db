import Mathlib.Data.List.Nodup
import NetSnmp.Vacm.GetExact

/-!
# The access control tables as they are read

The two kinds of requests and the walk over a whole table, for the three tables.
-/

namespace NetSnmp

section Answers

variable {α : Type} (oid : α → Oid) (rows : List α)
  (findVar : (vpName name : Oid) → (exact : Bool) → Option (α × Oid))

/-- Both kinds of requests for the name find the row that they should find. -/
structure AnswersName (vpName name : Oid) : Prop where
  next : IsNext (fun row => vpName ++ oid row) rows name ((findVar vpName name false).map Prod.fst)
  exactly : IsExactly (fun row => vpName ++ oid row) rows name
    ((findVar vpName name true).map Prod.fst)

/-- A walk through the column visits every row once, under the name that its index gives it, and a
request for one of these names finds the row again. -/
structure AnswersWalk (vpName : Oid) : Prop where
  visits : ∀ steps, rows.length < steps →
    walk (findVar vpName · false) steps vpName = rows.map fun row => (row, vpName ++ oid row)
  returns : ∀ row ∈ rows, findVar vpName (vpName ++ oid row) true = some (row, vpName ++ oid row)

variable {oid rows findVar}

theorem readsAlike_of_read_eq {read : Option Oid} {vpName index : Oid}
    (read_eq : read = some index) :
    ReadsAlike oid rows read vpName (vpName ++ index) := by
  intro row _
  rw [append_lt_append_iff_left, read_eq]
  simp

theorem readsAlike_start {read : Option Oid} {vpName index : Oid} (read_eq : read = some index)
    (behind : ∀ row ∈ rows, index < oid row) : ReadsAlike oid rows read vpName vpName := by
  intro row mem
  have row_behind := behind row mem
  have some_behind : vpName ++ [] < vpName ++ oid row := by
    apply (append_lt_append_iff_left vpName).mpr
    cases oid_eq : oid row with
    | nil =>
        rw [oid_eq] at row_behind
        exact absurd row_behind (by simp)
    | cons subid rest => exact List.nil_lt_cons subid rest
  rw [List.append_nil] at some_behind
  exact iff_of_true some_behind ⟨index, read_eq, row_behind⟩

theorem answersWalk {vpName : Oid}
    (increasing : rows.Pairwise fun first second => oid first < oid second)
    (nonempty : ∀ row ∈ rows, oid row ≠ [])
    (first : IsNext (fun row => vpName ++ oid row) rows vpName
      ((findVar vpName vpName false).map Prod.fst))
    (answers : ∀ row ∈ rows, AnswersName oid rows findVar vpName (vpName ++ oid row))
    (nextName : ∀ name row name', findVar vpName name false = some (row, name') → row ∈ rows →
      name' = vpName ++ oid row)
    (sameName : ∀ index row name', findVar vpName (vpName ++ index) true = some (row, name') →
      name' = vpName ++ index) :
    AnswersWalk oid rows findVar vpName := by
  have increasing' : ([] ++ rows).Pairwise fun first second =>
      vpName ++ oid first < vpName ++ oid second :=
    increasing.imp (append_lt_append_iff_left vpName).mpr
  constructor
  · intro steps enough
    apply walk_eq_map increasing'
    · rintro from' (rfl | isKey)
      · exact first
      · rcases List.mem_map.mp isKey with ⟨row, mem, rfl⟩
        exact (answers row mem).next
    · exact nextName
    · simp
    · intro row mem
      have behind : [] < oid row := by
        rcases List.exists_cons_of_ne_nil (nonempty row mem) with ⟨subid, rest, oid_eq⟩
        rw [oid_eq]
        exact List.nil_lt_cons subid rest
      simpa using (append_lt_append_iff_left vpName).mpr behind
    · exact enough
  · intro row mem
    have exactly := (answers row mem).exactly
    cases answer : findVar vpName (vpName ++ oid row) true with
    | none =>
        rw [answer] at exactly
        exact absurd rfl (exactly row mem)
    | some found =>
        rcases found with ⟨row', name'⟩
        rw [answer] at exactly
        rcases exactly with ⟨mem', same⟩
        have name_eq := sameName _ _ _ answer
        have oid_eq : oid row' = oid row := List.append_cancel_left same
        have nodup : (rows.map oid).Nodup := List.pairwise_map.mpr (increasing.imp ne_of_lt)
        have row_eq : row' = row := List.inj_on_of_nodup_map nodup mem' mem oid_eq
        rw [row_eq, name_eq]

end Answers

/-- The characters are those that are the same number as a `char` and as an octet. -/
def IsAscii (name : VacmString) : Prop := ∀ char ∈ name.str.chars, char < 128

theorem subidOfChar_eq {char : Byte} (ascii : char < 128) : subidOfChar char = char.toNat := by
  have small : char.toNat < 128 := UInt8.lt_iff_toNat_lt.mp ascii
  unfold subidOfChar signedOfBits toSizeT
  split <;> omega

theorem map_subidOfChar {chars : List Byte} (ascii : ∀ char ∈ chars, char < 128) :
    chars.map subidOfChar = byteValues chars :=
  List.map_congr_left fun char mem => subidOfChar_eq (ascii char mem)

theorem takeWhile_chars (name : VacmString) :
    name.str.chars.takeWhile (· ≠ 0) = name.str.chars := by
  apply List.takeWhile_eq_self_iff.mpr
  intro char mem
  simpa using ne_of_mem_of_not_mem mem name.str.noNul

theorem subidOfChar_length (name : VacmString) :
    subidOfChar (UInt8.ofNat name.str.strlen) = name.str.strlen := by
  have short := name.short
  unfold vacmMaxString at short
  have value : (UInt8.ofNat name.str.strlen).toNat = name.str.strlen := by
    rw [UInt8.toNat_ofNat']
    omega
  rw [subidOfChar_eq
    (UInt8.lt_iff_toNat_lt.mpr (by rw [value]; exact lt_of_le_of_lt short (by decide))),
    value]

theorem doWhileChars_stored {name : VacmString} (ascii : IsAscii name) :
    doWhileChars name.stored = name.subids := by
  rw [VacmString.stored, doWhileChars, whileChars, takeWhile_chars, map_subidOfChar ascii,
    subidOfChar_length, VacmString.subids]

theorem whileChars_stored {name : VacmString} (ascii : IsAscii name)
    (nonempty : name.str.chars ≠ []) :
    whileChars name.stored = name.subids := by
  have short := name.short
  unfold vacmMaxString at short
  have pos : 0 < name.str.strlen := List.length_pos_iff.mpr nonempty
  have notZero : UInt8.ofNat name.str.strlen ≠ 0 := by
    intro zero
    have value := congrArg UInt8.toNat zero
    rw [UInt8.toNat_ofNat'] at value
    simp at value
    omega
  rw [← doWhileChars_stored ascii, VacmString.stored, doWhileChars, whileChars, whileChars,
    List.takeWhile_cons_of_pos (by simpa using notZero), List.map_cons]

/-- The rows are apart, their names can be returned and read again, and no row for any security
model has the name of another row. -/
structure GroupsWalkable (groupList : List VacmGroupEntry) : Prop where
  increasing : groupList.Pairwise fun first second => groupOid first < groupOid second
  ascii : ∀ gp ∈ groupList, IsAscii gp.securityName
  nonempty : ∀ gp ∈ groupList, gp.securityName.str.chars ≠ []
  noneForAny : ∀ gp ∈ groupList, ∀ gp' ∈ groupList, gp'.securityModel = snmpSecModelAny →
    gp'.securityName = gp.securityName → gp'.securityModel = gp.securityModel

theorem answersName_varVacmSec2group_iff {groupList : List VacmGroupEntry}
    (table : GroupTable groupList) (inRange : GroupsInRange groupList) (vpName name : Oid) :
    AnswersName groupOid groupList (varVacmSec2group groupList) vpName name ↔
      ReadsAlike groupOid groupList (sec2groupRead (requestedIndex vpName name)) vpName name ∧
        ∀ gp ∈ groupList, GroupSelected (requestedIndex vpName name) gp →
          groupOid gp = requestedIndex vpName name := by
  rw [← isNext_varVacmSec2group_iff table inRange, ← isExactly_varVacmSec2group_iff table inRange]
  exact ⟨fun answers => ⟨answers.next, answers.exactly⟩, fun ⟨next, exactly⟩ => ⟨next, exactly⟩⟩

theorem columnName_append (vpName index : Oid) : columnName vpName (vpName ++ index) =
    vpName ++ index := by
  simp [columnName]

theorem requestedIndex_append (vpName index : Oid) :
    requestedIndex vpName (vpName ++ index) = index := by
  simp [requestedIndex, columnName_append]

theorem requestedIndex_self (vpName : Oid) : requestedIndex vpName vpName = [] := by
  simpa using requestedIndex_append vpName []

theorem sec2groupRead_groupOid (gp : VacmGroupEntry) :
    sec2groupRead (groupOid gp) = some (groupOid gp) := by
  have short := gp.securityName.short
  simp only [groupOid, VacmString.subids, sec2groupRead]
  rw [if_pos]
  constructor
  · simp only [List.length_cons, byteValues, List.length_map]
    exact Nat.succ_le_succ short
  · intro subid mem
    rcases List.mem_cons.mp mem with rfl | mem
    · exact le_trans short (by decide)
    · exact le_of_mem_chars _ subid mem

theorem sec2groupName_eq {gp : VacmGroupEntry} (subid : IsSubid gp.securityModel)
    (ascii : IsAscii gp.securityName) (nonempty : gp.securityName.str.chars ≠ []) :
    sec2groupName gp = groupOid gp := by
  rw [sec2groupName, groupOid, subid.toSizeT_eq, whileChars_stored ascii nonempty]

theorem answersWalk_varVacmSec2group {groupList : List VacmGroupEntry}
    (table : GroupTable groupList) (inRange : GroupsInRange groupList)
    (walkable : GroupsWalkable groupList) (vpName : Oid) :
    AnswersWalk groupOid groupList (varVacmSec2group groupList) vpName := by
  apply answersWalk walkable.increasing
  · simp [groupOid]
  · rw [isNext_varVacmSec2group_iff table inRange, requestedIndex_self]
    apply readsAlike_start rfl
    intro gp mem
    have pos : 0 < gp.securityName.str.strlen := List.length_pos_iff.mpr (walkable.nonempty gp mem)
    simp only [groupOid, VacmString.subids, List.cons_lt_cons_iff]
    rcases Nat.eq_zero_or_pos gp.securityModel.toNat with zero | model_pos
    · exact .inr ⟨zero.symm, .inl pos⟩
    · exact .inl model_pos
  · intro gp mem
    rw [answersName_varVacmSec2group_iff table inRange, requestedIndex_append]
    refine ⟨readsAlike_of_read_eq (sec2groupRead_groupOid gp), ?_⟩
    intro gp' mem' selected
    have name_eq := selected.securityName_eq (groupSelected_groupOid (inRange gp mem))
    have model_eq : gp'.securityModel = gp.securityModel := by
      rcases selected.2.2.1 with same | isAny
      · rw [same, (inRange gp mem).toCInt_eq]
      · exact walkable.noneForAny gp mem gp' mem' isAny name_eq
    rw [groupOid, groupOid, name_eq, model_eq]
  · intro name gp name' answer mem
    simp only [varVacmSec2group, Bool.false_eq_true, if_false, Option.map_eq_some_iff,
      Prod.mk.injEq] at answer
    rcases answer with ⟨_, _, rfl, rfl⟩
    rw [sec2groupName_eq (inRange _ mem) (walkable.ascii _ mem) (walkable.nonempty _ mem)]
  · intro index gp name' answer
    simp only [varVacmSec2group, columnName_append, if_true, Option.map_eq_some_iff,
      Prod.mk.injEq] at answer
    rcases answer with ⟨_, _, rfl, rfl⟩
    rfl

/-- The rows are apart and in order, can be returned and read again, and have their kind of context
match set. -/
structure AccessesWalkable (accessList : List VacmAccessEntry) : Prop where
  increasing : accessList.Pairwise fun first second => accessOid first < accessOid second
  asciiGroup : ∀ gp ∈ accessList, IsAscii gp.groupName
  asciiContext : ∀ gp ∈ accessList, IsAscii gp.contextPrefix
  notZero : ∀ gp ∈ accessList, accessOid gp ≠ [0, 0, 0, 0]
  contextMatch : ∀ gp ∈ accessList,
    gp.contextMatch = contextMatchExact ∨ gp.contextMatch = contextMatchPrefix

theorem answersName_varVacmAccess_iff {accessList : List VacmAccessEntry}
    (inRange : AccessesInRange accessList) (vpName name : Oid) :
    AnswersName accessOid accessList (varVacmAccess accessList) vpName name ↔
      ReadsInOrder accessOid accessList (accessRead (requestedIndex vpName name)) vpName name ∧
        AccessLookupFits accessList (requestedIndex vpName name) := by
  rw [← isNext_varVacmAccess_iff inRange, ← isExactly_varVacmAccess_iff inRange]
  exact ⟨fun answers => ⟨answers.next, answers.exactly⟩, fun ⟨next, exactly⟩ => ⟨next, exactly⟩⟩

theorem completeString_subids (name : VacmString) (rest : Oid) :
    completeString (name.subids ++ rest) = some (name.subids, rest) := by
  have short := name.short
  have map_eq : (byteValues name.str.chars).map (min 255) = byteValues name.str.chars := by
    have unchanged : (byteValues name.str.chars).map (min 255) =
        (byteValues name.str.chars).map id :=
      List.map_congr_left fun subid mem => min_eq_right (le_of_mem_chars name subid mem)
    rw [unchanged, List.map_id]
  simp only [VacmString.subids, List.cons_append, completeString, name.take_chars_append,
    name.drop_chars_append, map_eq, name.length_chars]
  rw [if_neg (not_lt_of_ge short)]
  simp

theorem accessRead_accessOid (gp : VacmAccessEntry) :
    accessRead (accessOid gp) = some (accessOid gp) := by
  simp [accessRead, accessOid, completeString_subids, readSubid]

theorem accessName_eq {gp : VacmAccessEntry}
    (inRange : IsSubid gp.securityModel ∧ IsSubid gp.securityLevel)
    (asciiGroup : IsAscii gp.groupName) (asciiContext : IsAscii gp.contextPrefix) :
    accessName gp = accessOid gp := by
  rw [accessName, accessOid, inRange.1.toSizeT_eq, inRange.2.toSizeT_eq,
    doWhileChars_stored asciiGroup, doWhileChars_stored asciiContext, List.append_assoc]

theorem zeros_lt_accessOid {gp : VacmAccessEntry} (notZero : accessOid gp ≠ [0, 0, 0, 0]) :
    [0, 0, 0, 0] < accessOid gp := by
  have empty : Counted [0] := rfl
  have step : [0, 0, 0, 0] = [0] ++ ([0] ++ [0, 0]) := rfl
  apply lt_of_le_of_ne _ notZero.symm
  apply le_of_not_gt
  rw [accessOid, step, (VacmString.counted_subids _).append_lt_append_iff empty,
    (VacmString.counted_subids _).append_lt_append_iff empty]
  simp [VacmString.subids, List.cons_lt_cons_iff]

theorem answersWalk_varVacmAccess {accessList : List VacmAccessEntry}
    (inRange : AccessesInRange accessList) (walkable : AccessesWalkable accessList) (vpName : Oid) :
    AnswersWalk accessOid accessList (varVacmAccess accessList) vpName := by
  have sorted : SortedBy accessOid accessList := walkable.increasing.imp le_of_lt
  apply answersWalk walkable.increasing
  · simp [accessOid, VacmString.subids]
  · rw [isNext_varVacmAccess_iff inRange, requestedIndex_self, readsInOrder_iff_readsAlike sorted]
    apply readsAlike_start rfl
    intro gp mem
    exact zeros_lt_accessOid (walkable.notZero gp mem)
  · intro gp mem
    rw [answersName_varVacmAccess_iff inRange, requestedIndex_append,
      readsInOrder_iff_readsAlike sorted]
    refine ⟨readsAlike_of_read_eq (accessRead_accessOid gp), ?_⟩
    intro request seclevel requested
    rw [accessRequested_accessOid (inRange gp mem)] at requested
    rcases Prod.mk.inj (Option.some.inj requested) with ⟨rfl, rfl⟩
    rcases List.append_of_mem mem with ⟨front, back, list_eq⟩
    refine .inl ⟨gp, ⟨front, back, list_eq, accessMatches_self (walkable.contextMatch gp mem),
      fun other otherMem matched => ?_⟩, rfl⟩
    -- the rows behind this one have greater indexes, and those that match do not
    have increasing := walkable.increasing
    rw [list_eq] at increasing
    have behind := (List.pairwise_cons.mp (List.pairwise_append.mp increasing).2.1).1 other otherMem
    have otherInRange := inRange other (by simp [list_eq, otherMem])
    have le := accessIndex_le_of_accessMatches (inRange gp mem).1.1 matched
    exact absurd ((accessOid_lt_iff (inRange gp mem) otherInRange).mp behind) (not_lt_of_ge le)
  · intro name gp name' answer mem
    simp only [varVacmAccess, Bool.false_eq_true, if_false, Option.map_eq_some_iff,
      Prod.mk.injEq] at answer
    rcases answer with ⟨_, _, rfl, rfl⟩
    rw [accessName_eq (inRange _ mem) (walkable.asciiGroup _ mem) (walkable.asciiContext _ mem)]
  · intro index gp name' answer
    simp only [varVacmAccess, columnName_append, if_true, Option.map_eq_some_iff,
      Prod.mk.injEq] at answer
    rcases answer with ⟨_, _, rfl, rfl⟩
    rfl

/-- The rows are apart, and can be returned and read again. -/
structure ViewsWalkable (viewList : List VacmViewEntry) : Prop where
  increasing : viewList.Pairwise fun first second => viewOid first < viewOid second
  ascii : ∀ gp ∈ viewList, IsAscii gp.viewName
  long : ∀ gp ∈ viewList, 3 ≤ (viewOid gp).length

theorem answersName_varVacmView_iff {viewList : List VacmViewEntry} (table : ViewTable viewList)
    (vpName name : Oid) :
    AnswersName viewOid viewList (varVacmView viewList) vpName name ↔
      ReadsAlike viewOid viewList (viewRead (requestedIndex vpName name)) vpName name ∧
        ViewLookupFits viewList (requestedIndex vpName name) := by
  rw [← isNext_varVacmView_iff table, ← isExactly_varVacmView_iff table]
  exact ⟨fun answers => ⟨answers.next, answers.exactly⟩, fun ⟨next, exactly⟩ => ⟨next, exactly⟩⟩

theorem viewRead_viewOid (gp : VacmViewEntry) : viewRead (viewOid gp) = some (viewOid gp) := by
  simp only [viewRead, viewOid, completeString_subids, Option.map_some, storedSubtree, readSubtree]
  rw [List.take_of_length_le (Nat.le_succ _)]

theorem zero_lt_viewOid (gp : VacmViewEntry) : [0] < viewOid gp := by
  simp only [viewOid, VacmString.subids, List.cons_append, List.cons_lt_cons_iff]
  rcases Nat.eq_zero_or_pos gp.viewName.str.strlen with zero | pos
  · refine .inr ⟨zero.symm, ?_⟩
    cases tail_eq : byteValues gp.viewName.str.chars ++ storedSubtree gp.viewSubtree with
    | nil => exact absurd tail_eq (by simp [storedSubtree])
    | cons subid rest => exact List.nil_lt_cons subid rest
  · exact .inl pos

theorem answersWalk_varVacmView {viewList : List VacmViewEntry} (table : ViewTable viewList)
    (walkable : ViewsWalkable viewList) (vpName : Oid) :
    AnswersWalk viewOid viewList (varVacmView viewList) vpName := by
  apply answersWalk walkable.increasing
  · simp [viewOid, VacmString.subids]
  · rw [isNext_varVacmView_iff table, requestedIndex_self]
    apply readsAlike_start rfl
    intro gp _
    exact zero_lt_viewOid gp
  · intro gp mem
    rw [answersName_varVacmView_iff table, requestedIndex_append]
    refine ⟨readsAlike_of_read_eq (viewRead_viewOid gp), ?_⟩
    intro gp' mem'
    refine ⟨fun _ => walkable.long gp mem, ?_⟩
    intro requested
    rw [viewRequested_viewOid (table.length_le gp mem) (walkable.long gp mem)] at requested
    rcases Prod.mk.inj (Option.some.inj requested) with ⟨name_eq, subtree_eq⟩
    rw [viewOid, viewOid, VacmString.str_inj.mp name_eq, subtree_eq]
  · intro name gp name' answer mem
    simp only [varVacmView, Bool.false_eq_true, if_false, Option.map_eq_some_iff,
      Prod.mk.injEq] at answer
    rcases answer with ⟨_, _, rfl, rfl⟩
    rw [viewEntryName, viewOid, doWhileChars_stored (walkable.ascii _ mem)]
  · intro index gp name' answer
    simp only [varVacmView, columnName_append, if_true, Option.map_eq_some_iff,
      Prod.mk.injEq] at answer
    rcases answer with ⟨_, _, rfl, rfl⟩
    rfl

/-- Requests for a name, and walks, over the three tables. The rows of the access list are any ones:
a row that the parser finds takes the index of its line where it stands. -/
theorem answers_vacmTables {groupList : List VacmGroupEntry} {accessList : List VacmAccessEntry}
    {viewList : List VacmViewEntry} (groups : GroupTable groupList) (views : ViewTable viewList)
    (groupsInRange : GroupsInRange groupList) (accessesInRange : AccessesInRange accessList)
    (vpName : Oid) :
    (∀ name, AnswersName groupOid groupList (varVacmSec2group groupList) vpName name ↔
      ReadsAlike groupOid groupList (sec2groupRead (requestedIndex vpName name)) vpName name ∧
        ∀ gp ∈ groupList, GroupSelected (requestedIndex vpName name) gp →
          groupOid gp = requestedIndex vpName name) ∧
    (∀ name, AnswersName accessOid accessList (varVacmAccess accessList) vpName name ↔
      ReadsInOrder accessOid accessList (accessRead (requestedIndex vpName name)) vpName name ∧
        AccessLookupFits accessList (requestedIndex vpName name)) ∧
    (∀ name, AnswersName viewOid viewList (varVacmView viewList) vpName name ↔
      ReadsAlike viewOid viewList (viewRead (requestedIndex vpName name)) vpName name ∧
        ViewLookupFits viewList (requestedIndex vpName name)) ∧
    (GroupsWalkable groupList →
      AnswersWalk groupOid groupList (varVacmSec2group groupList) vpName) ∧
    (AccessesWalkable accessList →
      AnswersWalk accessOid accessList (varVacmAccess accessList) vpName) ∧
    (ViewsWalkable viewList → AnswersWalk viewOid viewList (varVacmView viewList) vpName) :=
  ⟨answersName_varVacmSec2group_iff groups groupsInRange vpName,
    answersName_varVacmAccess_iff accessesInRange vpName,
    answersName_varVacmView_iff views vpName,
    fun walkable => answersWalk_varVacmSec2group groups groupsInRange walkable vpName,
    fun walkable => answersWalk_varVacmAccess accessesInRange walkable vpName,
    fun walkable => answersWalk_varVacmView views walkable vpName⟩

/-- The user `u` with security model 3. -/
def oneGroupRow : List VacmGroupEntry :=
  [{ securityModel := 3, securityName := ⟨⟨[0x75], by decide⟩, by decide⟩ }]

/-- The user `u` with any security model. -/
def anyGroupRow : List VacmGroupEntry :=
  [{ securityModel := snmpSecModelAny, securityName := ⟨⟨[0x75], by decide⟩, by decide⟩ }]

/-- The group `g` in the default context. -/
def oneAccessRow : List VacmAccessEntry :=
  [{ groupName := nameG
     contextPrefix := emptyName
     securityModel := 3
     securityLevel := 1
     contextMatch := contextMatchExact }]

/-- The view `v` of everything below 1.3. -/
def oneViewRow : List VacmViewEntry :=
  [{ viewName := ⟨⟨[0x76], by decide⟩, by decide⟩, viewSubtree := [1, 3] }]

/-- `vacmSecurityToGroupStatus` -/
def vacmSecurityToGroupStatusOid : Oid := [1, 3, 6, 1, 6, 3, 16, 1, 2, 1, 5]

theorem groupTable_of_one (securityModel : Int) (securityName : VacmString) :
    GroupTable [{ securityModel, securityName }] := by
  have created : vacmCreateGroupEntry [] securityModel securityName.str =
      some ([{ securityModel, securityName }], { securityModel, securityName }) := by
    rw [vacmCreateGroupEntry, vacmString_eq_some_iff.mpr rfl]
    rfl
  exact .create .empty created

theorem viewTable_oneViewRow : ViewTable oneViewRow :=
  .create .empty (show netsnmpViewCreate [] ⟨[0x76], by decide⟩ [1, 3] =
    some (oneViewRow, oneViewRow[0]) from rfl)

theorem answers_vacmTables_oneRow :
    AnswersWalk groupOid oneGroupRow (varVacmSec2group oneGroupRow) vacmSecurityToGroupStatusOid ∧
    AnswersWalk accessOid oneAccessRow (varVacmAccess oneAccessRow)
      vacmSecurityToGroupStatusOid ∧
    AnswersWalk viewOid oneViewRow (varVacmView oneViewRow) vacmSecurityToGroupStatusOid := by
  have answers := answers_vacmTables (groupTable_of_one 3 ⟨⟨[0x75], by decide⟩, by decide⟩)
    viewTable_oneViewRow (by simp [GroupsInRange, IsSubid])
    (show AccessesInRange oneAccessRow by simp [AccessesInRange, IsSubid, oneAccessRow])
    vacmSecurityToGroupStatusOid
  rcases answers with ⟨-, -, -, groups, accesses, views⟩
  refine ⟨groups ⟨by simp, ?_, ?_, ?_⟩, accesses ⟨?_, ?_, ?_, ?_, ?_⟩, views ⟨?_, ?_, ?_⟩⟩
  all_goals simp [IsAscii, snmpSecModelAny, oneAccessRow, oneViewRow, accessOid, viewOid,
    VacmString.subids, CString.strlen, byteValues, storedSubtree, nameG, emptyName]

/-- The row for any security model is returned for the security model 3. -/
theorem not_answersName_anyGroupRow :
    GroupTable anyGroupRow ∧
      ¬ AnswersName groupOid anyGroupRow (varVacmSec2group anyGroupRow)
        vacmSecurityToGroupStatusOid (vacmSecurityToGroupStatusOid ++ [3, 1, 0x75]) := by
  refine ⟨groupTable_of_one snmpSecModelAny ⟨⟨[0x75], by decide⟩, by decide⟩, ?_⟩
  intro answers
  have exactly := answers.exactly
  have returned : (varVacmSec2group anyGroupRow vacmSecurityToGroupStatusOid
      (vacmSecurityToGroupStatusOid ++ [3, 1, 0x75]) true).map Prod.fst =
      some anyGroupRow[0] := by decide +kernel
  rw [returned] at exactly
  exact absurd exactly.2 (by decide)

end NetSnmp
