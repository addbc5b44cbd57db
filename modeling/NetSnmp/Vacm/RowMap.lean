import NetSnmp.Vacm.GetExact
import NetSnmp.Vacm.SetRequest

/-!
# The rows that a write method may change

The lists are maps from indexes to rows. A write method creates or destroys at most the row that
its name is for, and changes at most a row with the same first string in its index.
-/

set_option linter.constructorNameAsVariable false

namespace NetSnmp

inductive VacmTable where
  | group | access | view
  deriving DecidableEq, Repr

def VacmColumn.table : VacmColumn → VacmTable
  | .groupName | .groupStorageType | .groupStatus => .group
  | .accessContextMatch | .accessViewName _ | .accessStorageType | .accessStatus => .access
  | .viewMask | .viewType | .viewStorageType | .viewStatus => .view

/-- The index of a row, in the order in which the list of its table is kept. -/
inductive RowKey where
  | group (index : Int ×ₗ List Nat)
  | access (index : List Nat ×ₗ List Nat ×ₗ Int ×ₗ Int)
  | view (index : List Nat ×ₗ Oid)
  deriving DecidableEq

/-- The security name, the group or the view of a row. -/
def RowKey.name : RowKey → VacmTable × List Nat
  | .group index => (.group, (ofLex index).2)
  | .access index => (.access, (ofLex index).1)
  | .view index => (.view, (ofLex index).1)

def groupKey (index : Oid) : Option (Int ×ₗ List Nat) :=
  (sec2groupParseOid index).bind fun (model, newName, _) =>
    (vacmString newName).map fun secname => toLex (model, secname.order)

def accessKey (index : Oid) : Option (List Nat ×ₗ List Nat ×ₗ Int ×ₗ Int) :=
  (accessParseOid index).bind fun ((newGroupName, _), (newContextPrefix, _), model, level) =>
    (vacmString newGroupName).bind fun group =>
      (vacmString newContextPrefix).map fun context =>
        toLex (group.order, toLex (context.order, toLex (model, level)))

def viewKey (index : Oid) : Option (List Nat ×ₗ Oid) :=
  (viewParseOid index).bind fun ((newViewName, _), newViewSubtree) =>
    (vacmString newViewName).map fun view =>
      toLex (view.order, storedSubtree (newViewSubtree.drop 1))

def SetVar.key (var : SetVar) : Option RowKey :=
  match var.column.table with
  | .group => (groupKey var.index).map .group
  | .access => (accessKey var.index).map .access
  | .view => (viewKey var.index).map .view

/-- The characters of a string in an index up to the first zero, with their number in front. -/
def namePart (chars : Oid) : List Nat := (upToZero chars).length :: upToZero chars

/-- The rows that the index of a variable is for: a name counts up to its first zero, models and
levels are numbers of type `int`, and the number in front of a subtree does not count. -/
inductive SetVar.IsFor (var : SetVar) : RowKey → Prop
  | group {model : Nat} {chars : Oid} (table : var.column.table = .group)
      (index : var.index = model :: chars.length :: chars) :
      var.IsFor (.group (toLex (toCInt model, namePart chars)))
  | access {group context : Oid} {model level : Nat} (table : var.column.table = .access)
      (index : var.index =
        group.length :: (group ++ context.length :: (context ++ [model, level]))) :
      var.IsFor (.access (toLex (namePart group, toLex (namePart context,
        toLex (toCInt model, toCInt level)))))
  | view {chars subtree : Oid} {len : Nat} (table : var.column.table = .view)
      (index : var.index = chars.length :: (chars ++ len :: subtree)) :
      var.IsFor (.view (toLex (namePart chars, storedSubtree subtree)))

/-- An index of the view table has something behind the name, or ends before the end of the name. -/
def SetVar.Covered (var : SetVar) : Prop :=
  var.column.table = .view → ∀ viewNameL rest, var.index = viewNameL :: rest →
    rest.length ≠ viewNameL

section IndexFor

variable {var : SetVar}

theorem order_eq_namePart {chars : Oid} {name : VacmString}
    (small : ¬ chars.any (255 < ·) = true)
    (copied : vacmString (.ofBuffer (chars.map UInt8.ofNat)) = some name) :
    name.order = namePart chars := by
  have small' : ∀ subid ∈ chars, subid ≤ 255 := by simpa using small
  have values := str_eq_ofBuffer_iff.mp (vacmString_eq_some_iff.mp copied)
  rw [byteValues_map_ofNat small'] at values
  rw [VacmString.order_eq_subids, VacmString.subids, namePart, ← values]
  simp [byteValues, CString.strlen]

theorem SetVar.isFor_of_groupKey {k : Int ×ₗ List Nat} (table : var.column.table = .group)
    (isKey : groupKey var.index = some k) : var.IsFor (.group k) := by
  rcases Option.bind_eq_some_iff.mp isKey with ⟨⟨model, newName, nameLen⟩, parsed, named⟩
  rcases Option.map_eq_some_iff.mp named with ⟨secname, copied, rfl⟩
  rcases index_eq : var.index with _ | ⟨model', _ | ⟨nameL, chars⟩⟩
  · simp [index_eq, sec2groupParseOid] at parsed
  · simp [index_eq, sec2groupParseOid] at parsed
  · simp only [index_eq, sec2groupParseOid] at parsed
    (repeat' split at parsed) <;> try exact (Option.some_ne_none _ parsed.symm).elim
    rename_i whole small
    simp only [Option.some.injEq, Prod.mk.injEq] at parsed
    rcases parsed with ⟨rfl, rfl, rfl⟩
    rw [order_eq_namePart small copied]
    exact .group table (by rw [index_eq, not_not.mp whole])

theorem SetVar.isFor_of_accessKey {k : List Nat ×ₗ List Nat ×ₗ Int ×ₗ Int}
    (table : var.column.table = .access) (isKey : accessKey var.index = some k) :
    var.IsFor (.access k) := by
  rcases Option.bind_eq_some_iff.mp isKey with
    ⟨⟨⟨newGroupName, groupLen⟩, ⟨newContextPrefix, contextLen⟩, model, level⟩, parsed, named⟩
  rcases Option.bind_eq_some_iff.mp named with ⟨group, groupCopied, named'⟩
  rcases Option.map_eq_some_iff.mp named' with ⟨context, contextCopied, rfl⟩
  cases index_eq : var.index with
  | nil => simp [index_eq, accessParseOid] at parsed
  | cons groupNameL rest =>
      simp only [index_eq, accessParseOid] at parsed
      split at parsed
      · exact absurd parsed (by simp)
      · rename_i long
        cases rest_eq : rest.drop groupNameL with
        | nil => simp [rest_eq] at parsed
        | cons contextPrefixL rest' =>
            simp only [rest_eq] at parsed
            (repeat' split at parsed) <;> try exact (Option.some_ne_none _ parsed.symm).elim
            rename_i whole small small' _ model' level' behind
            simp only [Option.some.injEq, Prod.mk.injEq] at parsed
            rcases parsed with ⟨⟨rfl, rfl⟩, ⟨rfl, rfl⟩, rfl, rfl⟩
            rw [order_eq_namePart small groupCopied, order_eq_namePart small' contextCopied]
            refine .access table ?_
            rw [List.length_take_of_le (by omega), List.length_take_of_le (by omega), ← behind,
              List.take_append_drop, ← rest_eq, List.take_append_drop, index_eq]

theorem SetVar.isFor_of_viewKey {k : List Nat ×ₗ Oid} (table : var.column.table = .view)
    (covered : var.Covered) (isKey : viewKey var.index = some k) : var.IsFor (.view k) := by
  rcases Option.bind_eq_some_iff.mp isKey with
    ⟨⟨⟨newViewName, nameLen⟩, newViewSubtree⟩, parsed, named⟩
  rcases Option.map_eq_some_iff.mp named with ⟨view, copied, rfl⟩
  cases index_eq : var.index with
  | nil => simp [index_eq, viewParseOid] at parsed
  | cons viewNameL rest =>
      simp only [index_eq, viewParseOid] at parsed
      (repeat' split at parsed) <;> try exact (Option.some_ne_none _ parsed.symm).elim
      rename_i long small
      simp only [Option.some.injEq, Prod.mk.injEq] at parsed
      rcases parsed with ⟨⟨rfl, rfl⟩, rfl⟩
      have longer := covered table viewNameL rest index_eq
      rw [order_eq_namePart small copied]
      cases behind : rest.drop viewNameL with
      | nil =>
          rw [List.drop_eq_nil_iff] at behind
          omega
      | cons len subtree =>
          rw [List.drop_one, List.tail_cons]
          have index : var.index = (rest.take viewNameL).length ::
              (rest.take viewNameL ++ len :: subtree) := by
            rw [List.length_take_of_le (by omega), ← behind, List.take_append_drop, index_eq]
          exact .view table index

theorem SetVar.isFor_of_key (covered : var.Covered) {k : RowKey} (isKey : var.key = some k) :
    var.IsFor k := by
  rw [SetVar.key] at isKey
  cases table : var.column.table with
  | group =>
      simp only [table] at isKey
      rcases Option.map_eq_some_iff.mp isKey with ⟨k', isKey', rfl⟩
      exact isFor_of_groupKey table isKey'
  | access =>
      simp only [table] at isKey
      rcases Option.map_eq_some_iff.mp isKey with ⟨k', isKey', rfl⟩
      exact isFor_of_accessKey table isKey'
  | view =>
      simp only [table] at isKey
      rcases Option.map_eq_some_iff.mp isKey with ⟨k', isKey', rfl⟩
      exact isFor_of_viewKey table covered isKey'

theorem namePart_chars (name : VacmString) : namePart (byteValues name.str.chars) = name.order := by
  rw [namePart, upToZero_chars, VacmString.order_eq_subids, VacmString.subids]
  simp [byteValues, CString.strlen]

theorem subids_eq_iff {name : VacmString} {chars rest rest' : Oid} :
    chars.length :: (chars ++ rest) = name.subids ++ rest' ↔
      chars = byteValues name.str.chars ∧ rest = rest' := by
  simp only [VacmString.subids, List.cons_append, List.cons.injEq]
  constructor
  · rintro ⟨length_eq, same⟩
    exact List.append_inj same (by simpa [byteValues, CString.strlen] using length_eq)
  · rintro ⟨rfl, rfl⟩
    simp [byteValues, CString.strlen]

theorem SetVar.isFor_groupOid_iff {gp : VacmGroupEntry} (subid : IsSubid gp.securityModel)
    (table : var.column.table = .group) (index : var.index = groupOid gp) (k : RowKey) :
    var.IsFor k ↔ k = .group (groupIndex gp) := by
  have named {chars : Oid} : chars.length :: chars = gp.securityName.subids ↔
      chars = byteValues gp.securityName.str.chars := by
    simpa using @subids_eq_iff gp.securityName chars [] []
  constructor
  · rintro (@⟨model, chars, -, index'⟩ | ⟨table', -⟩ | ⟨table', -⟩)
    · rw [index, groupOid, List.cons.injEq, eq_comm (a := gp.securityName.subids), named] at index'
      rcases index' with ⟨rfl, rfl⟩
      rw [subid.toCInt_eq, namePart_chars, groupIndex]
    all_goals
      rw [table] at table'
      exact absurd table' (by simp)
  · rintro rfl
    rw [groupIndex, ← namePart_chars, ← subid.toCInt_eq]
    exact .group table (by rw [index, groupOid, ← named.mpr rfl])

theorem SetVar.isFor_accessOid_iff {ap : VacmAccessEntry}
    (inRange : IsSubid ap.securityModel ∧ IsSubid ap.securityLevel)
    (table : var.column.table = .access) (index : var.index = accessOid ap) (k : RowKey) :
    var.IsFor k ↔ k = .access (accessIndex ap) := by
  constructor
  · rintro (⟨table', -⟩ | @⟨group, context, model, level, -, index'⟩ | ⟨table', -⟩)
    · rw [table] at table'
      exact absurd table' (by simp)
    · rw [index, accessOid, eq_comm, subids_eq_iff, subids_eq_iff] at index'
      rcases index' with ⟨rfl, rfl, tail_eq⟩
      simp only [List.cons.injEq, and_true] at tail_eq
      rcases tail_eq with ⟨rfl, rfl⟩
      rw [inRange.1.toCInt_eq, inRange.2.toCInt_eq, namePart_chars, namePart_chars, accessIndex]
    · rw [table] at table'
      exact absurd table' (by simp)
  · rintro rfl
    rw [accessIndex, ← namePart_chars, ← namePart_chars, ← inRange.1.toCInt_eq,
      ← inRange.2.toCInt_eq]
    refine .access table ?_
    rw [index, accessOid, eq_comm, subids_eq_iff, subids_eq_iff]
    exact ⟨rfl, rfl, rfl⟩

theorem SetVar.isFor_viewOid_iff {vp : VacmViewEntry} (table : var.column.table = .view)
    (index : var.index = viewOid vp) (k : RowKey) :
    var.IsFor k ↔ k = .view (viewIndex vp) := by
  constructor
  · rintro (⟨table', -⟩ | ⟨table', -⟩ | @⟨chars, subtree, len, -, index'⟩)
    · rw [table] at table'
      exact absurd table' (by simp)
    · rw [table] at table'
      exact absurd table' (by simp)
    · rw [index, viewOid, eq_comm, subids_eq_iff, storedSubtree, List.cons.injEq] at index'
      rcases index' with ⟨rfl, rfl, rfl⟩
      rw [namePart_chars, viewIndex]
  · rintro rfl
    rw [viewIndex, ← namePart_chars]
    refine @SetVar.IsFor.view var _ _ vp.viewSubtree.length table ?_
    rw [index, viewOid, eq_comm, subids_eq_iff]
    exact ⟨rfl, rfl⟩

end IndexFor

namespace VacmState

/-- The lists are in order, with one row for an index, and each access row has one of the two kinds
of context match. -/
structure Orderly (s : VacmState) : Prop where
  groups : Increasing groupIndex s.groupList
  accesses : Increasing accessIndex s.accessList
  views : Increasing viewIndex s.viewList
  contexts : ∀ ap ∈ s.accessList,
    ap.contextMatch = contextMatchExact ∨ ap.contextMatch = contextMatchPrefix

/-- The lists are still in order. Only rows of the keys in `touched` change, and only those of keys
in `resized` come or go. -/
structure Changes (touched resized : RowKey → Prop) (s s' : VacmState) : Prop where
  groups : RowsChange groupIndex (fun k => touched (.group k)) (fun k => resized (.group k))
    s.groupList s'.groupList
  accesses : RowsChange accessIndex (fun k => touched (.access k)) (fun k => resized (.access k))
    s.accessList s'.accessList
  views : RowsChange viewIndex (fun k => touched (.view k)) (fun k => resized (.view k))
    s.viewList s'.viewList
  contexts : ∀ ap ∈ s'.accessList,
    ap.contextMatch = contextMatchExact ∨ ap.contextMatch = contextMatchPrefix

namespace Changes

variable {touched resized touched' resized' : RowKey → Prop} {s s' s'' : VacmState}

theorem orderly (changes : Changes touched resized s s') : s'.Orderly :=
  ⟨changes.groups.increasing, changes.accesses.increasing, changes.views.increasing,
    changes.contexts⟩

theorem refl (orderly : s.Orderly) : Changes touched resized s s :=
  ⟨.refl orderly.groups, .refl orderly.accesses, .refl orderly.views, orderly.contexts⟩

theorem trans (first : Changes touched resized s s') (second : Changes touched resized s' s'') :
    Changes touched resized s s'' :=
  ⟨first.groups.trans second.groups, first.accesses.trans second.accesses,
    first.views.trans second.views, second.contexts⟩

theorem mono (changes : Changes touched resized s s') (more : ∀ k, touched k → touched' k)
    (moreResized : ∀ k, resized k → resized' k) : Changes touched' resized' s s' :=
  ⟨changes.groups.mono (fun _ => more _) fun _ => moreResized _,
    changes.accesses.mono (fun _ => more _) fun _ => moreResized _,
    changes.views.mono (fun _ => more _) fun _ => moreResized _, changes.contexts⟩

end Changes

abbrev KeyChanges (s : VacmState) (key : Option RowKey) (s' : VacmState) : Prop :=
  Changes (fun k => key.map RowKey.name = some k.name) (fun k => key = some k) s s'

end VacmState

section Lookups

variable {s : VacmState} {index : Oid}

theorem sec2groupParseGroupEntry_spec {groupList : List VacmGroupEntry} {gp : VacmGroupEntry}
    (found : sec2groupParseGroupEntry groupList index = some gp) :
    gp ∈ groupList ∧ ∃ k, groupKey index = some k ∧ (ofLex (groupIndex gp)).2 = (ofLex k).2 := by
  rcases Option.bind_eq_some_iff.mp found with ⟨⟨model, newName, nameLen⟩, parsed, looked⟩
  simp only [vacmGetGroupEntry] at looked
  cases copied : vacmString newName with
  | none => simp [copied] at looked
  | some secname =>
      simp only [copied] at looked
      have matched := groupMatches_iff.mp (List.find?_some looked)
      refine ⟨List.mem_of_find?_eq_some looked, toLex (model, secname.order), ?_, ?_⟩
      · simp [groupKey, parsed, copied]
      · exact congrArg VacmString.order matched.2

theorem rowWith_groupIndex_eq_none {groupList : List VacmGroupEntry} {k : Int ×ₗ List Nat}
    (absent : sec2groupParseGroupEntry groupList index = none) (isKey : groupKey index = some k) :
    rowWith groupIndex groupList k = none := by
  rcases Option.bind_eq_some_iff.mp isKey with ⟨⟨model, newName, nameLen⟩, parsed, isKey'⟩
  rcases Option.map_eq_some_iff.mp isKey' with ⟨secname, copied, rfl⟩
  simp only [sec2groupParseGroupEntry, parsed, Option.bind_some, vacmGetGroupEntry, copied,
    List.find?_eq_none, groupMatches_iff] at absent
  apply rowWith_eq_none_iff.mpr
  intro gp mem same
  simp only [groupIndex, toLex_inj, Prod.mk.injEq, VacmString.order_inj] at same
  exact absent gp mem ⟨.inl same.1, same.2⟩

theorem accessParseAccessEntry_spec {accessList : List VacmAccessEntry} {ap : VacmAccessEntry}
    (found : accessParseAccessEntry accessList index = some ap) :
    ap ∈ accessList ∧ ∃ k, accessKey index = some k ∧
      (ofLex (accessIndex ap)).1 = (ofLex k).1 := by
  rcases Option.bind_eq_some_iff.mp found with
    ⟨⟨⟨newGroupName, groupNameLen⟩, ⟨newContextPrefix, contextPrefixLen⟩, model, level⟩, parsed,
      looked⟩
  simp only [vacmGetAccessEntry] at looked
  split at looked
  · rename_i group context groupCopied contextCopied
    rw [getAccessLoop_eq] at looked
    cases rows : accessList.filter (accessMatches group context model level) with
    | nil => simp [rows] at looked
    | cons first rest =>
        rw [rows] at looked
        rcases foldl_keepBest_mem replacesCurrent first rest with ⟨best, mem, best_eq⟩
        have same : best = ap := Option.some.inj (best_eq.symm.trans looked)
        rw [same, ← rows, List.mem_filter, accessMatches_iff] at mem
        refine ⟨mem.1, toLex (group.order, toLex (context.order, toLex (model, level))), ?_, ?_⟩
        · simp [accessKey, parsed, groupCopied, contextCopied]
        · exact congrArg VacmString.order (VacmString.str_inj.mp mem.2.groupName)
  · simp at looked

theorem rowWith_accessIndex_eq_none {k : List Nat ×ₗ List Nat ×ₗ Int ×ₗ Int} (orderly : s.Orderly)
    (absent : accessParseAccessEntry s.accessList index = none)
    (isKey : accessKey index = some k) : rowWith accessIndex s.accessList k = none := by
  rcases Option.bind_eq_some_iff.mp isKey with
    ⟨⟨⟨newGroupName, groupNameLen⟩, ⟨newContextPrefix, contextPrefixLen⟩, model, level⟩, parsed,
      isKey'⟩
  rcases Option.bind_eq_some_iff.mp isKey' with ⟨group, groupCopied, isKey''⟩
  rcases Option.map_eq_some_iff.mp isKey'' with ⟨context, contextCopied, rfl⟩
  apply rowWith_eq_none_iff.mpr
  intro ap mem same
  simp only [accessIndex, toLex_inj, Prod.mk.injEq, VacmString.order_inj] at same
  rcases same with ⟨group_eq, context_eq, model_eq, level_eq⟩
  have matched : accessMatches group context model level ap = true := by
    rw [accessMatches_iff, ← group_eq, ← context_eq, ← model_eq, ← level_eq]
    exact accessMatches_self (orderly.contexts ap mem)
  simp only [accessParseAccessEntry, parsed, Option.bind_some, vacmGetAccessEntry, groupCopied,
    contextCopied, getAccessLoop_eq] at absent
  cases rows : s.accessList.filter (accessMatches group context model level) with
  | nil =>
      have inRows := List.mem_filter.mpr ⟨mem, matched⟩
      rw [rows] at inRows
      exact absurd inRows List.not_mem_nil
  | cons first rest =>
      rw [rows] at absent
      rcases foldl_keepBest_mem replacesCurrent first rest with ⟨best, -, best_eq⟩
      exact absurd (best_eq.symm.trans absent) (by simp)

theorem netsnmpViewGet_spec {viewList : List VacmViewEntry} {viewName : CString} {subtree : Oid}
    {vp : VacmViewEntry} (found : netsnmpViewGet viewList viewName subtree .ignoreMask = some vp) :
    vp ∈ viewList ∧ vacmString viewName = some vp.viewName := by
  cases copied : vacmString viewName with
  | none => simp [netsnmpViewGet, copied] at found
  | some view =>
      rw [← vacmString_eq_some_iff.mp copied] at found
      have best := isBest_netsnmpViewGet (by decide : VacmMode.ignoreMask ≠ .checkSubtree)
        viewList view subtree
      rw [found] at best
      have matched := List.mem_filter.mp best.1
      rw [(viewMatches_ignoreMask_iff.mp matched.2).1]
      exact ⟨matched.1, rfl⟩

theorem viewParseViewEntry_spec {viewList : List VacmViewEntry} {vp : VacmViewEntry}
    (found : viewParseViewEntry viewList index = some (some vp)) :
    vp ∈ viewList ∧ ∃ k, viewKey index = some k ∧ (ofLex (viewIndex vp)).1 = (ofLex k).1 := by
  simp only [viewParseViewEntry] at found
  cases parsed : viewParseOid index with
  | none => simp [parsed] at found
  | some name =>
      rcases name with ⟨⟨viewName, viewNameLen⟩, newViewSubtree⟩
      simp only [parsed] at found
      have looked : ∃ subtree, netsnmpViewGet viewList viewName subtree .ignoreMask = some vp := by
        cases newViewSubtree with
        | nil =>
            simp only [getParsedViewEntry] at found
            split at found
            · simp at found
            · exact ⟨[], Option.some.inj found⟩
        | cons len subtree => exact ⟨subtree, Option.some.inj found⟩
      rcases looked with ⟨subtree, looked⟩
      rcases netsnmpViewGet_spec looked with ⟨mem, copied⟩
      refine ⟨mem, toLex (vp.viewName.order, storedSubtree (newViewSubtree.drop 1)), ?_, rfl⟩
      simp [viewKey, parsed, copied]

/-- Of a row the view table's `RESERVE1` takes no notice unless its subtree is the one of the
index. -/
def reservedView (index : Oid) (vptr : Option VacmViewEntry) : Option VacmViewEntry :=
  (viewParseOid index).bind fun (_, newViewSubtree) =>
    vptr.filter fun vp => newViewSubtree.drop 1 = vp.viewSubtree ∧ newViewSubtree ≠ []

theorem rowWith_viewIndex_eq_none {viewList : List VacmViewEntry} {vptr : Option VacmViewEntry}
    {viewName : CString} {viewNameLen len : Nat} {subtree : Oid} {view : VacmString}
    (looked : viewParseViewEntry viewList index = some vptr) (absent : reservedView index vptr = none)
    (parsed : viewParseOid index = some ((viewName, viewNameLen), len :: subtree))
    (copied : vacmString viewName = some view) :
    rowWith viewIndex viewList (toLex (view.order, storedSubtree subtree)) = none := by
  apply rowWith_eq_none_iff.mpr
  intro vp mem same
  simp only [viewIndex, storedSubtree, toLex_inj, Prod.mk.injEq, VacmString.order_inj,
    List.cons.injEq] at same
  rcases same with ⟨view_eq, -, subtree_eq⟩
  simp only [viewParseViewEntry, parsed, getParsedViewEntry, Option.some.injEq,
    ← vacmString_eq_some_iff.mp copied] at looked
  have best := isBest_netsnmpViewGet (by decide : VacmMode.ignoreMask ≠ .checkSubtree) viewList
    view subtree
  rw [looked] at best
  have matched : vp ∈ viewList.filter (viewMatches view subtree .ignoreMask) := by
    apply List.mem_filter.mpr
    exact ⟨mem, viewMatches_ignoreMask_iff.mpr ⟨view_eq, subtree_eq ▸ List.prefix_rfl⟩⟩
  cases vptr with
  | none =>
      rw [show viewList.filter (viewMatches view subtree .ignoreMask) = [] from best] at matched
      exact absurd matched List.not_mem_nil
  | some longest =>
      -- the longest entry is as long as the subtree, and so the same one
      have isPrefix := (viewMatches_ignoreMask_iff.mp (List.mem_filter.mp best.1).2).2
      have long : vp.viewSubtree.length ≤ longest.viewSubtree.length := by
        rcases Prod.Lex.toLex_le_toLex.mp (best.2 vp matched) with shorter | ⟨same, -⟩
        · exact le_of_lt shorter
        · exact le_of_eq same
      rw [subtree_eq] at long
      have same := isPrefix.eq_of_length_le long
      simp [reservedView, parsed, same] at absent

end Lookups

/-- What is assigned has the index of the row that was found; a row is created where there was none,
and one is destroyed where one was found. -/
def Written.Suits {α : Type} (same : α → α → Prop) (row : Option α) (creates : Prop)
    (written : Written α) : Prop :=
  match written.change with
  | .keep => True
  | .assign row' => ∃ found, row = some found ∧ same found row'
  | .create => creates
  | .destroy => row ≠ none

/-- The same index, and one of the kinds of context match if the row had one. -/
def SameAccess (found row' : VacmAccessEntry) : Prop :=
  accessIndex row' = accessIndex found ∧
    ((found.contextMatch = contextMatchExact ∨ found.contextMatch = contextMatchPrefix) →
      row'.contextMatch = contextMatchExact ∨ row'.contextMatch = contextMatchPrefix)

section Apply

variable {s : VacmState} {index : Oid}

theorem applyGroup_changes {row : Option VacmGroupEntry} {written : Written VacmGroupEntry}
    (orderly : s.Orderly) (looked : sec2groupParseGroupEntry s.groupList index = row)
    (suits : written.Suits (fun gp gp' => groupIndex gp' = groupIndex gp) row
      (row = none ∧ sec2groupParseOid index ≠ none)) :
    s.KeyChanges ((groupKey index).map .group) (s.applyGroup index row written).2 := by
  have unchanged :
      s.KeyChanges ((groupKey index).map .group) { s with statics := written.statics } :=
    ⟨.refl orderly.groups, .refl orderly.accesses, .refl orderly.views, orderly.contexts⟩
  rcases written with ⟨err, change, statics⟩
  cases change with
  | keep => exact unchanged
  | assign gp' =>
      rcases suits with ⟨gp, rfl, same⟩
      rcases sec2groupParseGroupEntry_spec looked with ⟨mem, k, isKey, name_eq⟩
      refine { unchanged with groups := ?_ }
      have here := orderly.groups.rowWith_eq_some_iff.mpr ⟨mem, rfl⟩
      refine .of_changedAt (.assignRow orderly.groups here same) ?_ (.inr ?_)
      · simp [isKey, RowKey.name, name_eq]
      · simp [here]
  | create =>
      rcases suits with ⟨rfl, parsed⟩
      rcases Option.ne_none_iff_exists'.mp parsed with ⟨⟨model, newName, nameLen⟩, parsed_eq⟩
      simp only [VacmState.applyGroup, parsed_eq, vacmCreateGroupEntry]
      cases copied : vacmString newName with
      | none => exact unchanged
      | some secname =>
          have isKey : groupKey index = some (toLex (model, secname.order)) := by
            simp [groupKey, parsed_eq, copied]
          refine { unchanged with groups := ?_ }
          refine .of_changedAt (.assignRow_insertBefore orderly.groups
            (fun other _ => groupBehind_iff _ other) (rowWith_groupIndex_eq_none looked isKey)
            rfl rfl) ?_ (.inl ?_)
          · simp [isKey]
          · simp [isKey]
  | destroy =>
      rcases Option.ne_none_iff_exists'.mp suits with ⟨gp, rfl⟩
      rcases sec2groupParseGroupEntry_spec looked with ⟨-, k, isKey, -⟩
      rcases Option.bind_eq_some_iff.mp isKey with ⟨⟨model, newName, nameLen⟩, parsed_eq, isKey'⟩
      rcases Option.map_eq_some_iff.mp isKey' with ⟨secname, copied, rfl⟩
      have erased : ChangedAt groupIndex s.groupList
          (vacmDestroyGroupEntry s.groupList model newName) (toLex (model, secname.order)) none := by
        apply ChangedAt.eraseP orderly.groups
        intro vp _
        rw [← vacmString_eq_some_iff.mp copied, Bool.and_eq_true, decide_eq_true_iff,
          decide_eq_true_iff, strcmp_eq_zero_iff, VacmString.str_inj, groupIndex, toLex_inj,
          Prod.mk.injEq, VacmString.order_inj]
      simp only [VacmState.applyGroup, parsed_eq]
      refine { unchanged with groups := ?_ }
      exact .of_changedAt erased (by simp [isKey]) (.inl (by simp [isKey]))

theorem contexts_of_create {element row' : VacmAccessEntry} (orderly : s.Orderly)
    (absent : rowWith accessIndex s.accessList (accessIndex element) = none)
    (same : accessIndex row' = accessIndex element)
    (context : row'.contextMatch = contextMatchExact ∨ row'.contextMatch = contextMatchPrefix) :
    ∀ ap ∈ assignRow element row' (insertBefore (accessBehind element) element s.accessList),
      ap.contextMatch = contextMatchExact ∨ ap.contextMatch = contextMatchPrefix := by
  intro ap mem
  have inserted := ChangedAt.insertBefore orderly.accesses
    (fun other _ => accessBehind_iff element other) absent
  have new : element ∈ insertBefore (accessBehind element) element s.accessList :=
    mem_insertBefore.mpr (.inl rfl)
  rcases (inserted.increasing.mem_assignRow new same).mp mem with ⟨old, ne⟩ | rfl
  · rcases mem_insertBefore.mp old with rfl | old
    · exact absurd rfl ne
    · exact orderly.contexts ap old
  · exact context

theorem applyAccess_changes {row : Option VacmAccessEntry} {written : Written VacmAccessEntry}
    (orderly : s.Orderly) (looked : accessParseAccessEntry s.accessList index = row)
    (suits : written.Suits SameAccess row (row = none ∧ accessParseOid index ≠ none)) :
    s.KeyChanges ((accessKey index).map .access) (s.applyAccess index row written).2 := by
  have unchanged :
      s.KeyChanges ((accessKey index).map .access) { s with statics := written.statics } :=
    ⟨.refl orderly.groups, .refl orderly.accesses, .refl orderly.views, orderly.contexts⟩
  rcases written with ⟨err, change, statics⟩
  cases change with
  | keep => exact unchanged
  | assign ap' =>
      rcases suits with ⟨ap, rfl, same, context⟩
      rcases accessParseAccessEntry_spec looked with ⟨mem, k, isKey, name_eq⟩
      have here := orderly.accesses.rowWith_eq_some_iff.mpr ⟨mem, rfl⟩
      refine { unchanged with accesses := ?_, contexts := ?_ }
      · refine .of_changedAt (.assignRow orderly.accesses here same) ?_ (.inr ?_)
        · simp [isKey, RowKey.name, name_eq]
        · simp [here]
      · intro other mem'
        rcases (orderly.accesses.mem_assignRow mem same).mp mem' with ⟨old, -⟩ | rfl
        · exact orderly.contexts other old
        · exact context (orderly.contexts ap mem)
  | create =>
      rcases suits with ⟨rfl, parsed⟩
      rcases Option.ne_none_iff_exists'.mp parsed with
        ⟨⟨⟨newGroupName, groupNameLen⟩, ⟨newContextPrefix, contextPrefixLen⟩, model, level⟩,
          parsed_eq⟩
      simp only [VacmState.applyAccess, parsed_eq, vacmCreateAccessEntry]
      cases groupCopied : vacmString newGroupName with
      | none => exact unchanged
      | some group =>
          cases contextCopied : vacmString newContextPrefix with
          | none => exact unchanged
          | some context =>
              have isKey : accessKey index =
                  some (toLex (group.order, toLex (context.order, toLex (model, level)))) := by
                simp [accessKey, parsed_eq, groupCopied, contextCopied]
              have absent := rowWith_accessIndex_eq_none orderly looked isKey
              refine { unchanged with accesses := ?_, contexts := ?_ }
              · refine .of_changedAt (.assignRow_insertBefore orderly.accesses
                  (fun other _ => accessBehind_iff _ other) absent rfl rfl) ?_ (.inl ?_)
                · simp [isKey]
                · simp [isKey]
              · exact contexts_of_create orderly absent rfl (.inl rfl)
  | destroy =>
      rcases Option.ne_none_iff_exists'.mp suits with ⟨ap, rfl⟩
      rcases accessParseAccessEntry_spec looked with ⟨-, k, isKey, -⟩
      rcases Option.bind_eq_some_iff.mp isKey with
        ⟨⟨⟨newGroupName, groupNameLen⟩, ⟨newContextPrefix, contextPrefixLen⟩, model, level⟩,
          parsed_eq, isKey'⟩
      rcases Option.bind_eq_some_iff.mp isKey' with ⟨group, groupCopied, isKey''⟩
      rcases Option.map_eq_some_iff.mp isKey'' with ⟨context, contextCopied, rfl⟩
      have erased : ChangedAt accessIndex s.accessList
          (vacmDestroyAccessEntry s.accessList newGroupName newContextPrefix model level)
          (toLex (group.order, toLex (context.order, toLex (model, level)))) none := by
        apply ChangedAt.eraseP orderly.accesses
        intro vp _
        simp only [← vacmString_eq_some_iff.mp groupCopied,
          ← vacmString_eq_some_iff.mp contextCopied, Bool.and_eq_true, decide_eq_true_eq,
          strcmp_eq_zero_iff, VacmString.str_inj, accessIndex, toLex_inj, Prod.mk.injEq,
          VacmString.order_inj]
        constructor
        · rintro ⟨⟨⟨model_eq, level_eq⟩, group_eq⟩, context_eq⟩
          exact ⟨group_eq, context_eq, model_eq, level_eq⟩
        · rintro ⟨group_eq, context_eq, model_eq, level_eq⟩
          exact ⟨⟨⟨model_eq, level_eq⟩, group_eq⟩, context_eq⟩
      simp only [VacmState.applyAccess, parsed_eq]
      refine { unchanged with accesses := ?_, contexts := ?_ }
      · exact .of_changedAt erased (by simp [isKey]) (.inl (by simp [isKey]))
      · intro other mem'
        exact orderly.contexts other (List.mem_of_mem_eraseP mem')

theorem applyView_changes {vptr : Option VacmViewEntry} {written : Written VacmViewEntry}
    (orderly : s.Orderly) (looked : viewParseViewEntry s.viewList index = some vptr)
    (suits : written.Suits (fun vp vp' => viewIndex vp' = viewIndex vp) vptr
      (reservedView index vptr = none ∧ viewParseOid index ≠ none)) :
    s.KeyChanges ((viewKey index).map .view) (s.applyView index vptr written).2 := by
  have unchanged : s.KeyChanges ((viewKey index).map .view) { s with statics := written.statics } :=
    ⟨.refl orderly.groups, .refl orderly.accesses, .refl orderly.views, orderly.contexts⟩
  rcases written with ⟨err, change, statics⟩
  cases change with
  | keep => exact unchanged
  | assign vp' =>
      rcases suits with ⟨vp, rfl, same⟩
      rcases viewParseViewEntry_spec looked with ⟨mem, k, isKey, name_eq⟩
      refine { unchanged with views := ?_ }
      have here := orderly.views.rowWith_eq_some_iff.mpr ⟨mem, rfl⟩
      refine .of_changedAt (.assignRow orderly.views here same) ?_ (.inr ?_)
      · simp [isKey, RowKey.name, name_eq]
      · simp [here]
  | create =>
      rcases suits with ⟨absent, parsed⟩
      rcases Option.ne_none_iff_exists'.mp parsed with
        ⟨⟨⟨newViewName, viewNameLen⟩, newViewSubtree⟩, parsed_eq⟩
      simp only [VacmState.applyView, parsed_eq]
      cases newViewSubtree with
      | nil => exact unchanged
      | cons len subtree =>
          simp only [netsnmpViewCreate]
          cases copied : vacmString newViewName with
          | none => exact unchanged
          | some view =>
              by_cases long : maxOidLen < subtree.length
              · simp only [long, if_true]
                exact unchanged
              · have isKey : viewKey index = some (toLex (view.order, storedSubtree subtree)) := by
                  simp [viewKey, parsed_eq, copied]
                simp only [long, if_false, insertView_eq]
                refine { unchanged with views := ?_ }
                refine .of_changedAt (.assignRow_insertBefore orderly.views
                  (fun other _ => decide_eq_true_iff)
                  (rowWith_viewIndex_eq_none looked absent parsed_eq copied) rfl rfl) ?_ (.inl ?_)
                · simp [isKey]
                · simp [isKey]
  | destroy =>
      rcases Option.ne_none_iff_exists'.mp suits with ⟨vp, rfl⟩
      rcases viewParseViewEntry_spec looked with ⟨-, k, isKey, -⟩
      rcases Option.bind_eq_some_iff.mp isKey with
        ⟨⟨⟨newViewName, viewNameLen⟩, newViewSubtree⟩, parsed_eq, isKey'⟩
      rcases Option.map_eq_some_iff.mp isKey' with ⟨view, copied, rfl⟩
      simp only [VacmState.applyView, parsed_eq]
      refine { unchanged with views := ?_ }
      by_cases announced : storedSubtree (newViewSubtree.drop 1) = newViewSubtree
      · have erased : ChangedAt viewIndex s.viewList
            (vacmDestroyViewEntry s.viewList newViewName newViewSubtree)
            (toLex (view.order, storedSubtree (newViewSubtree.drop 1))) none := by
          apply ChangedAt.eraseP orderly.views
          intro vp _
          rw [announced, ← vacmString_eq_some_iff.mp copied, Bool.and_eq_true, decide_eq_true_iff,
            decide_eq_true_iff, strcmp_eq_zero_iff, VacmString.str_inj, viewIndex, toLex_inj,
            Prod.mk.injEq, VacmString.order_inj]
        exact .of_changedAt erased (by simp [isKey]) (.inl (by simp [isKey]))
      · -- no entry has a subtree with another length in front
        have nothing : vacmDestroyViewEntry s.viewList newViewName newViewSubtree = s.viewList := by
          apply List.eraseP_of_forall_not
          intro vp _ isRow
          rw [Bool.and_eq_true, decide_eq_true_iff, decide_eq_true_iff] at isRow
          apply announced
          rw [← isRow.2]
          rfl
        rw [nothing]
        exact .refl orderly.views

end Apply

end NetSnmp
