import NetSnmp.Vacm.GetNext
import NetSnmp.Vacm.ViewLookup

/-!
# Requests for a row of an access control table

The routines look a row up as access control does.  The condition under which
this finds the row with the requested index, and nothing if there is none.
-/

namespace NetSnmp

/-- `vacm_getGroupEntry` accepts the row for the requested index. -/
def GroupSelected : (index : Oid) → VacmGroupEntry → Prop
  | secmodel :: len :: groupSubtree, gp =>
      len = groupSubtree.length ∧
        (groupSubtree.length ≤ vacmMaxString + 1 ∧ ∀ subid ∈ groupSubtree, subid ≤ 255) ∧
        (gp.securityModel = toCInt secmodel ∨ gp.securityModel = snmpSecModelAny) ∧
        byteValues gp.securityName.str.chars = upToZero groupSubtree
  | _, _ => False

instance (index : Oid) (gp : VacmGroupEntry) : Decidable (GroupSelected index gp) :=
  match index with
  | [] => inferInstanceAs (Decidable False)
  | [_] => inferInstanceAs (Decidable False)
  | _ :: _ :: _ => inferInstanceAs (Decidable (_ ∧ _))

theorem str_eq_ofBuffer_iff {str : CString} {bytes : List Byte} :
    str = .ofBuffer bytes ↔ byteValues str.chars = upToZero (byteValues bytes) := by
  rw [← byteValues_takeWhile, byteValues_inj]
  constructor
  · rintro rfl
    rfl
  · intro same
    exact CString.ext same

theorem copySecname_zero_eq (subids : Oid) :
    copySecname 0 subids =
      if subids.length ≤ vacmMaxString + 1 ∧ ∀ subid ∈ subids, subid ≤ 255 then
        some (subids.map UInt8.ofNat) else none := by
  cases subids with
  | nil => simp [copySecname]
  | cons subid rest => rw [copySecname_eq, Nat.zero_add]

theorem sec2groupExact_eq (groupList : List VacmGroupEntry) (index : Oid) :
    sec2groupExact groupList index = groupList.find? fun gp => GroupSelected index gp := by
  have find_none (rejected : ∀ gp, ¬ GroupSelected index gp) :
      (groupList.find? fun gp => GroupSelected index gp) = none := by
    apply List.find?_eq_none.mpr
    intro gp _ accepted
    exact rejected gp (of_decide_eq_true accepted)
  match index with
  | [] | [_] => exact (find_none fun _ => id).symm
  | secmodel :: len :: groupSubtree =>
      simp only [sec2groupExact, copySecname_zero_eq]
      by_cases whole : len = groupSubtree.length
      · by_cases readable : groupSubtree.length ≤ vacmMaxString + 1 ∧
            ∀ subid ∈ groupSubtree, subid ≤ 255
        · simp only [whole, ne_eq, not_true_eq_false, if_false, if_pos readable,
            vacmGetGroupEntry_eq]
          apply List.find?_congr
          intro gp _
          rw [Bool.eq_iff_iff, decide_eq_true_iff, decide_eq_true_iff, str_eq_ofBuffer_iff,
            byteValues_map_ofNat readable.2]
          simp only [GroupSelected, true_and]
          exact ⟨fun accepted => ⟨readable, accepted⟩, And.right⟩
        · simp only [whole, ne_eq, not_true_eq_false, if_false, if_neg readable]
          rw [whole] at find_none
          exact (find_none fun _ selected => readable selected.2.1).symm
      · simp only [ne_eq, whole, not_false_eq_true, if_true]
        exact (find_none fun _ selected => whole selected.1).symm

theorem upToZero_chars (name : VacmString) :
    upToZero (byteValues name.str.chars) = byteValues name.str.chars :=
  upToZero_eq_self name.zero_notMem_chars

theorem le_of_mem_chars (name : VacmString) : ∀ subid ∈ byteValues name.str.chars, subid ≤ 255 := by
  intro subid mem
  rcases List.mem_map.mp mem with ⟨char, -, rfl⟩
  have := char.toNat_lt
  omega

theorem groupSelected_groupOid {gp : VacmGroupEntry} (subid : IsSubid gp.securityModel) :
    GroupSelected (groupOid gp) gp := by
  have short := gp.securityName.short
  have model_eq : toCInt gp.securityModel.toNat = gp.securityModel := by
    have nonneg := subid.1
    have small := subid.2
    rw [toCInt_eq_self (by omega)]
    omega
  refine ⟨by simp [byteValues, CString.strlen], ⟨?_, le_of_mem_chars _⟩, .inl model_eq.symm,
    (upToZero_chars _).symm⟩
  simp only [byteValues, List.length_map]
  exact le_trans short (Nat.le_succ _)

theorem GroupSelected.securityName_eq {index : Oid} {gp gp' : VacmGroupEntry}
    (selected : GroupSelected index gp) (selected' : GroupSelected index gp') :
    gp.securityName = gp'.securityName := by
  match index with
  | [] | [_] => exact absurd selected (by simp [GroupSelected])
  | secmodel :: len :: groupSubtree =>
      have same := selected.2.2.2.trans selected'.2.2.2.symm
      exact VacmString.str_inj.mp (CString.ext (byteValues_inj.mp same))

theorem GroupSelected.groupOid_eq_or_lt {gp gp' : VacmGroupEntry} (subid : IsSubid gp.securityModel)
    (selected : GroupSelected (groupOid gp) gp') :
    groupOid gp' = groupOid gp ∨ groupOid gp' < groupOid gp := by
  have name_eq := selected.securityName_eq (groupSelected_groupOid subid)
  rcases subid with ⟨nonneg, small⟩
  have models : gp'.securityModel = gp.securityModel ∨ gp'.securityModel = snmpSecModelAny := by
    have model_eq : toCInt gp.securityModel.toNat = gp.securityModel := by
      rw [toCInt_eq_self (by omega)]
      omega
    rw [← model_eq]
    exact selected.2.2.1
  rcases models with same | isAny
  · left
    rw [groupOid, groupOid, same, name_eq]
  · rcases eq_or_lt_of_le nonneg with zero | pos
    · left
      rw [groupOid, groupOid, isAny, ← zero, name_eq]
    · right
      rw [groupOid, groupOid, List.cons_lt_cons_iff, isAny]
      left
      show (0 : Int).toNat < _
      omega

theorem isExactly_prefixed {α : Type} {oid : α → Oid} {rows : List α} {vpName name : Oid}
    {answer : Option α} (isColumn : vpName <+: name) :
    IsExactly (fun row => vpName ++ oid row) rows name answer ↔
      IsExactly oid rows (requestedIndex vpName name) answer := by
  rcases isColumn with ⟨index, rfl⟩
  have index_eq : requestedIndex vpName (vpName ++ index) = index := by
    simp [requestedIndex, columnName]
  rw [index_eq]
  cases answer <;> simp [IsExactly]

theorem requestedIndex_of_otherColumn {vpName name : Oid} (other : ¬ vpName <+: name) :
    requestedIndex vpName name = [] := by
  simp [requestedIndex, columnName, other]

theorem isExactly_none_of_otherColumn {α : Type} {oid : α → Oid} {rows : List α} {vpName name : Oid}
    (other : ¬ vpName <+: name) : IsExactly (fun row => vpName ++ oid row) rows name none := by
  intro row _ same
  exact other ⟨oid row, same⟩

theorem isExactly_varVacmSec2group_iff {groupList : List VacmGroupEntry}
    (table : GroupTable groupList) (inRange : GroupsInRange groupList) (vpName name : Oid) :
    IsExactly (fun gp => vpName ++ groupOid gp) groupList name
        ((varVacmSec2group groupList vpName name true).map Prod.fst) ↔
      ∀ gp ∈ groupList, GroupSelected (requestedIndex vpName name) gp →
        groupOid gp = requestedIndex vpName name := by
  have answer_eq : (varVacmSec2group groupList vpName name true).map Prod.fst =
      groupList.find? fun gp => GroupSelected (requestedIndex vpName name) gp := by
    rw [← sec2groupExact_eq]
    simp [varVacmSec2group, requestedIndex, Function.comp_def]
  rw [answer_eq]
  by_cases isColumn : vpName <+: name
  · rw [isExactly_prefixed isColumn]
    generalize requestedIndex vpName name = index
    rw [isExactly_find?_iff]
    · constructor
      · intro only gp mem selected
        cases found : groupList.find? fun gp => GroupSelected index gp with
        | none =>
            exact absurd (decide_eq_true selected) (List.find?_eq_none.mp found gp mem)
        | some first =>
            rcases only first found with rfl
            have firstMem := List.mem_of_find?_eq_some found
            have first_le := (table.sorted_groupOid inRange).key_le_of_find? found gp mem
              (decide_eq_true selected)
            rcases selected.groupOid_eq_or_lt (inRange first firstMem) with
              same | lt
            · exact same
            · exact absurd lt (not_lt_of_ge first_le)
      · intro noOther gp found
        have accepted := List.find?_some found
        exact noOther gp (List.mem_of_find?_eq_some found) (of_decide_eq_true accepted)
    · rintro gp mem rfl
      exact decide_eq_true (groupSelected_groupOid (inRange gp mem))
  · rw [requestedIndex_of_otherColumn isColumn]
    rw [← sec2groupExact_eq]
    exact iff_of_true (isExactly_none_of_otherColumn isColumn) fun _ _ selected =>
      absurd selected id

/-- What `vacm_getAccessEntry` is asked for on an exact request, and the requested level. -/
def accessRequested (index : Oid) : Option (AccessRequest × Nat) := do
  let (groupName, op) ← takeString index
  let (contextPrefix, op) ← takeString op
  match op with
  | [secmodel, seclevel] =>
      some (⟨.ofBuffer groupName, .ofBuffer contextPrefix, toCInt secmodel, toCInt seclevel⟩,
        seclevel)
  | _ => none

theorem accessExact_eq (accessList : List VacmAccessEntry) (index : Oid) :
    accessExact accessList index = (accessRequested index).bind fun (request, seclevel) =>
      (vacmGetAccessEntry accessList request.groupName request.contextName request.securityModel
        request.securityLevel).bind fun gp =>
          if toSizeT gp.securityLevel ≠ seclevel then none else some gp := by
  simp only [accessExact, accessRequested]
  cases takeString index with
  | none => rfl
  | some group =>
      rcases group with ⟨groupName, op⟩
      simp only [bind, Option.bind_some]
      cases takeString op with
      | none => rfl
      | some context =>
          rcases context with ⟨contextPrefix, op'⟩
          rcases op' with _ | ⟨model, _ | ⟨level, _ | ⟨subid, rest⟩⟩⟩
          all_goals rfl

theorem map_ofNat_byteValues (bytes : List Byte) : (byteValues bytes).map UInt8.ofNat = bytes := by
  induction bytes with
  | nil => rfl
  | cons byte rest ih =>
      simp only [byteValues, List.map_cons, List.map_map] at ih ⊢
      rw [ih, UInt8.ofNat_toNat]

theorem takeString_subids (name : VacmString) (rest : Oid) :
    takeString (name.subids ++ rest) = some (name.str.chars, rest) := by
  have short := name.short
  have small : ((byteValues name.str.chars).any fun subid => 255 < subid) = false := by
    apply List.any_eq_false.mpr
    intro subid mem
    have := le_of_mem_chars name subid mem
    simpa using this
  simp only [VacmString.subids, List.cons_append, takeString, name.take_chars_append,
    name.drop_chars_append, small, map_ofNat_byteValues]
  rw [if_neg (not_lt_of_ge short), if_neg (by simp [name.length_chars]), if_neg (by simp)]

theorem IsSubid.toCInt_eq {value : Int} (subid : IsSubid value) : toCInt value.toNat = value := by
  have nonneg := subid.1
  have small := subid.2
  rw [toCInt_eq_self (by omega)]
  omega

theorem accessRequested_accessOid {gp : VacmAccessEntry}
    (inRange : IsSubid gp.securityModel ∧ IsSubid gp.securityLevel) :
    accessRequested (accessOid gp) =
      some (⟨gp.groupName.str, gp.contextPrefix.str, gp.securityModel, gp.securityLevel⟩,
        gp.securityLevel.toNat) := by
  simp only [accessRequested, accessOid, takeString_subids, bind, Option.bind_some,
    CString.ofBuffer_chars, inRange.1.toCInt_eq, inRange.2.toCInt_eq]

section Lookup

variable {request : AccessRequest} {accessList : List VacmAccessEntry}

theorem replacesCurrent_self (vp : VacmAccessEntry) : replacesCurrent vp vp = false := by
  apply Bool.eq_false_iff.mpr
  simp only [replacesCurrent, ne_eq, Bool.or_eq_true, Bool.and_eq_true, decide_eq_true_eq,
    lt_irrefl, and_false, or_false]
  rintro (⟨isAny, notAny⟩ | ⟨isPrefix, isExact⟩)
  · exact notAny isAny
  · rw [isPrefix] at isExact
    exact absurd isExact (by decide)

theorem not_replacesCurrent_iff {current candidate : VacmAccessEntry} :
    replacesCurrent current candidate = false ↔
      (current.securityModel = snmpSecModelAny → candidate.securityModel = snmpSecModelAny) ∧
      (current.contextMatch = contextMatchPrefix → candidate.contextMatch ≠ contextMatchExact ∧
        candidate.contextPrefix.str.strlen ≤ current.contextPrefix.str.strlen) ∧
      candidate.securityLevel ≤ current.securityLevel := by
  simp only [replacesCurrent, Bool.or_eq_false_iff, Bool.and_eq_false_iff, decide_eq_false_iff_not,
    ne_eq, not_not, not_lt, ← imp_iff_not_or, forall_and, and_assoc]

theorem contextMatch_set {gp : VacmAccessEntry} (matched : AccessMatches request gp) :
    gp.contextMatch = contextMatchExact ∨ gp.contextMatch = contextMatchPrefix :=
  matched.context.imp And.left And.left

theorem not_replacesCurrent_trans {first second third : VacmAccessEntry}
    (matched : AccessMatches request second) (kept : replacesCurrent first second = false)
    (kept' : replacesCurrent second third = false) : replacesCurrent first third = false := by
  rw [not_replacesCurrent_iff] at kept kept' ⊢
  rcases kept with ⟨model, context, level⟩
  rcases kept' with ⟨model', context', level'⟩
  refine ⟨fun isAny => model' (model isAny), fun isPrefix => ?_, le_trans level' level⟩
  rcases context isPrefix with ⟨notExact, length_le⟩
  rcases context' ((contextMatch_set matched).resolve_left notExact) with ⟨notExact', length_le'⟩
  exact ⟨notExact', le_trans length_le' length_le⟩

/-- The row matches as access control does, and is not given up for one of the matching rows behind
it. -/
def AccessKept (request : AccessRequest) (accessList : List VacmAccessEntry)
    (gp : VacmAccessEntry) : Prop :=
  ∃ front back, accessList = front ++ gp :: back ∧ AccessMatches request gp ∧
    ∀ other ∈ back, AccessMatches request other → replacesCurrent gp other = false

theorem accessKept_vacmGetAccessEntry (group context : VacmString)
    (groupName : group.str = request.groupName) (contextName : context.str = request.contextName) :
    match vacmGetAccessEntry accessList request.groupName request.contextName
        request.securityModel request.securityLevel with
    | none => ∀ gp, ¬ AccessKept request accessList gp
    | some found =>
        AccessKept request accessList found ∧
          ∀ gp, AccessKept request accessList gp → replacesCurrent found gp = false := by
  have matches_iff (vp : VacmAccessEntry) :
      accessMatches group context request.securityModel request.securityLevel vp = true ↔
        AccessMatches request vp := by
    rw [accessMatches_iff, groupName, contextName]
  have lastKept : IsLastKept (accessMatches group context request.securityModel
      request.securityLevel) replacesCurrent accessList _ :=
    isLastKept_foldl_keepBest replacesCurrent_self fun _ second _ _ matched _ =>
      not_replacesCurrent_trans ((matches_iff second).mp matched)
  have kept_iff (gp : VacmAccessEntry) :
      KeptIn (accessMatches group context request.securityModel request.securityLevel)
        replacesCurrent accessList gp ↔ AccessKept request accessList gp := by
    simp only [KeptIn, AccessKept, matches_iff]
  rw [← groupName, ← contextName]
  simp only [vacmGetAccessEntry, vacmString_eq_some_iff.mpr rfl, getAccessLoop_eq]
  generalize List.foldl _ _ _ = found at lastKept ⊢
  cases found with
  | none => exact fun gp kept => lastKept gp ((kept_iff gp).mpr kept)
  | some best =>
      exact ⟨(kept_iff best).mp lastKept.1,
        fun gp kept => lastKept.2 gp ((kept_iff gp).mpr kept)⟩

theorem AccessKept.matches {gp : VacmAccessEntry} (kept : AccessKept request accessList gp) :
    gp ∈ accessList ∧ AccessMatches request gp := by
  rcases kept with ⟨front, back, rfl, matched, -⟩
  exact ⟨by simp, matched⟩

theorem accessOid_eq_of_not_replacesCurrent {found gp : VacmAccessEntry}
    (matched : AccessMatches
      ⟨gp.groupName.str, gp.contextPrefix.str, gp.securityModel, gp.securityLevel⟩ found)
    (kept : replacesCurrent found gp = false) : accessOid found = accessOid gp := by
  rcases not_replacesCurrent_iff.mp kept with ⟨model, context, level⟩
  have model_eq : found.securityModel = gp.securityModel := by
    rcases matched.securityModel with same | isAny
    · exact same
    · rw [isAny, model isAny]
  have level_eq : found.securityLevel = gp.securityLevel := le_antisymm matched.securityLevel level
  have context_eq : found.contextPrefix = gp.contextPrefix := by
    rcases matched.context with ⟨-, same⟩ | ⟨isPrefix, prefixOf⟩
    · exact VacmString.str_inj.mp same
    · exact VacmString.str_inj.mp
        (CString.ext (prefixOf.eq_of_length_le (context isPrefix).2))
  rw [accessOid, accessOid, VacmString.str_inj.mp matched.groupName, model_eq, level_eq, context_eq]

theorem accessIndex_le_of_accessMatches {gp other : VacmAccessEntry}
    (nonneg : 0 ≤ gp.securityModel)
    (matched : AccessMatches
      ⟨gp.groupName.str, gp.contextPrefix.str, gp.securityModel, gp.securityLevel⟩ other) :
    accessIndex other ≤ accessIndex gp := by
  apply le_of_not_gt
  intro gt
  simp only [accessIndex, Prod.Lex.toLex_lt_toLex, VacmString.str_inj.mp matched.groupName,
    lt_irrefl, true_and, false_or] at gt
  have isPrefix : other.contextPrefix.str.chars <+: gp.contextPrefix.str.chars := by
    rcases matched.context with ⟨-, same⟩ | ⟨-, isPrefix⟩
    · have same' : other.contextPrefix.str = gp.contextPrefix.str := same
      exact same' ▸ List.prefix_rfl
    · exact isPrefix
  have length_le := isPrefix.length_le
  rcases gt with contextLt | ⟨-, modelLt | ⟨-, levelLt⟩⟩
  · simp only [VacmString.order_eq_subids, VacmString.subids, List.cons_lt_cons_iff,
      CString.strlen] at contextLt
    rcases contextLt with shorter | ⟨same, charsLt⟩
    · omega
    · rw [isPrefix.eq_of_length same.symm] at charsLt
      exact absurd charsLt (lt_irrefl _)
  · have model_le : other.securityModel ≤ gp.securityModel := by
      rcases matched.securityModel with same | isAny
      · exact le_of_eq same
      · rw [isAny]
        exact nonneg
    exact absurd modelLt (not_lt_of_ge model_le)
  · exact absurd levelLt (not_lt_of_ge matched.securityLevel)

theorem accessMatches_self {gp : VacmAccessEntry}
    (contextMatch : gp.contextMatch = contextMatchExact ∨ gp.contextMatch = contextMatchPrefix) :
    AccessMatches ⟨gp.groupName.str, gp.contextPrefix.str, gp.securityModel, gp.securityLevel⟩
      gp := by
  refine ⟨rfl, .inl rfl, le_rfl, ?_⟩
  rcases contextMatch with isExact | isPrefix
  · exact .inl ⟨isExact, rfl⟩
  · exact .inr ⟨isPrefix, List.prefix_rfl⟩

end Lookup

/-- For the requested index: a row with this index is kept; or there is no row with this index, and
none of the requested level is kept. -/
def AccessLookupFits (accessList : List VacmAccessEntry) (index : Oid) : Prop :=
  ∀ request seclevel, accessRequested index = some (request, seclevel) →
    (∃ gp, AccessKept request accessList gp ∧ accessOid gp = index) ∨
      ((∀ gp ∈ accessList, accessOid gp ≠ index) ∧
        ∀ gp, AccessKept request accessList gp → gp.securityLevel.toNat ≠ seclevel)

theorem length_le_of_takeString {index op : Oid} {bytes : List Byte}
    (taken : takeString index = some (bytes, op)) : bytes.length ≤ vacmMaxString := by
  cases index with
  | nil => exact absurd taken (by simp [takeString])
  | cons len rest =>
      simp only [takeString] at taken
      split at taken
      · exact absurd taken (by simp)
      · rename_i short
        split at taken
        · exact absurd taken (by simp)
        · split at taken
          · exact absurd taken (by simp)
          · rcases Prod.mk.inj (Option.some.inj taken) with ⟨rfl, -⟩
            rw [List.length_map]
            exact le_trans (List.length_take_le _ _) (le_of_not_gt short)

theorem exists_vacmString_of_takeString {index op : Oid} {bytes : List Byte}
    (taken : takeString index = some (bytes, op)) :
    ∃ name : VacmString, name.str = .ofBuffer bytes :=
  ⟨⟨.ofBuffer bytes, le_trans (List.takeWhile_prefix _).length_le (length_le_of_takeString taken)⟩,
    rfl⟩

theorem accessRequested_strings {index : Oid} {request : AccessRequest} {seclevel : Nat}
    (requested : accessRequested index = some (request, seclevel)) :
    ∃ group context : VacmString,
      group.str = request.groupName ∧ context.str = request.contextName := by
  simp only [accessRequested] at requested
  rcases Option.bind_eq_some_iff.mp requested with ⟨⟨groupName, op⟩, group, requested'⟩
  rcases Option.bind_eq_some_iff.mp requested' with ⟨⟨contextPrefix, op'⟩, context, requested''⟩
  split at requested''
  · rcases Prod.mk.inj (Option.some.inj requested'') with ⟨rfl, -⟩
    rcases exists_vacmString_of_takeString group with ⟨groupString, group_eq⟩
    rcases exists_vacmString_of_takeString context with ⟨contextString, context_eq⟩
    exact ⟨groupString, contextString, group_eq, context_eq⟩
  · exact absurd requested'' (by simp)

theorem accessRequested_securityLevel {index : Oid} {request : AccessRequest} {seclevel : Nat}
    (requested : accessRequested index = some (request, seclevel)) :
    request.securityLevel = toCInt seclevel := by
  simp only [accessRequested] at requested
  rcases Option.bind_eq_some_iff.mp requested with ⟨⟨groupName, op⟩, -, requested'⟩
  rcases Option.bind_eq_some_iff.mp requested' with ⟨⟨contextPrefix, op'⟩, -, requested''⟩
  split at requested''
  · rcases Prod.mk.inj (Option.some.inj requested'') with ⟨rfl, rfl⟩
    rfl
  · exact absurd requested'' (by simp)

theorem isExactly_accessExact_iff {accessList : List VacmAccessEntry}
    (inRange : AccessesInRange accessList) (index : Oid) :
    IsExactly accessOid accessList index (accessExact accessList index) ↔
      AccessLookupFits accessList index := by
  rw [accessExact_eq]
  cases requested : accessRequested index with
  | none =>
      constructor
      · intro _ request seclevel absurdity
        rw [requested] at absurdity
        exact absurd absurdity (by simp)
      · rintro - gp mem rfl
        rw [accessRequested_accessOid (inRange gp mem)] at requested
        exact absurd requested (by simp)
  | some asked =>
      rcases asked with ⟨request, seclevel⟩
      rcases accessRequested_strings requested with ⟨group, context, group_eq, context_eq⟩
      have lookup := @accessKept_vacmGetAccessEntry _ accessList group context group_eq context_eq
      have fits_iff : AccessLookupFits accessList index ↔
          (∃ gp, AccessKept request accessList gp ∧ accessOid gp = index) ∨
            ((∀ gp ∈ accessList, accessOid gp ≠ index) ∧
              ∀ gp, AccessKept request accessList gp → gp.securityLevel.toNat ≠ seclevel) := by
        simp only [AccessLookupFits, requested, Option.some.injEq, Prod.mk.injEq]
        constructor
        · intro fits
          exact fits request seclevel ⟨rfl, rfl⟩
        · rintro fits request' seclevel' ⟨rfl, rfl⟩
          exact fits
      rw [fits_iff, Option.bind_some]
      cases looked : vacmGetAccessEntry accessList request.groupName request.contextName
          request.securityModel request.securityLevel with
      | none =>
          rw [looked] at lookup
          simp only [looked, Option.bind_none]
          constructor
          · intro noneNamed
            exact .inr ⟨noneNamed, fun gp kept => absurd kept (lookup gp)⟩
          · rintro (⟨gp, kept, -⟩ | ⟨noneNamed, -⟩)
            · exact absurd kept (lookup gp)
            · exact noneNamed
      | some found =>
          rw [looked] at lookup
          rcases lookup with ⟨foundKept, others⟩
          rcases foundKept.matches with ⟨foundMem, foundMatches⟩
          simp only [looked, Option.bind_some, (inRange found foundMem).2.toSizeT_eq]
          constructor
          · intro exactly
            by_cases sameLevel : found.securityLevel.toNat = seclevel
            · rw [if_neg (not_not.mpr sameLevel)] at exactly
              exact .inl ⟨found, foundKept, exactly.2⟩
            · rw [if_pos sameLevel] at exactly
              refine .inr ⟨exactly, fun gp kept level_eq => sameLevel ?_⟩
              -- the row that is found is between this row and the request
              rcases kept.matches with ⟨mem, matched⟩
              have requested_eq : request.securityLevel = gp.securityLevel := by
                rw [accessRequested_securityLevel requested, ← level_eq,
                  (inRange gp mem).2.toCInt_eq]
              have le := (not_replacesCurrent_iff.mp (others gp kept)).2.2
              have ge := requested_eq ▸ foundMatches.securityLevel
              rw [le_antisymm ge le, level_eq]
          · rintro (⟨gp, kept, named⟩ | ⟨noneNamed, notLevel⟩)
            · have mem := kept.matches.1
              rw [← named, accessRequested_accessOid (inRange gp mem)] at requested
              rcases Prod.mk.inj (Option.some.inj requested) with ⟨rfl, rfl⟩
              have level_eq := le_antisymm foundMatches.securityLevel
                (not_replacesCurrent_iff.mp (others gp kept)).2.2
              rw [if_neg (by rw [level_eq]; simp)]
              exact ⟨foundMem,
                (accessOid_eq_of_not_replacesCurrent foundMatches (others gp kept)).trans named⟩
            · rw [if_pos (notLevel found foundKept)]
              exact noneNamed

theorem isExactly_varVacmAccess_iff {accessList : List VacmAccessEntry}
    (inRange : AccessesInRange accessList) (vpName name : Oid) :
    IsExactly (fun gp => vpName ++ accessOid gp) accessList name
        ((varVacmAccess accessList vpName name true).map Prod.fst) ↔
      AccessLookupFits accessList (requestedIndex vpName name) := by
  have answer_eq : (varVacmAccess accessList vpName name true).map Prod.fst =
      accessExact accessList (requestedIndex vpName name) := by
    simp [varVacmAccess, requestedIndex, Function.comp_def]
  rw [answer_eq]
  by_cases isColumn : vpName <+: name
  · rw [isExactly_prefixed isColumn]
    exact isExactly_accessExact_iff inRange _
  · rw [requestedIndex_of_otherColumn isColumn]
    refine iff_of_true (isExactly_none_of_otherColumn isColumn) fun _ _ requested => ?_
    exact absurd requested (by simp [accessRequested, takeString])

theorem checkMask_ignoreMask_iff {vp : VacmViewEntry} {mask : Byte} {maskpos : Nat}
    {viewSubtree entrySubtree : Oid} (short : entrySubtree.length ≤ viewSubtree.length) :
    checkMask vp true mask maskpos viewSubtree entrySubtree = true ↔
      entrySubtree <+: viewSubtree := by
  induction entrySubtree generalizing mask maskpos viewSubtree with
  | nil => simp [checkMask]
  | cons subid' entrySubtree ih =>
      cases viewSubtree with
      | nil => exact absurd short (by simp)
      | cons subid viewSubtree =>
          have short' : entrySubtree.length ≤ viewSubtree.length := by simpa using short
          rw [checkMask, List.cons_prefix_cons]
          by_cases same : subid = subid'
          · subst same
            simp [ih short']
          · simp [same, Ne.symm same]

theorem viewMatches_ignoreMask_iff {view : VacmString} {viewSubtree : Oid} {vp : VacmViewEntry} :
    viewMatches view viewSubtree .ignoreMask vp = true ↔
      vp.viewName = view ∧ vp.viewSubtree <+: viewSubtree := by
  simp only [viewMatches, Bool.and_eq_true, decide_eq_true_eq, decide_true, nameMatches_iff]
  constructor
  · rintro ⟨⟨name_eq, short⟩, accepts⟩
    exact ⟨name_eq, (checkMask_ignoreMask_iff short).mp accepts⟩
  · rintro ⟨name_eq, isPrefix⟩
    exact ⟨⟨name_eq, isPrefix.length_le⟩,
      (checkMask_ignoreMask_iff isPrefix.length_le).mpr isPrefix⟩

/-- What `netsnmp_view_get` is asked for on an exact request. -/
def viewRequested (index : Oid) : Option (CString × Oid) :=
  if index.length < 3 then none
  else do
    let (viewName, op) ← takeString index
    match op with
    | [] => none
    | len :: subtree =>
        if subtree.length ≤ maxOidLen ∧ len = subtree.length then
          some (.ofBuffer viewName, subtree)
        else none

theorem viewExact_eq (viewList : List VacmViewEntry) (index : Oid) :
    viewExact viewList index = (viewRequested index).bind fun (viewName, subtree) =>
      (netsnmpViewGet viewList viewName subtree .ignoreMask).bind fun gp =>
        if gp.viewSubtree.length ≠ subtree.length then none else some gp := by
  unfold viewExact viewRequested
  split
  · rfl
  · cases takeString index with
    | none => rfl
    | some name =>
        rcases name with ⟨viewName, op⟩
        cases op with
        | nil => rfl
        | cons len subtree =>
            simp only [bind, Option.bind_some, storedSubtree, List.length_cons]
            by_cases whole : len = subtree.length
            · subst whole
              by_cases long : maxOidLen < subtree.length
              · simp [long, not_le.mpr long]
              · simp [not_lt.mp long]
            · by_cases long : maxOidLen < len
              · simp [long, whole]
              · simp [long, whole, Ne.symm whole]

theorem viewRequested_viewOid {gp : VacmViewEntry} (short : gp.viewSubtree.length ≤ maxOidLen)
    (long : 3 ≤ (viewOid gp).length) :
    viewRequested (viewOid gp) = some (gp.viewName.str, gp.viewSubtree) := by
  rw [viewRequested, if_neg (not_lt_of_ge long), viewOid, takeString_subids]
  simp [storedSubtree, short, CString.ofBuffer_chars]

theorem viewRequested_string {index subtree : Oid} {viewName : CString}
    (requested : viewRequested index = some (viewName, subtree)) :
    ∃ view : VacmString, view.str = viewName := by
  unfold viewRequested at requested
  split at requested
  · exact absurd requested (by simp)
  · rcases Option.bind_eq_some_iff.mp requested with ⟨⟨name, op⟩, taken, requested'⟩
    cases op with
    | nil => exact absurd requested' (by simp)
    | cons len rest =>
        simp only at requested'
        split at requested'
        · rcases Prod.mk.inj (Option.some.inj requested') with ⟨rfl, -⟩
          exact exists_vacmString_of_takeString taken
        · exact absurd requested' (by simp)

/-- For the requested index: it is not too short for the row with this index, and a row with the
requested name, up to a zero, and the requested subtree has this index. -/
def ViewLookupFits (viewList : List VacmViewEntry) (index : Oid) : Prop :=
  ∀ gp ∈ viewList, (viewOid gp = index → 3 ≤ index.length) ∧
    (viewRequested index = some (gp.viewName.str, gp.viewSubtree) → viewOid gp = index)

theorem isExactly_viewExact_iff {viewList : List VacmViewEntry} (table : ViewTable viewList)
    (index : Oid) :
    IsExactly viewOid viewList index (viewExact viewList index) ↔
      ViewLookupFits viewList index := by
  rw [viewExact_eq]
  cases requested : viewRequested index with
  | none =>
      constructor
      · intro noneNamed gp mem
        exact ⟨fun named => absurd named (noneNamed gp mem), fun absurdity =>
          absurd (requested.symm.trans absurdity) (by simp)⟩
      · intro fits gp mem named
        have long := (fits gp mem).1 named
        subst named
        rw [viewRequested_viewOid (table.length_le gp mem) long] at requested
        exact absurd requested (by simp)
  | some asked =>
      rcases asked with ⟨viewName, subtree⟩
      rcases viewRequested_string requested with ⟨view, rfl⟩
      have best := isBest_netsnmpViewGet (show VacmMode.ignoreMask ≠ .checkSubtree by simp)
        viewList view subtree
      have long : 3 ≤ index.length := by
        by_contra short
        rw [viewRequested, if_pos (not_le.mp short)] at requested
        exact absurd requested (by simp)
      have requested_of_named {gp : VacmViewEntry} (mem : gp ∈ viewList)
          (named : viewOid gp = index) : gp.viewName = view ∧ gp.viewSubtree = subtree := by
        subst named
        rw [viewRequested_viewOid (table.length_le gp mem) long] at requested
        rcases Prod.mk.inj (Option.some.inj requested) with ⟨name_eq, subtree_eq⟩
        exact ⟨VacmString.str_inj.mp name_eq, subtree_eq⟩
      simp only [Option.bind_some]
      cases looked : netsnmpViewGet viewList view.str subtree .ignoreMask with
      | none =>
          rw [looked] at best
          have unmatched : ∀ gp ∈ viewList,
            ¬ (gp.viewName = view ∧ gp.viewSubtree <+: subtree) := by
            intro gp mem matched
            exact List.filter_eq_nil_iff.mp best gp mem (viewMatches_ignoreMask_iff.mpr matched)
          rw [Option.bind_none]
          apply iff_of_true
          · intro gp mem named
            rcases requested_of_named mem named with ⟨name_eq, rfl⟩
            exact unmatched gp mem ⟨name_eq, List.prefix_rfl⟩
          · intro gp mem
            refine ⟨fun _ => long, ?_⟩
            intro asked
            rcases Prod.mk.inj (Option.some.inj (requested.symm.trans asked)) with ⟨name_eq, rfl⟩
            exact absurd ⟨(VacmString.str_inj.mp name_eq).symm, List.prefix_rfl⟩ (unmatched gp mem)
      | some found =>
          rw [looked] at best
          rcases best with ⟨foundMem, greatest⟩
          rw [List.mem_filter, viewMatches_ignoreMask_iff] at foundMem
          rcases foundMem with ⟨foundMem, found_name, foundPrefix⟩
          -- an entry for the whole subtree is not shorter than the one that is found
          have found_whole {gp : VacmViewEntry} (mem : gp ∈ viewList) (name_eq : gp.viewName = view)
              (whole : gp.viewSubtree = subtree) : found.viewSubtree = subtree := by
            have le := greatest gp (List.mem_filter.mpr ⟨mem, viewMatches_ignoreMask_iff.mpr
              ⟨name_eq, whole ▸ List.prefix_rfl⟩⟩)
            apply foundPrefix.eq_of_length_le
            rw [← whole]
            rcases Prod.Lex.toLex_le_toLex.mp le with lt | ⟨same, -⟩
            · exact le_of_lt lt
            · exact le_of_eq same
          simp only [Option.bind_some]
          constructor
          · intro exactly gp mem
            refine ⟨fun _ => long, ?_⟩
            intro asked
            rcases Prod.mk.inj (Option.some.inj (requested.symm.trans asked)) with ⟨name_eq, rfl⟩
            have name_eq' := (VacmString.str_inj.mp name_eq).symm
            have whole := found_whole mem name_eq' rfl
            rw [if_neg (by simp [whole])] at exactly
            rw [← exactly.2, viewOid, viewOid, name_eq', found_name, whole]
          · intro fits
            split
            · rename_i shorter
              intro gp mem named
              rcases requested_of_named mem named with ⟨name_eq, whole⟩
              exact shorter (by rw [found_whole mem name_eq whole])
            · rename_i whole
              have whole' := foundPrefix.eq_of_length (not_not.mp whole)
              refine ⟨foundMem, (fits found foundMem).2 ?_⟩
              rw [requested, found_name, whole']

theorem isExactly_varVacmView_iff {viewList : List VacmViewEntry} (table : ViewTable viewList)
    (vpName name : Oid) :
    IsExactly (fun gp => vpName ++ viewOid gp) viewList name
        ((varVacmView viewList vpName name true).map Prod.fst) ↔
      ViewLookupFits viewList (requestedIndex vpName name) := by
  have answer_eq : (varVacmView viewList vpName name true).map Prod.fst =
      viewExact viewList (requestedIndex vpName name) := by
    simp [varVacmView, requestedIndex, Function.comp_def]
  rw [answer_eq]
  by_cases isColumn : vpName <+: name
  · rw [isExactly_prefixed isColumn]
    exact isExactly_viewExact_iff table _
  · rw [requestedIndex_of_otherColumn isColumn]
    refine iff_of_true (isExactly_none_of_otherColumn isColumn) ?_
    intro gp _
    refine ⟨fun absurdity => absurd absurdity ?_, fun requested => absurd requested ?_⟩
    · simp [viewOid, VacmString.subids]
    · simp [viewRequested]

end NetSnmp
