import NetSnmp.RunningBest
import NetSnmp.Vacm.Access

/-!
# Which row of the access list is chosen

The rows for a request are ranked by four keys in turn.  The loop over the list
compares two rows by the same keys, but not in turn, so that it may give up the
row of the highest rank for one that stands behind it.
-/

namespace NetSnmp

namespace VacmString

/-- Strings are ordered by their lengths and then by their characters. -/
def order (name : VacmString) : List Nat := byteValues name.stored

theorem order_inj {name name' : VacmString} : name.order = name'.order ↔ name = name' := by
  constructor
  · intro same
    have stored_eq := byteValues_inj.mp same
    rcases name with ⟨str, short⟩
    rcases name' with ⟨str', short'⟩
    have chars_eq : str.chars = str'.chars := by
      simpa [stored] using (List.cons.inj stored_eq).2
    obtain rfl := CString.ext chars_eq
    rfl
  · intro same
    rw [same]

theorem length_stored (name : VacmString) : name.stored.length = name.str.strlen + 1 := rfl

theorem take_stored (name : VacmString) : name.stored.take (name.str.strlen + 1) = name.stored :=
  List.take_of_length_le (le_of_eq name.length_stored)

theorem lexCompare_cons_of_ne {a b : Nat} (ne : a ≠ b) (as bs as' bs' : List Nat) :
    lexCompare (a :: as) (b :: bs) = lexCompare (a :: as') (b :: bs') := by
  simp [lexCompare, ne]

theorem memcmp_stored (left right : VacmString) :
    memcmp left.stored right.stored (right.str.strlen + 1) = lexCompare left.order right.order := by
  rw [memcmp, take_stored]
  by_cases same : left.str.strlen = right.str.strlen
  · rw [← same, take_stored]
    rfl
  · have left_le := left.short
    have right_le := right.short
    unfold vacmMaxString at left_le right_le
    have ne : (UInt8.ofNat left.str.strlen).toNat ≠ (UInt8.ofNat right.str.strlen).toNat := by
      rw [UInt8.toNat_ofNat', UInt8.toNat_ofNat']
      omega
    exact lexCompare_cons_of_ne ne _ _ _ _

end VacmString

/-- The index of a row, in the order in which the list is kept. -/
def accessIndex (vp : VacmAccessEntry) : List Nat ×ₗ List Nat ×ₗ Int ×ₗ Int :=
  toLex (vp.groupName.order, toLex (vp.contextPrefix.order,
    toLex (vp.securityModel, vp.securityLevel)))

theorem accessBehind_iff (vp lp : VacmAccessEntry) :
    accessBehind vp lp = true ↔ accessIndex vp < accessIndex lp := by
  simp only [accessBehind, accessIndex, VacmString.memcmp_stored, Prod.Lex.toLex_lt_toLex]
  rcases lt_trichotomy vp.groupName.order lp.groupName.order with lt | same | gt
  · simp [lexCompare_of_gt lt, lt]
  · rw [same, lexCompare_self]
    rcases lt_trichotomy vp.contextPrefix.order lp.contextPrefix.order with lt' | same' | gt'
    · simp [lexCompare_of_gt lt', lt']
    · rw [same', lexCompare_self]
      rcases lt_trichotomy vp.securityModel lp.securityModel with lt'' | same'' | gt''
      · simp [lt'']
      · simp [same'']
      · simp [gt'', not_lt_of_gt gt'', ne_of_gt gt'']
    · simp [lexCompare_of_lt gt', not_lt_of_gt gt', ne_of_gt gt']
  · simp [lexCompare_of_lt gt, not_lt_of_gt gt, ne_of_gt gt]

/-- The lists that creations and destructions make of an empty one.  In between, rows are changed in
the fields that are not part of their index, as all routines do but the parser of saved rows. -/
inductive AccessTable : List VacmAccessEntry → Prop
  | empty : AccessTable []
  | create {accessList accessList' : List VacmAccessEntry} {groupName contextPrefix : CString}
      {securityModel securityLevel : Int} {vp : VacmAccessEntry} (table : AccessTable accessList)
      (created : vacmCreateAccessEntry accessList groupName contextPrefix securityModel
        securityLevel = some (accessList', vp)) : AccessTable accessList'
  | assign {front back : List VacmAccessEntry} {vp vp' : VacmAccessEntry}
      (table : AccessTable (front ++ vp :: back)) (groupName : vp'.groupName = vp.groupName)
      (contextPrefix : vp'.contextPrefix = vp.contextPrefix)
      (securityModel : vp'.securityModel = vp.securityModel)
      (securityLevel : vp'.securityLevel = vp.securityLevel) : AccessTable (front ++ vp' :: back)
  | destroy {accessList : List VacmAccessEntry} (table : AccessTable accessList)
      (groupName contextPrefix : CString) (securityModel securityLevel : Int) :
      AccessTable (vacmDestroyAccessEntry accessList groupName contextPrefix securityModel
        securityLevel)

theorem AccessTable.sorted {accessList : List VacmAccessEntry} (table : AccessTable accessList) :
    SortedBy accessIndex accessList := by
  induction table with
  | empty => exact List.Pairwise.nil
  | create table created ih =>
      unfold vacmCreateAccessEntry at created
      split at created
      · obtain ⟨rfl, rfl⟩ := by simpa using created
        exact ih.insertBefore fun other _ => accessBehind_iff _ other
      · exact absurd created (by simp)
  | assign table groupName contextPrefix securityModel securityLevel ih =>
      apply ih.replace
      rw [accessIndex, groupName, contextPrefix, securityModel, securityLevel]
      rfl
  | destroy table groupName contextPrefix securityModel securityLevel ih =>
      exact ih.sublist List.eraseP_sublist

/-- What `vacm_getAccessEntry` is asked for. -/
structure AccessRequest where
  groupName : CString
  contextName : CString
  securityModel : Int
  securityLevel : Int
  deriving DecidableEq, Repr

structure AccessMatches (request : AccessRequest) (vp : VacmAccessEntry) : Prop where
  groupName : vp.groupName.str = request.groupName
  securityModel : vp.securityModel = request.securityModel ∨ vp.securityModel = snmpSecModelAny
  securityLevel : vp.securityLevel ≤ request.securityLevel
  context : (vp.contextMatch = contextMatchExact ∧ vp.contextPrefix.str = request.contextName) ∨
    (vp.contextMatch = contextMatchPrefix ∧ vp.contextPrefix.str.chars <+:
      request.contextName.chars)

/-- The rank of a row: security model, kind of context match, length of the context prefix and
security level, in turn. -/
def accessRank (vp : VacmAccessEntry) : Bool ×ₗ Bool ×ₗ Nat ×ₗ Int :=
  toLex (vp.securityModel ≠ snmpSecModelAny, toLex (vp.contextMatch = contextMatchExact,
    toLex (vp.contextPrefix.str.strlen, vp.securityLevel)))

theorem vacmString_eq_some_iff {str : CString} {name : VacmString} :
    vacmString str = some name ↔ name.str = str := by
  constructor
  · intro copied
    unfold vacmString at copied
    split at copied
    · obtain rfl := by simpa using copied
      rfl
    · exact absurd copied (by simp)
  · rintro rfl
    simp [vacmString, name.short]

theorem vacmString_eq_none_iff {str : CString} :
    vacmString str = none ↔ vacmMaxString < str.strlen := by
  unfold vacmString
  split <;> simp <;> omega

theorem memcmp_stored_eq_zero_iff {left right : VacmString} :
    memcmp left.stored right.stored (right.str.strlen + 1) = 0 ↔ left = right := by
  rw [VacmString.memcmp_stored, lexCompare_eq_zero_iff, VacmString.order_inj]

theorem accessMatches_iff {group context : VacmString} {securityModel securityLevel : Int}
    {vp : VacmAccessEntry} :
    accessMatches group context securityModel securityLevel vp = true ↔
      AccessMatches ⟨group.str, context.str, securityModel, securityLevel⟩ vp := by
  have group_iff : vp.groupName = group ↔ vp.groupName.str = group.str := by
    constructor
    · rintro rfl
      rfl
    · intro same
      exact Option.some.inj ((vacmString_eq_some_iff.mpr rfl).symm.trans
        (vacmString_eq_some_iff.mpr same.symm))
  have context_iff : vp.contextPrefix = context ↔ vp.contextPrefix.str = context.str := by
    constructor
    · rintro same
      rw [same]
    · intro same
      exact Option.some.inj ((vacmString_eq_some_iff.mpr rfl).symm.trans
        (vacmString_eq_some_iff.mpr same.symm))
  have exact_iff : (context.str.strlen = vp.contextPrefix.str.strlen ∧ vp.contextPrefix = context) ↔
      vp.contextPrefix.str = context.str := by
    rw [context_iff]
    constructor
    · exact And.right
    · intro same
      exact ⟨by rw [same], same⟩
  have prefix_iff : (vp.contextPrefix.str.strlen ≤ context.str.strlen ∧
      memcmp vp.contextPrefix.str.chars context.str.chars vp.contextPrefix.str.strlen = 0) ↔
      vp.contextPrefix.str.chars <+: context.str.chars := by
    rw [memcmp_eq_zero_iff, List.prefix_iff_eq_take]
    unfold CString.strlen
    rw [List.take_length]
    constructor
    · exact And.right
    · intro same
      refine ⟨?_, same⟩
      rw [same, List.length_take]
      omega
  simp only [accessMatches, Bool.and_eq_true, Bool.or_eq_true, decide_eq_true_eq,
    memcmp_stored_eq_zero_iff, and_assoc, exact_iff, prefix_iff, group_iff]
  constructor
  · rintro ⟨model, level, groupName, context⟩
    exact ⟨groupName, model.imp Eq.symm id, level, context⟩
  · rintro ⟨groupName, model, level, context⟩
    exact ⟨model.imp Eq.symm id, level, groupName, context⟩

section Request

variable {request : AccessRequest}

theorem contextMatch_cases {vp : VacmAccessEntry} (matched : AccessMatches request vp) :
    vp.contextMatch = contextMatchExact ∧ vp.contextPrefix.str.strlen = request.contextName.strlen ∨
      vp.contextMatch = contextMatchPrefix := by
  rcases matched.context with ⟨isExact, same⟩ | ⟨isPrefix, -⟩
  · exact .inl ⟨isExact, by rw [same]⟩
  · exact .inr isPrefix

theorem replacesCurrent_of_lt {first second : VacmAccessEntry}
    (firstMatches : AccessMatches request first) (secondMatches : AccessMatches request second)
    (lt : accessRank first < accessRank second) : replacesCurrent first second = true := by
  simp only [replacesCurrent, Bool.or_eq_true, Bool.and_eq_true, decide_eq_true_eq]
  simp only [accessRank, Prod.Lex.toLex_lt_toLex, Bool.lt_iff, decide_eq_false_iff_not,
    decide_eq_true_eq, decide_eq_decide, not_not] at lt
  rcases lt with model | ⟨-, exactness | ⟨sameMatch, longer | ⟨-, level⟩⟩⟩
  · exact .inl (.inl (.inl model))
  · rcases contextMatch_cases firstMatches with ⟨isExact, -⟩ | isPrefix
    · exact absurd isExact exactness.1
    · exact .inl (.inl (.inr ⟨isPrefix, exactness.2⟩))
  · rcases contextMatch_cases firstMatches with ⟨isExact, length_eq⟩ | isPrefix
    · rcases contextMatch_cases secondMatches with ⟨-, length_eq'⟩ | isPrefix'
      · omega
      · have isExact' := sameMatch.mp isExact
        rw [isPrefix'] at isExact'
        exact absurd isExact' (by decide)
    · exact .inl (.inr ⟨isPrefix, longer⟩)
  · exact .inr level

theorem accessRank_eq_iff {first second : VacmAccessEntry} :
    accessRank first = accessRank second ↔
      (first.securityModel = snmpSecModelAny ↔ second.securityModel = snmpSecModelAny) ∧
      (first.contextMatch = contextMatchExact ↔ second.contextMatch = contextMatchExact) ∧
      first.contextPrefix.str.strlen = second.contextPrefix.str.strlen ∧
      first.securityLevel = second.securityLevel := by
  simp only [accessRank, EmbeddingLike.apply_eq_iff_eq, Prod.mk.injEq, decide_eq_decide, ne_eq,
    not_iff_not]

theorem chars_eq_of_strlen_eq {first second : VacmAccessEntry}
    (firstMatches : AccessMatches request first) (secondMatches : AccessMatches request second)
    (same : first.contextPrefix.str.strlen = second.contextPrefix.str.strlen) :
    first.contextPrefix = second.contextPrefix := by
  have isPrefix {vp : VacmAccessEntry} (matched : AccessMatches request vp) :
      vp.contextPrefix.str.chars <+: request.contextName.chars := by
    rcases matched.context with ⟨-, whole⟩ | ⟨-, isPrefix⟩
    · exact whole ▸ List.prefix_rfl
    · exact isPrefix
  have chars_eq := (List.prefix_of_prefix_length_le (isPrefix firstMatches)
    (isPrefix secondMatches) (le_of_eq same)).eq_of_length same
  exact Option.some.inj ((vacmString_eq_some_iff.mpr rfl).symm.trans
    (vacmString_eq_some_iff.mpr (CString.ext chars_eq.symm)))

theorem groupName_eq {first second : VacmAccessEntry}
    (firstMatches : AccessMatches request first) (secondMatches : AccessMatches request second) :
    first.groupName = second.groupName :=
  Option.some.inj ((vacmString_eq_some_iff.mpr rfl).symm.trans
    (vacmString_eq_some_iff.mpr (secondMatches.groupName.trans firstMatches.groupName.symm)))

theorem accessIndex_eq_of_rank_eq {first second : VacmAccessEntry}
    (firstMatches : AccessMatches request first) (secondMatches : AccessMatches request second)
    (same : accessRank first = accessRank second) :
    accessIndex first = accessIndex second ∧
      ∀ other, replacesCurrent first other = replacesCurrent second other := by
  rcases accessRank_eq_iff.mp same with ⟨model, exactness, length_eq, level⟩
  have model_eq : first.securityModel = second.securityModel := by
    rcases firstMatches.securityModel with first_eq | first_eq
    · rcases secondMatches.securityModel with second_eq | second_eq
      · rw [first_eq, second_eq]
      · rw [second_eq, model.mpr second_eq]
    · rw [first_eq, model.mp first_eq]
  have match_eq : first.contextMatch = second.contextMatch := by
    rcases contextMatch_cases firstMatches with ⟨first_eq, -⟩ | first_eq
    · rw [first_eq, exactness.mp first_eq]
    · rcases contextMatch_cases secondMatches with ⟨second_eq, -⟩ | second_eq
      · rw [second_eq, exactness.mpr second_eq]
      · rw [first_eq, second_eq]
  have prefix_eq := chars_eq_of_strlen_eq firstMatches secondMatches length_eq
  constructor
  · rw [accessIndex, groupName_eq firstMatches secondMatches, prefix_eq, model_eq, level]
    rfl
  · intro other
    rw [replacesCurrent, model_eq, match_eq, prefix_eq, level]
    rfl

theorem not_replacesCurrent_of_index_eq {best other : VacmAccessEntry}
    (le : accessRank other ≤ accessRank best)
    (same : accessIndex other = accessIndex best) : replacesCurrent best other = false := by
  simp only [accessIndex, EmbeddingLike.apply_eq_iff_eq, Prod.mk.injEq,
    VacmString.order_inj] at same
  rcases same with ⟨-, prefix_eq, model_eq, level_eq⟩
  apply Bool.eq_false_iff.mpr
  intro replaced
  simp only [replacesCurrent, Bool.or_eq_true, Bool.and_eq_true, decide_eq_true_eq, model_eq,
    prefix_eq, level_eq, lt_irrefl, and_false, or_false, ne_eq] at replaced
  rcases replaced with ⟨isAny, notAny⟩ | ⟨isPrefix, isExact⟩
  · exact notAny isAny
  · -- the other row would have a higher rank
    have higher : accessRank best < accessRank other := by
      simp [accessRank, Prod.Lex.toLex_lt_toLex, Bool.lt_iff, model_eq, isPrefix, isExact,
        contextMatchPrefix, contextMatchExact]
    exact absurd le (not_le_of_gt higher)

/-- A row of the highest rank for the request stands in front of one that `_vacm_choose_best`
prefers to it. -/
def IsShadowed (accessList : List VacmAccessEntry) (request : AccessRequest) : Prop :=
  ∃ best ∈ accessList, AccessMatches request best ∧
    (∀ other ∈ accessList, AccessMatches request other → accessRank other ≤ accessRank best) ∧
    ∃ other ∈ accessList, AccessMatches request other ∧ accessIndex best < accessIndex other ∧
      replacesCurrent best other = true

end Request

theorem vacmChooseBest_eq (current : Option VacmAccessEntry) (candidate : VacmAccessEntry) :
    vacmChooseBest current candidate = keepBest replacesCurrent current candidate := by
  cases current <;> rfl

theorem getAccessLoop_eq (group context : VacmString) (securityModel securityLevel : Int)
    (accessList : List VacmAccessEntry) (best : Option VacmAccessEntry) :
    getAccessLoop group context securityModel securityLevel accessList best =
      (accessList.filter (accessMatches group context securityModel securityLevel)).foldl
        (keepBest replacesCurrent) best := by
  induction accessList generalizing best with
  | nil => rfl
  | cons vp rest ih =>
      rw [getAccessLoop]
      split
      · rename_i accepted
        rw [List.filter_cons_of_pos accepted, List.foldl_cons, ih, vacmChooseBest_eq]
      · rename_i rejected
        rw [List.filter_cons_of_neg rejected, ih]

open Classical in
/-- The row that the lookup prescribes: none if there is no row for the request, and else one of
the highest rank. -/
def IsPrescribed (accessList : List VacmAccessEntry) (request : AccessRequest)
    (vp : Option VacmAccessEntry) : Prop :=
  IsBest accessRank (accessList.filter fun vp => AccessMatches request vp) vp

section Prescribed

variable {accessList : List VacmAccessEntry} {request : AccessRequest}

theorem isPrescribed_none_iff :
    IsPrescribed accessList request none ↔ ∀ vp ∈ accessList, ¬ AccessMatches request vp := by
  simp [IsPrescribed, IsBest, List.filter_eq_nil_iff]

theorem isPrescribed_getAccessLoop_iff (sorted : SortedBy accessIndex accessList)
    (group context : VacmString) (securityModel securityLevel : Int) :
    IsPrescribed accessList ⟨group.str, context.str, securityModel, securityLevel⟩
        (getAccessLoop group context securityModel securityLevel accessList none) ↔
      ¬ IsShadowed accessList ⟨group.str, context.str, securityModel, securityLevel⟩ := by
  classical
  have rows_eq : (accessList.filter fun vp => AccessMatches
      ⟨group.str, context.str, securityModel, securityLevel⟩ vp) =
      accessList.filter (accessMatches group context securityModel securityLevel) := by
    apply List.filter_congr
    intro vp _
    rw [← Bool.coe_iff_coe, decide_eq_true_iff, accessMatches_iff]
  have mem_iff (vp : VacmAccessEntry) :
      vp ∈ accessList.filter (accessMatches group context securityModel securityLevel) ↔
        vp ∈ accessList ∧
          AccessMatches ⟨group.str, context.str, securityModel, securityLevel⟩ vp := by
    rw [List.mem_filter, accessMatches_iff]
  have best_iff := isBest_foldl_keepBest_iff
    (sorted.sublist (List.filter_sublist (p := accessMatches group context securityModel
      securityLevel)))
    (fun first firstMem second secondMem => replacesCurrent_of_lt ((mem_iff first).mp firstMem).2
      ((mem_iff second).mp secondMem).2)
    (fun first firstMem second secondMem => accessIndex_eq_of_rank_eq
      ((mem_iff first).mp firstMem).2 ((mem_iff second).mp secondMem).2)
    (fun best _ greatest other otherMem =>
      not_replacesCurrent_of_index_eq (greatest other otherMem))
  rw [IsPrescribed, rows_eq, getAccessLoop_eq, best_iff]
  apply not_congr
  simp only [Displaced, IsShadowed, mem_iff, and_assoc, and_imp]

/-- The row that is returned is the prescribed one exactly when no row matches, or the context name
is not too long and the row of the highest rank is not shadowed. -/
theorem isPrescribed_vacmGetAccessEntry_iff (table : AccessTable accessList)
    (request : AccessRequest) :
    IsPrescribed accessList request (vacmGetAccessEntry accessList request.groupName
        request.contextName request.securityModel request.securityLevel) ↔
      (∀ vp ∈ accessList, ¬ AccessMatches request vp) ∨
        (request.contextName.strlen ≤ vacmMaxString ∧ ¬ IsShadowed accessList request) := by
  have not_shadowed (unmatched : ∀ vp ∈ accessList, ¬ AccessMatches request vp) :
      ¬ IsShadowed accessList request := by
    rintro ⟨best, mem, matched, -⟩
    exact unmatched best mem matched
  cases group_eq : vacmString request.groupName with
  | none =>
      -- no row has a group name as long as this
      have unmatched : ∀ vp ∈ accessList, ¬ AccessMatches request vp := by
        intro vp _ matched
        have long := vacmString_eq_none_iff.mp group_eq
        have short := vp.groupName.short
        rw [matched.groupName] at short
        omega
      simp only [vacmGetAccessEntry, group_eq, isPrescribed_none_iff]
      exact ⟨fun _ => .inl unmatched, fun _ => unmatched⟩
  | some group =>
      obtain rfl_group := vacmString_eq_some_iff.mp group_eq
      cases context_eq : vacmString request.contextName with
      | none =>
          have long := vacmString_eq_none_iff.mp context_eq
          simp only [vacmGetAccessEntry, group_eq, context_eq, isPrescribed_none_iff]
          constructor
          · exact .inl
          · rintro (unmatched | ⟨short, -⟩)
            · exact unmatched
            · omega
      | some context =>
          have rfl_context := vacmString_eq_some_iff.mp context_eq
          have short := context.short
          rw [rfl_context] at short
          have loop := isPrescribed_getAccessLoop_iff table.sorted group context
            request.securityModel request.securityLevel
          rw [rfl_group, rfl_context] at loop
          simp only [vacmGetAccessEntry, group_eq, context_eq]
          rw [loop]
          constructor
          · intro undisplaced
            exact .inr ⟨short, undisplaced⟩
          · rintro (unmatched | ⟨-, undisplaced⟩)
            · exact not_shadowed unmatched
            · exact undisplaced

end Prescribed

/-- `g` -/
def nameG : VacmString := ⟨⟨[0x67], by decide⟩, by decide⟩

def emptyName : VacmString := ⟨⟨[], CString.noNul_nil⟩, by decide⟩

/-- The group `g`, for security model 3 in every context, and for any security model in the
contexts that start with `c`. -/
def shadowedRows : List VacmAccessEntry :=
  [{ groupName := nameG
     contextPrefix := emptyName
     securityModel := 3
     securityLevel := 1
     contextMatch := contextMatchPrefix },
   { groupName := nameG
     contextPrefix := ⟨⟨[0x63], by decide⟩, by decide⟩
     securityModel := snmpSecModelAny
     securityLevel := 1
     contextMatch := contextMatchPrefix }]

/-- Group `g` in the context `ctx`, with security model 3. -/
def shadowedRequest : AccessRequest :=
  ⟨⟨[0x67], by decide⟩, ⟨[0x63, 0x74, 0x78], by decide⟩, 3, 1⟩

theorem accessTable_shadowedRows : AccessTable shadowedRows := by
  have first : AccessTable ([] ++ { shadowedRows[0] with contextMatch := 0 } :: []) :=
    .create .empty (show vacmCreateAccessEntry [] ⟨[0x67], by decide⟩ ⟨[], by decide⟩ 3 1 =
      some (_, { shadowedRows[0] with contextMatch := 0 }) from rfl)
  have assigned : AccessTable [shadowedRows[0]] := first.assign rfl rfl rfl rfl
  have second : AccessTable
    ([shadowedRows[0]] ++ { shadowedRows[1] with contextMatch := 0 } :: []) :=
    .create assigned (show vacmCreateAccessEntry [shadowedRows[0]] ⟨[0x67], by decide⟩
      ⟨[0x63], by decide⟩ snmpSecModelAny 1 =
      some (_, { shadowedRows[1] with contextMatch := 0 }) from rfl)
  exact second.assign rfl rfl rfl rfl

theorem isPrescribed_vacmGetAccessEntry_shadowedRows :
    IsPrescribed shadowedRows shadowedRequest (vacmGetAccessEntry shadowedRows
        shadowedRequest.groupName shadowedRequest.contextName shadowedRequest.securityModel
        shadowedRequest.securityLevel) ↔
      (∀ vp ∈ shadowedRows, ¬ AccessMatches shadowedRequest vp) ∨
        (shadowedRequest.contextName.strlen ≤ vacmMaxString ∧
          ¬ IsShadowed shadowedRows shadowedRequest) :=
  isPrescribed_vacmGetAccessEntry_iff accessTable_shadowedRows shadowedRequest

/-- The row for any security model is returned, because its context prefix is longer. -/
theorem not_isPrescribed_shadowedRows :
    AccessTable shadowedRows ∧
      ¬ IsPrescribed shadowedRows shadowedRequest (vacmGetAccessEntry shadowedRows
        shadowedRequest.groupName shadowedRequest.contextName shadowedRequest.securityModel
        shadowedRequest.securityLevel) := by
  refine ⟨accessTable_shadowedRows, ?_⟩
  have returned : vacmGetAccessEntry shadowedRows shadowedRequest.groupName
      shadowedRequest.contextName shadowedRequest.securityModel shadowedRequest.securityLevel =
      some shadowedRows[1] := by decide +kernel
  rw [returned]
  rintro ⟨-, greatest⟩
  have matched : AccessMatches shadowedRequest shadowedRows[0] :=
    ⟨rfl, .inl rfl, le_rfl, .inr ⟨rfl, by decide⟩⟩
  have le := greatest shadowedRows[0] (by simp [matched])
  exact absurd le (by decide)

end NetSnmp
