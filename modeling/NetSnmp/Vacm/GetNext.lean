import Mathlib.Data.List.Find
import NetSnmp.Vacm.IndexOid

/-!
# Requests for the next row of an access control table

What each of the routines reads of a requested index, as an index again, and the
condition under which the row behind what was read is the row behind the request.
-/

namespace NetSnmp

/-- The index as `var_vacm_sec2group` reads it: what is missing is zero, and a name with too large
or too many subidentifiers is not read at all. -/
def sec2groupRead : Oid → Option Oid
  | [] => some [0, 0]
  | [secmodel] => some [secmodel, 0]
  | secmodel :: groupSubtree =>
      if groupSubtree.length ≤ vacmMaxString + 1 ∧ ∀ subid ∈ groupSubtree, subid ≤ 255 then
        some (secmodel :: groupSubtree)
      else none

theorem byteValues_map_ofNat {subids : Oid} (small : ∀ subid ∈ subids, subid ≤ 255) :
    byteValues (subids.map UInt8.ofNat) = subids := by
  induction subids with
  | nil => rfl
  | cons subid rest ih =>
      have le := small subid List.mem_cons_self
      have value : (UInt8.ofNat subid).toNat = subid := by
        rw [UInt8.toNat_ofNat']
        omega
      have rest_eq := ih fun other mem => small other (List.mem_cons_of_mem _ mem)
      simp only [byteValues, List.map_cons, value, List.cons.injEq, true_and] at rest_eq ⊢
      exact rest_eq

theorem copySecname_eq (count : Nat) (subid : Nat) (rest : Oid) :
    copySecname count (subid :: rest) =
      if count + (subid :: rest).length ≤ vacmMaxString + 1 ∧ ∀ subid' ∈ subid :: rest, subid' ≤ 255
      then some ((subid :: rest).map UInt8.ofNat) else none := by
  induction rest generalizing count subid with
  | nil =>
      rw [copySecname]
      split
      · rename_i large
        rw [if_neg]
        rintro ⟨-, small⟩
        exact absurd (small subid List.mem_cons_self) (by omega)
      · split
        · rename_i long
          rw [if_neg]
          rintro ⟨short, -⟩
          simp at short
          omega
        · rename_i small short
          rw [if_pos]
          · rfl
          · simp
            omega
  | cons subid' rest ih =>
      rw [copySecname, ih]
      split
      · rename_i large
        rw [if_neg]
        rintro ⟨-, small⟩
        exact absurd (small subid List.mem_cons_self) (by omega)
      · split
        · rename_i long
          rw [if_neg]
          rintro ⟨short, -⟩
          simp at short
          omega
        · rename_i small _
          have cond_iff : (count + 1 + (subid' :: rest).length ≤ vacmMaxString + 1 ∧
              ∀ other ∈ subid' :: rest, other ≤ 255) ↔
              (count + (subid :: subid' :: rest).length ≤ vacmMaxString + 1 ∧
                ∀ other ∈ subid :: subid' :: rest, other ≤ 255) := by
            rw [List.forall_mem_cons (a := subid)]
            simp only [List.length_cons]
            constructor
            · rintro ⟨short, smallRest⟩
              exact ⟨by omega, by omega, smallRest⟩
            · rintro ⟨short, -, smallRest⟩
              exact ⟨by omega, smallRest⟩
          by_cases cond : count + 1 + (subid' :: rest).length ≤ vacmMaxString + 1 ∧
              ∀ other ∈ subid' :: rest, other ≤ 255
          · rw [if_pos cond, if_pos (cond_iff.mp cond)]
            rfl
          · rw [if_neg cond, if_neg (fun cond' => cond (cond_iff.mpr cond'))]
            rfl

theorem sec2groupBehind_iff {secmodel : Nat} {secname : CString} {gp : VacmGroupEntry} {read : Oid}
    (subid : IsSubid gp.securityModel)
    (name_iff : 0 < strcmp (.ofBuffer gp.securityName.stored) secname ↔
      read < gp.securityName.subids) :
    sec2groupBehind secmodel secname gp = true ↔ secmodel :: read < groupOid gp := by
  simp only [sec2groupBehind, subid.toSizeT_eq, groupOid, List.cons_lt_cons_iff, Bool.or_eq_true,
    Bool.and_eq_true, decide_eq_true_eq, name_iff]
  exact or_congr_right (and_congr_left fun _ => eq_comm)

theorem sec2groupNext_eq {groupList : List VacmGroupEntry} (inRange : GroupsInRange groupList)
    (index : Oid) :
    sec2groupNext groupList index =
      (sec2groupRead index).bind fun read => groupList.find? fun gp => read < groupOid gp := by
  have missing (secmodel : Nat) :
      groupList.find? (sec2groupBehind secmodel (.ofBuffer [])) =
        groupList.find? fun gp => [secmodel, 0] < groupOid gp := by
    apply List.find?_congr
    intro gp mem
    have nothing : strcmp (.ofBuffer gp.securityName.stored) (.ofBuffer []) =
        lexCompare gp.securityName.subids (completed []) :=
      strcmp_stored _ (by simp [IsPart, byteValues])
    rw [Bool.eq_iff_iff, decide_eq_true_iff]
    apply sec2groupBehind_iff (inRange gp mem)
    rw [nothing, lexCompare_pos_iff]
    rfl
  rcases index with _ | ⟨secmodel, _ | ⟨subid, rest⟩⟩
  · exact missing 0
  · exact missing secmodel
  · simp only [sec2groupNext, readSubid, copySecname_eq, sec2groupRead, Nat.zero_add]
    by_cases readable : (subid :: rest).length ≤ vacmMaxString + 1 ∧
        ∀ subid' ∈ subid :: rest, subid' ≤ 255
    · rw [if_pos readable, if_pos readable]
      apply List.find?_congr
      intro gp mem
      rw [Bool.eq_iff_iff, decide_eq_true_iff]
      apply sec2groupBehind_iff (inRange gp mem)
      rw [strcmp_stored_pos_iff _ (by simp), byteValues_map_ofNat readable.2]
    · rw [if_neg readable, if_neg readable]
      rfl

/-- A string of an index as it is read for the next row, with what is left. -/
def completeString : Oid → Option (Oid × Oid)
  | [] => some ([0], [])
  | len :: op =>
      if vacmMaxString < len then none
      else
        let chars := (op.take len).map (min 255)
        some (len :: (chars ++ List.replicate (len - chars.length) 0), op.drop len)

/-- The index as `var_vacm_access` reads it: missing subidentifiers are zero, those of a string are
at most 255, and what is behind the index is left out. -/
def accessRead (index : Oid) : Option Oid :=
  (completeString index).bind fun (groupName, op) =>
    (completeString op).map fun (contextPrefix, op) =>
      groupName ++ (contextPrefix ++ [(readSubid op).1, (readSubid (readSubid op).2).1])

/-- The index as `var_vacm_view` reads it. -/
def viewRead (index : Oid) : Option Oid :=
  (completeString index).map fun (viewName, op) => viewName ++ readSubtree op

theorem toNat_clampSubid (subid : Nat) : (clampSubid subid).toNat = min 255 subid := by
  unfold clampSubid
  split
  · rename_i large
    rw [min_eq_left (le_of_lt large)]
    rfl
  · rw [UInt8.toNat_ofNat']
    omega

theorem byteValues_map_clampSubid (subids : Oid) :
    byteValues (subids.map clampSubid) = subids.map (min 255) := by
  simp only [byteValues, List.map_map]
  congr 1
  funext subid
  exact toNat_clampSubid subid

theorem byteValues_take_clampSubid {len : Nat} (short : len ≤ vacmMaxString) (op : Oid) :
    byteValues (((len :: op).take (len + 1)).map clampSubid) = len ::
      (op.take len).map (min 255) := by
  unfold vacmMaxString at short
  have len_eq : min 255 len = len := by omega
  rw [byteValues_map_clampSubid, List.take_succ_cons, List.map_cons, len_eq]

theorem completeString_eq (op : Oid) :
    completeString op = (readString op).map fun (bytes, rest) => (completed bytes, rest) := by
  cases op with
  | nil => rfl
  | cons len op =>
      simp only [completeString, readString]
      split
      · rfl
      · rename_i short
        simp only [completed, byteValues_take_clampSubid (le_of_not_gt short), Option.map_some,
          List.drop_succ_cons]

theorem isPart_readString {op rest : Oid} {bytes : List Byte}
    (readAs : readString op = some (bytes, rest)) : IsPart bytes := by
  cases op with
  | nil =>
      rcases Prod.mk.inj (Option.some.inj readAs) with ⟨rfl, -⟩
      simp [IsPart, byteValues]
  | cons len op =>
      simp only [readString] at readAs
      split at readAs
      · exact absurd readAs (by simp)
      · rename_i short
        rcases Prod.mk.inj (Option.some.inj readAs) with ⟨rfl, -⟩
        intro len' chars values
        rw [byteValues_take_clampSubid (le_of_not_gt short)] at values
        rcases List.cons.inj values with ⟨rfl, rfl⟩
        simp

theorem accessBehindIndex_iff {groupName contextPrefix : List Byte} (part : IsPart groupName)
    (part' : IsPart contextPrefix) (secmodel seclevel : Nat) {gp : VacmAccessEntry}
    (inRange : IsSubid gp.securityModel ∧ IsSubid gp.securityLevel) :
    accessBehindIndex (.ofBuffer groupName) (.ofBuffer contextPrefix) secmodel seclevel gp = true ↔
      completed groupName ++ (completed contextPrefix ++ [secmodel, seclevel]) < accessOid gp := by
  rw [accessOid, (counted_completed part).append_lt_append_iff (VacmString.counted_subids _),
    (counted_completed part').append_lt_append_iff (VacmString.counted_subids _)]
  simp only [accessBehindIndex, strcmp_stored _ part, strcmp_stored _ part',
    inRange.1.toSizeT_eq, inRange.2.toSizeT_eq]
  rcases lt_trichotomy gp.groupName.subids (completed groupName) with lt | same | gt
  · simp [lexCompare_of_lt lt, not_lt_of_gt lt, ne_of_gt lt]
  · rcases lt_trichotomy gp.contextPrefix.subids (completed contextPrefix) with lt' | same' | gt'
    · simp [same, lexCompare_of_lt lt', not_lt_of_gt lt', ne_of_gt lt']
    · rcases lt_trichotomy secmodel gp.securityModel.toNat with lt'' | same'' | gt''
      · simp [same, same', lt'', List.cons_lt_cons_iff]
      · simp [same, same', same'', List.cons_lt_cons_iff]
      · simp [same, same', gt'', not_lt_of_gt gt'', ne_of_gt gt'', List.cons_lt_cons_iff]
    · simp [same, lexCompare_of_gt gt', gt']
  · simp [lexCompare_of_gt gt, gt]

theorem accessNext_eq {accessList : List VacmAccessEntry} (inRange : AccessesInRange accessList)
    (index : Oid) :
    accessNext accessList index =
      (accessRead index).bind fun read => accessList.find? fun gp => read < accessOid gp := by
  simp only [accessNext, accessRead, completeString_eq]
  cases group : readString index with
  | none => rfl
  | some groupRead =>
      rcases groupRead with ⟨groupName, op⟩
      cases context : readString op with
      | none => simp [context]
      | some contextRead =>
          rcases contextRead with ⟨contextPrefix, op'⟩
          simp only [Option.map_some, Option.bind_some, context, bind]
          apply List.find?_congr
          intro gp mem
          rw [Bool.eq_iff_iff, decide_eq_true_iff]
          exact accessBehindIndex_iff (isPart_readString group) (isPart_readString context) _ _
            (inRange gp mem)

theorem viewBehindIndex_iff {viewName : List Byte} (part : IsPart viewName) (subtree : Oid)
    (gp : VacmViewEntry) :
    viewBehindIndex (.ofBuffer viewName) subtree gp = true ↔
      completed viewName ++ subtree < viewOid gp := by
  rw [viewOid, (counted_completed part).append_lt_append_iff (VacmString.counted_subids _)]
  simp only [viewBehindIndex, strcmp_stored _ part, snmpOidCompare, lexCompare_pos_iff,
    lexCompare_eq_zero_iff, Bool.or_eq_true, Bool.and_eq_true, decide_eq_true_eq]
  rw [or_comm]
  exact or_congr_right (and_congr_left fun _ => eq_comm)

theorem viewNext_eq (viewList : List VacmViewEntry) (index : Oid) :
    viewNext viewList index =
      (viewRead index).bind fun read => viewList.find? fun gp => read < viewOid gp := by
  simp only [viewNext, viewRead, completeString_eq]
  cases name : readString index with
  | none => rfl
  | some nameRead =>
      rcases nameRead with ⟨viewName, op⟩
      simp only [Option.map_some, Option.bind_some, bind]
      apply List.find?_congr
      intro gp _
      rw [Bool.eq_iff_iff, decide_eq_true_iff]
      exact viewBehindIndex_iff (isPart_readString name) _ gp

/-- The part of a requested name behind the name of the column. -/
def requestedIndex (vpName name : Oid) : Oid := (columnName vpName name).drop vpName.length

/-- No row lies between the requested name and what was read of it; if nothing was read, none is
behind the requested name. -/
def ReadsAlike {α : Type} (oid : α → Oid) (rows : List α) (read : Option Oid) (vpName name : Oid) :
    Prop :=
  ∀ row ∈ rows, (name < vpName ++ oid row ↔ ∃ index ∈ read, index < oid row)

theorem isNext_read_iff {α : Type} {oid : α → Oid} {rows : List α} (sorted : SortedBy oid rows)
    (read : Option Oid) (vpName name : Oid) :
    IsNext (fun row => vpName ++ oid row) rows name
        (read.bind fun index => rows.find? fun row => index < oid row) ↔
      ReadsAlike oid rows read vpName name := by
  have sorted' : SortedBy (fun row => vpName ++ oid row) rows :=
    sorted.of_lt fun first _ second _ => (append_lt_append_iff_left vpName).mp
  cases read with
  | none =>
      constructor
      · intro noneNext row mem
        exact iff_of_false (noneNext row mem) (by simp)
      · intro agree row mem behind
        rcases (agree row mem).mp behind with ⟨index, absurdity, -⟩
        exact absurd absurdity (by simp)
  | some index =>
      have search : IsNext (fun row => vpName ++ oid row) rows name
          (rows.find? fun row => index < oid row) ↔
            ∀ row ∈ rows, (name < vpName ++ oid row ↔ index < oid row) := by
        apply isNext_find?_iff sorted'
        · intro row _
          exact decide_eq_true_iff
        · intro first _ second _ behind le
          apply lt_of_lt_of_le behind
          apply le_of_not_gt
          intro gt
          exact absurd ((append_lt_append_iff_left vpName).mpr gt) (not_lt_of_ge le)
      rw [Option.bind_some, search]
      simp [ReadsAlike]

/-- Every row behind the requested name is behind what was read of it, and every row behind what was
read is the next row of the requested name or stands behind that row in the list. -/
def ReadsInOrder {α : Type} (oid : α → Oid) (rows : List α) (read : Option Oid)
    (vpName name : Oid) : Prop :=
  (∀ row ∈ rows, name < vpName ++ oid row → ∃ index ∈ read, index < oid row) ∧
    ∀ front row back, rows = front ++ row :: back → (∃ index ∈ read, index < oid row) →
      ∃ next ∈ front ++ [row], IsNext (fun row => vpName ++ oid row) rows name (some next)

theorem isNext_read_iff_readsInOrder {α : Type} {oid : α → Oid} {rows : List α}
    (read : Option Oid) (vpName name : Oid) :
    IsNext (fun row => vpName ++ oid row) rows name
        (read.bind fun index => rows.find? fun row => index < oid row) ↔
      ReadsInOrder oid rows read vpName name := by
  cases read with
  | none =>
      constructor
      · intro noneNext
        refine ⟨fun row mem behind => absurd behind (noneNext row mem), ?_⟩
        rintro front row back - ⟨index, absurdity, -⟩
        exact absurd absurdity (by simp)
      · rintro ⟨reads, -⟩ row mem behind
        rcases reads row mem behind with ⟨index, absurdity, -⟩
        exact absurd absurdity (by simp)
  | some index =>
      rw [Option.bind_some]
      simp only [ReadsInOrder, Option.mem_some_iff, exists_eq_left']
      cases found : rows.find? fun row => index < oid row with
      | none =>
          have noneBehind : ∀ row ∈ rows, ¬ index < oid row := by
            simpa using List.find?_eq_none.mp found
          constructor
          · intro noneNext
            refine ⟨fun row mem behind => absurd behind (noneNext row mem), ?_⟩
            rintro front row back rfl behind
            exact absurd behind (noneBehind row (by simp))
          · rintro ⟨reads, -⟩ row mem behind
            exact noneBehind row mem (reads row mem behind)
      | some first =>
          rcases List.find?_eq_some_iff_append.mp found with
            ⟨firstBehind, before, behind, rows_eq, notBefore⟩
          have firstBehind' : index < oid first := of_decide_eq_true firstBehind
          have notBefore' : ∀ row ∈ before, ¬ index < oid row := by simpa using notBefore
          constructor
          · intro isNext
            constructor
            · intro row mem rowBehind
              have le := isNext.2 row mem rowBehind
              exact lt_of_lt_of_le firstBehind' (le_of_not_gt fun gt =>
                not_lt_of_ge le ((append_lt_append_iff_left vpName).mpr gt))
            · intro front row back list_eq rowBehind
              refine ⟨first, ?_, isNext⟩
              have found' := found
              rw [list_eq, List.append_cons, List.find?_append] at found'
              cases reached : (front ++ [row]).find? fun row => index < oid row with
              | none =>
                  exact absurd (decide_eq_true rowBehind)
                    (List.find?_eq_none.mp reached row (by simp))
              | some other =>
                  rw [reached, Option.some_or] at found'
                  rcases Option.some.inj found' with rfl
                  exact List.mem_of_find?_eq_some reached
          · rintro ⟨reads, inOrder⟩
            rcases inOrder before first behind rows_eq firstBehind' with ⟨next, mem, isNext⟩
            rcases List.mem_append.mp mem with inFront | isFirst
            · exact absurd (reads next isNext.1.1 isNext.1.2) (notBefore' next inFront)
            · rw [List.mem_singleton.mp isFirst] at isNext
              exact isNext

theorem readsInOrder_iff_readsAlike {α : Type} {oid : α → Oid} {rows : List α}
    (sorted : SortedBy oid rows) (read : Option Oid) (vpName name : Oid) :
    ReadsInOrder oid rows read vpName name ↔ ReadsAlike oid rows read vpName name := by
  rw [← isNext_read_iff_readsInOrder, isNext_read_iff sorted]

theorem isNext_varVacmSec2group_iff {groupList : List VacmGroupEntry} (table : GroupTable groupList)
    (inRange : GroupsInRange groupList) (vpName name : Oid) :
    IsNext (fun gp => vpName ++ groupOid gp) groupList name
        ((varVacmSec2group groupList vpName name false).map Prod.fst) ↔
      ReadsAlike groupOid groupList (sec2groupRead (requestedIndex vpName name)) vpName name := by
  rw [← isNext_read_iff (table.sorted_groupOid inRange), ← sec2groupNext_eq inRange]
  simp [varVacmSec2group, requestedIndex, Function.comp_def]

theorem isNext_varVacmAccess_iff {accessList : List VacmAccessEntry}
    (inRange : AccessesInRange accessList) (vpName name : Oid) :
    IsNext (fun gp => vpName ++ accessOid gp) accessList name
        ((varVacmAccess accessList vpName name false).map Prod.fst) ↔
      ReadsInOrder accessOid accessList (accessRead (requestedIndex vpName name)) vpName name := by
  rw [← isNext_read_iff_readsInOrder, ← accessNext_eq inRange]
  simp [varVacmAccess, requestedIndex, Function.comp_def]

theorem isNext_varVacmView_iff {viewList : List VacmViewEntry} (table : ViewTable viewList)
    (vpName name : Oid) :
    IsNext (fun gp => vpName ++ viewOid gp) viewList name
        ((varVacmView viewList vpName name false).map Prod.fst) ↔
      ReadsAlike viewOid viewList (viewRead (requestedIndex vpName name)) vpName name := by
  rw [← isNext_read_iff table.sorted_viewOid, ← viewNext_eq]
  simp [varVacmView, requestedIndex, Function.comp_def]

end NetSnmp
