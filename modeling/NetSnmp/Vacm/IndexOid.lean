import NetSnmp.OidCompare
import NetSnmp.TableWalk
import NetSnmp.Vacm.Variables

/-!
# The indexes of the rows as object identifiers

A row of one of the tables has an index, in which strings are preceded by their
lengths.  The lists are in the lexicographic order of these indexes, and so are
the comparisons that the routines make with what they have read of a request.
-/

namespace NetSnmp

section Counted

variable {left right left' right' : List Nat}

def Counted : List Nat → Prop
  | [] => False
  | count :: rest => rest.length = count

theorem append_lt_append_iff (same : left.length = right.length) :
    left ++ left' < right ++ right' ↔ left < right ∨ (left = right ∧ left' < right') := by
  induction left generalizing right with
  | nil =>
      rcases List.length_eq_zero_iff.mp same.symm with rfl
      simp
  | cons first rest ih =>
      cases right with
      | nil => exact absurd same (by simp)
      | cons first' rest' =>
          have sameRest : rest.length = rest'.length := by simpa using same
          simp only [List.cons_append, List.cons_lt_cons_iff, ih sameRest, List.cons.injEq]
          constructor
          · rintro (lt | ⟨rfl, lt | ⟨rfl, lt⟩⟩)
            · exact .inl (.inl lt)
            · exact .inl (.inr ⟨rfl, lt⟩)
            · exact .inr ⟨⟨rfl, rfl⟩, lt⟩
          · rintro ((lt | ⟨rfl, lt⟩) | ⟨⟨rfl, rfl⟩, lt⟩)
            · exact .inl lt
            · exact .inr ⟨rfl, .inl lt⟩
            · exact .inr ⟨rfl, .inr ⟨rfl, lt⟩⟩

theorem Counted.append_lt_append_iff (counted : Counted left) (counted' : Counted right) :
    left ++ left' < right ++ right' ↔ left < right ∨ (left = right ∧ left' < right') := by
  cases left with
  | nil => exact absurd counted id
  | cons count rest =>
      cases right with
      | nil => exact absurd counted' id
      | cons count' rest' =>
          by_cases same : count = count'
          · subst same
            apply NetSnmp.append_lt_append_iff
            simp only [Counted] at counted counted'
            simp [counted, counted']
          · simp [List.cons_lt_cons_iff, same]

end Counted

section UpToZero

def upToZero (values : List Nat) : List Nat := values.takeWhile (· ≠ 0)

theorem byteValues_takeWhile (bytes : List Byte) :
    byteValues (bytes.takeWhile (· ≠ 0)) = upToZero (byteValues bytes) := by
  induction bytes with
  | nil => rfl
  | cons byte rest ih =>
      have zero_iff : byte.toNat = 0 ↔ byte = 0 := by
        rw [← UInt8.toNat_inj]
        rfl
      simp only [upToZero, byteValues, List.takeWhile_cons, List.map_cons] at ih ⊢
      by_cases zero : byte = 0
      · simp [zero]
      · simpa [zero, zero_iff] using ih

theorem upToZero_append_zeros (values : List Nat) (count : Nat) :
    upToZero (values ++ List.replicate count 0) = upToZero values := by
  induction values with
  | nil => cases count with
    | zero => rfl
    | succ count => simp [upToZero, List.replicate_succ]
  | cons value rest ih =>
      simp only [upToZero, List.cons_append, List.takeWhile_cons] at ih ⊢
      rw [ih]

theorem upToZero_eq_self {values : List Nat} (noZero : 0 ∉ values) : upToZero values = values := by
  apply List.takeWhile_eq_self_iff.mpr
  intro value mem
  simpa using ne_of_mem_of_not_mem mem noZero

theorem upToZero_lt_iff {values others : List Nat} (noZero : 0 ∉ others) :
    upToZero values < others ↔ values < others := by
  induction values generalizing others with
  | nil => rfl
  | cons value rest ih =>
      cases others with
      | nil => simp
      | cons other others =>
          rcases not_or.mp (List.mem_cons.not.mp noZero) with ⟨ne, noZero'⟩
          by_cases zero : value = 0
          · have pos : 0 < other := by omega
            simp [upToZero, zero, pos, List.cons_lt_cons_iff]
          · have step : upToZero (value :: rest) = value :: upToZero rest := by
              simp [upToZero, zero]
            rw [step, List.cons_lt_cons_iff, List.cons_lt_cons_iff, ih noZero']

theorem upToZero_eq_iff {values others : List Nat} (noZero : 0 ∉ others)
    (same : values.length = others.length) : upToZero values = others ↔ values = others := by
  constructor
  · intro eq
    have whole : upToZero values = values :=
      List.IsPrefix.eq_of_length (List.takeWhile_prefix _) (by rw [eq, same])
    rw [← whole, eq]
  · rintro rfl
    exact upToZero_eq_self noZero

end UpToZero

theorem lexCompare_congr {left right left' right' : List Nat} (gt : right < left ↔ right' < left')
    (eq : left = right ↔ left' = right') : lexCompare left right = lexCompare left' right' := by
  rcases lt_trichotomy left right with lt | same | greater
  · have lt' : left' < right' := by
      rcases lt_trichotomy left' right' with lt' | same' | greater'
      · exact lt'
      · exact absurd (eq.mpr same') (ne_of_lt lt)
      · exact absurd (gt.mpr greater') (not_lt_of_gt lt)
    rw [lexCompare_of_lt lt, lexCompare_of_lt lt']
  · rw [same, lexCompare_self, eq.mp same, lexCompare_self]
  · rw [lexCompare_of_gt greater, lexCompare_of_gt (gt.mp greater)]

namespace VacmString

/-- The string in an index: its length and its characters. -/
def subids (name : VacmString) : Oid := name.str.strlen :: byteValues name.str.chars

theorem order_eq_subids (name : VacmString) : name.order = name.subids := by
  have short := name.short
  unfold vacmMaxString at short
  have length_eq : (UInt8.ofNat name.str.strlen).toNat = name.str.strlen := by
    rw [UInt8.toNat_ofNat']
    omega
  simp [order, stored, subids, byteValues, length_eq]

theorem counted_subids (name : VacmString) : Counted name.subids := by
  simp [subids, Counted, byteValues, CString.strlen]

theorem length_chars (name : VacmString) :
    (byteValues name.str.chars).length = name.str.strlen := by
  simp [byteValues, CString.strlen]

theorem take_chars_append (name : VacmString) (rest : Oid) :
    (byteValues name.str.chars ++ rest).take name.str.strlen = byteValues name.str.chars := by
  rw [← length_chars, List.take_left']
  rfl

theorem drop_chars_append (name : VacmString) (rest : Oid) :
    (byteValues name.str.chars ++ rest).drop name.str.strlen = rest := by
  rw [← length_chars, List.drop_left']
  rfl

theorem zero_notMem_chars (name : VacmString) : 0 ∉ byteValues name.str.chars := by
  intro mem
  rcases List.mem_map.mp mem with ⟨char, charMem, zero⟩
  have char_eq : char = 0 := UInt8.toNat_inj.mp zero
  rw [char_eq] at charMem
  exact name.str.noNul charMem

theorem byteValues_ofBuffer_stored (name : VacmString) :
    byteValues (CString.ofBuffer name.stored).chars = upToZero name.subids := by
  rw [← order_eq_subids]
  exact byteValues_takeWhile name.stored

end VacmString

/-- What is read of a string: nothing is an empty string, and missing characters are zero. -/
def completed (bytes : List Byte) : Oid :=
  match byteValues bytes with
  | [] => [0]
  | len :: chars => len :: (chars ++ List.replicate (len - chars.length) 0)

def IsPart (bytes : List Byte) : Prop :=
  ∀ len chars, byteValues bytes = len :: chars → chars.length ≤ len

theorem counted_completed {bytes : List Byte} (part : IsPart bytes) :
    Counted (completed bytes) := by
  unfold completed
  cases values : byteValues bytes with
  | nil => rfl
  | cons len chars =>
      have le := part len chars values
      simp [Counted]
      omega

theorem upToZero_completed (bytes : List Byte) :
    upToZero (completed bytes) = upToZero (byteValues bytes) := by
  unfold completed
  cases byteValues bytes with
  | nil => rfl
  | cons len chars => exact upToZero_append_zeros (len :: chars) _

theorem strcmp_stored (name : VacmString) {bytes : List Byte} (part : IsPart bytes) :
    strcmp (.ofBuffer name.stored) (.ofBuffer bytes) =
      lexCompare name.subids (completed bytes) := by
  have counted := counted_completed part
  have right_eq : byteValues (CString.ofBuffer bytes).chars = upToZero (completed bytes) := by
    rw [upToZero_completed]
    exact byteValues_takeWhile bytes
  rw [strcmp, name.byteValues_ofBuffer_stored, right_eq]
  cases completed_eq : completed bytes with
  | nil => simp [completed_eq, Counted] at counted
  | cons len chars =>
      simp only [completed_eq, Counted] at counted
      by_cases same : name.str.strlen = len
      · -- the characters are compared up to the first zero
        by_cases zero : len = 0
        · subst zero
          have empty := List.length_eq_zero_iff.mp counted
          have empty' := List.length_eq_zero_iff.mp same
          simp [VacmString.subids, same, empty, empty', byteValues, upToZero]
        · have sameLength : chars.length = (byteValues name.str.chars).length := by
            simpa [byteValues, counted, CString.strlen] using same.symm
          have noZero := name.zero_notMem_chars
          have left_eq : upToZero name.subids = name.subids := by
            apply upToZero_eq_self
            simp [VacmString.subids, noZero, same]
            omega
          have step : upToZero (len :: chars) = len :: upToZero chars := by
            simp [upToZero, zero]
          rw [left_eq, step, VacmString.subids, same]
          apply lexCompare_congr
          · simp [upToZero_lt_iff noZero]
          · simp only [List.cons.injEq, true_and]
            exact eq_comm.trans ((upToZero_eq_iff noZero sameLength).trans eq_comm)
      · -- the lengths decide
        by_cases zero : name.str.strlen = 0
        · have pos : 0 < len := by omega
          simp [VacmString.subids, upToZero, zero, pos, lexCompare, pos.ne, pos.ne']
        · by_cases zero' : len = 0
          · have pos : 0 < name.str.strlen := by omega
            simp [VacmString.subids, upToZero, zero', lexCompare, pos.ne']
          · simp [VacmString.subids, upToZero, zero, zero', lexCompare, same]

theorem strcmp_stored_pos_iff (name : VacmString) {bytes : List Byte} (some_bytes : bytes ≠ []) :
    0 < strcmp (.ofBuffer name.stored) (.ofBuffer bytes) ↔ byteValues bytes < name.subids := by
  have right_eq : byteValues (CString.ofBuffer bytes).chars = upToZero (byteValues bytes) :=
    byteValues_takeWhile bytes
  rw [strcmp, lexCompare_pos_iff, name.byteValues_ofBuffer_stored, right_eq]
  by_cases zero : name.str.strlen = 0
  · have empty := List.length_eq_zero_iff.mp zero
    cases bytes with
    | nil => exact absurd rfl some_bytes
    | cons byte rest =>
        have subids_eq : name.subids = [0] := by simp [VacmString.subids, zero, empty, byteValues]
        have notLess : ¬ byteValues (byte :: rest) < [0] := by
          intro less
          rcases List.cons_lt_cons_iff.mp less with lt | ⟨-, lt⟩
          · exact absurd lt (by simp)
          · exact absurd lt (by simp)
        rw [subids_eq]
        exact iff_of_false (by simp [upToZero]) notLess
  · have noZero : 0 ∉ name.subids := by
      simp only [VacmString.subids, List.mem_cons, not_or]
      exact ⟨fun eq => zero eq.symm, name.zero_notMem_chars⟩
    rw [upToZero_eq_self noZero, upToZero_lt_iff noZero]

def IsSubid (value : Int) : Prop := 0 ≤ value ∧ value < 2 ^ 31

theorem IsSubid.toSizeT_eq {value : Int} (subid : IsSubid value) : toSizeT value = value.toNat :=
  toSizeT_of_nonneg subid.1 (by
    have := subid.2
    omega)

theorem IsSubid.toNat_lt_iff {value value' : Int} (subid : IsSubid value)
    (subid' : IsSubid value') :
    value.toNat < value'.toNat ↔ value < value' := by
  have := subid.1
  have := subid'.1
  omega

theorem IsSubid.toNat_eq_iff {value value' : Int} (subid : IsSubid value)
    (subid' : IsSubid value') :
    value.toNat = value'.toNat ↔ value = value' := by
  have := subid.1
  have := subid'.1
  omega

def groupOid (gp : VacmGroupEntry) : Oid := gp.securityModel.toNat :: gp.securityName.subids

def accessOid (gp : VacmAccessEntry) : Oid :=
  gp.groupName.subids ++ (gp.contextPrefix.subids ++
    [gp.securityModel.toNat, gp.securityLevel.toNat])

def viewOid (gp : VacmViewEntry) : Oid := gp.viewName.subids ++ storedSubtree gp.viewSubtree

/-- The rows of the group table have indexes that object identifiers can hold. -/
def GroupsInRange (groupList : List VacmGroupEntry) : Prop :=
  ∀ gp ∈ groupList, IsSubid gp.securityModel

/-- The rows of the access table have indexes that object identifiers can hold. -/
def AccessesInRange (accessList : List VacmAccessEntry) : Prop :=
  ∀ gp ∈ accessList, IsSubid gp.securityModel ∧ IsSubid gp.securityLevel

theorem groupOid_lt_iff {gp gp' : VacmGroupEntry} (subid : IsSubid gp.securityModel)
    (subid' : IsSubid gp'.securityModel) :
    groupOid gp < groupOid gp' ↔ groupIndex gp < groupIndex gp' := by
  simp only [groupOid, groupIndex, List.cons_lt_cons_iff, Prod.Lex.toLex_lt_toLex,
    VacmString.order_eq_subids, subid.toNat_lt_iff subid', subid.toNat_eq_iff subid']

theorem accessOid_lt_iff {gp gp' : VacmAccessEntry}
    (inRange : IsSubid gp.securityModel ∧ IsSubid gp.securityLevel)
    (inRange' : IsSubid gp'.securityModel ∧ IsSubid gp'.securityLevel) :
    accessOid gp < accessOid gp' ↔ accessIndex gp < accessIndex gp' := by
  simp only [accessOid, accessIndex, Prod.Lex.toLex_lt_toLex, VacmString.order_eq_subids]
  rw [(VacmString.counted_subids _).append_lt_append_iff (VacmString.counted_subids _),
    (VacmString.counted_subids _).append_lt_append_iff (VacmString.counted_subids _)]
  simp only [List.cons_lt_cons_iff, and_false, or_false, lt_irrefl,
    inRange.1.toNat_lt_iff inRange'.1, inRange.1.toNat_eq_iff inRange'.1,
    inRange.2.toNat_lt_iff inRange'.2]

theorem viewOid_lt_iff {gp gp' : VacmViewEntry} :
    viewOid gp < viewOid gp' ↔ viewIndex gp < viewIndex gp' := by
  simp only [viewOid, viewIndex, Prod.Lex.toLex_lt_toLex, VacmString.order_eq_subids]
  exact (VacmString.counted_subids _).append_lt_append_iff (VacmString.counted_subids _)

theorem GroupTable.sorted_groupOid {groupList : List VacmGroupEntry} (table : GroupTable groupList)
    (inRange : GroupsInRange groupList) : SortedBy groupOid groupList :=
  table.sorted.of_lt fun gp mem gp' mem' =>
    (groupOid_lt_iff (inRange gp mem) (inRange gp' mem')).mp

theorem AccessTable.sorted_accessOid {accessList : List VacmAccessEntry}
    (table : AccessTable accessList) (inRange : AccessesInRange accessList) :
    SortedBy accessOid accessList :=
  table.sorted.of_lt fun gp mem gp' mem' =>
    (accessOid_lt_iff (inRange gp mem) (inRange gp' mem')).mp

theorem ViewTable.sorted_viewOid {viewList : List VacmViewEntry} (table : ViewTable viewList) :
    SortedBy viewOid viewList :=
  table.sorted.of_lt fun _ _ _ _ => viewOid_lt_iff.mp

end NetSnmp
