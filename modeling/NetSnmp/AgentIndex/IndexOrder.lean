import NetSnmp.AgentIndex.Registry

/-!
# The order of index values

The values of a type are in order, and where the search of a row compares them and
where a new value is made up from the last one these are the order and a greater
value.
-/

namespace NetSnmp

namespace IndexValue

def Lt : IndexValue → IndexValue → Prop
  | .integer value, .integer other => value < other
  | .octetStr string, .octetStr other => byteValues string < byteValues other
  | .objectId objid, .objectId other => objid < other
  | _, _ => False

/-- The comparison of the two values is not mistaken: the difference of two integers fits an `int`,
and of two strings none begins with the other one. -/
def Distinguished : IndexValue → IndexValue → Prop
  | .integer value, .integer other => -2 ^ 31 ≤ value - other ∧ value - other < 2 ^ 31
  | .octetStr string, .octetStr other => string <+: other ∨ other <+: string → string = other
  | _, _ => True

def Storable : IndexValue → Prop
  | .integer value => value ≤ 0xffffffff
  | _ => True

/-- There is a next value of the same length: what follows the part that is counted up is not at its
end, and no string ends before that part or in it. -/
def Increments : IndexValue → Prop
  | .integer value => -2 ^ 63 ≤ value ∧ value + 1 < 2 ^ 63
  | .octetStr string => string.length < sizeofBuf ∧
      ∃ front last count, string = front ++ last :: List.replicate count 122 ∧
        0 ∉ front ∧ last ≠ 122 ∧ last ≠ 255
  | .objectId objid =>
      ∃ front last count, objid = front ++ last :: List.replicate count 255 ∧
        last ≠ 255 ∧ last + 1 < 2 ^ 64 ∧ (front = [] → last = 2 → count = 0)

section Order

variable {value other third : IndexValue}

theorem Lt.type_eq (lt : Lt value other) : value.type = other.type := by
  cases value <;> cases other <;> first | rfl | exact lt.elim

theorem Lt.trans (lt : Lt value other) (lt' : Lt other third) : Lt value third := by
  cases value <;> cases other <;> try exact lt.elim
  all_goals cases third <;> try exact lt'.elim
  · exact lt_trans (α := Int) lt lt'
  · exact lt_trans (α := List Nat) lt lt'
  · exact lt_trans (α := List Nat) lt lt'

theorem Lt.irrefl (value : IndexValue) : ¬ Lt value value := by
  cases value with
  | integer value => exact lt_irrefl value
  | octetStr string => exact lt_irrefl (byteValues string)
  | objectId objid => exact lt_irrefl objid

theorem Lt.ne (lt : Lt value other) : value ≠ other := by
  rintro rfl
  exact Lt.irrefl value lt

theorem trichotomy (type_eq : value.type = other.type) :
    Lt value other ∨ value = other ∨ Lt other value := by
  cases value <;> cases other <;> try cases type_eq
  · rw [integer.injEq]
    exact lt_trichotomy _ _
  · rw [octetStr.injEq, ← byteValues_inj]
    exact lt_trichotomy _ _
  · rw [objectId.injEq]
    exact lt_trichotomy _ _

theorem exists_compare (type_eq : value.type = other.type) : ∃ res, value.compare other =
    some res := by
  cases value <;> cases other <;> try cases type_eq
  all_goals exact ⟨_, rfl⟩

theorem take_lt_iff {as bs : List Nat} (ne : as.take (min as.length bs.length) ≠
    bs.take (min as.length bs.length)) :
    as.take (min as.length bs.length) < bs.take (min as.length bs.length) ↔ as < bs := by
  induction as generalizing bs with
  | nil => simp at ne
  | cons a as ih =>
      cases bs with
      | nil => simp at ne
      | cons b bs =>
          have min_eq : min (a :: as).length (b :: bs).length = min as.length bs.length + 1 :=
            Nat.add_min_add_right _ _ _
          simp only [min_eq, List.take_succ_cons, List.cons_lt_cons_iff] at ne ⊢
          by_cases same : a = b
          · subst same
            have ne' : as.take (min as.length bs.length) ≠ bs.take (min as.length bs.length) :=
              fun same => ne (by rw [same])
            rw [ih ne']
          · simp [same]

theorem take_eq_iff {string other : List Byte}
    (distinguished : string <+: other ∨ other <+: string → string = other) :
    string.take (min string.length other.length) = other.take (min string.length other.length) ↔
      string = other := by
  constructor
  · intro same
    apply distinguished
    rcases Nat.le_total string.length other.length with le | le
    · left
      rw [Nat.min_eq_left le, List.take_length] at same
      rw [same]
      exact List.take_prefix _ _
    · right
      rw [Nat.min_eq_right le, List.take_length] at same
      rw [← same]
      exact List.take_prefix _ _
  · intro same
    rw [same]

theorem compare_spec (type_eq : value.type = other.type)
    (distinguished : Distinguished value other) :
    ∃ res, value.compare other = some res ∧ (res < 0 ↔ Lt value other) ∧
      (res = 0 ↔ value = other) := by
  cases value <;> cases other <;> try cases type_eq
  · rename_i value other
    refine ⟨_, rfl, ?_, ?_⟩
    · rw [toCInt_eq_self_of_range distinguished.1 distinguished.2]
      exact sub_neg
    · rw [toCInt_eq_self_of_range distinguished.1 distinguished.2, Int.sub_eq_zero, integer.injEq]
  · rename_i string other
    have same_iff := take_eq_iff distinguished
    refine ⟨_, rfl, ?_, ?_⟩
    · by_cases same : string = other
      · subst same
        simp only [memcmp, lexCompare_self]
        exact iff_of_false (by omega) (Lt.irrefl _)
      · have ne : (byteValues string).take
          (min (byteValues string).length (byteValues other).length) ≠
            (byteValues other).take (min (byteValues string).length (byteValues other).length) := by
          simp only [byteValues, List.length_map, ← List.map_take]
          exact fun absurdity => same (same_iff.mp (byteValues_inj.mp absurdity))
        have lt_iff := take_lt_iff ne
        simp only [byteValues, List.length_map, ← List.map_take] at lt_iff
        rw [memcmp, lexCompare_neg_iff]
        exact lt_iff
    · rw [memcmp_eq_zero_iff, same_iff, octetStr.injEq]
  · rename_i objid other
    exact ⟨_, rfl, lexCompare_neg_iff, by rw [snmpOidCompare, lexCompare_eq_zero_iff,
      objectId.injEq]⟩

theorem stored_eq (storable : Storable value) : value.stored = value := by
  cases value with
  | integer value => exact if_neg (not_lt_of_ge storable)
  | octetStr string => rfl
  | objectId objid => rfl

@[simp]
theorem stored_type (value : IndexValue) : value.stored.type = value.type := by
  cases value with
  | integer value =>
      rw [stored]
      split <;> rfl
  | octetStr string => rfl
  | objectId objid => rfl

theorem firstIndexValue_type (name : Oid) (type : IndexType) :
    (firstIndexValue name type).type = type := by
  cases type with
  | integer => rfl
  | octetStr => rfl
  | objectId =>
      rw [firstIndexValue]
      split <;> rfl

end Order

section Increment

theorem carryString_spec (valLen : Nat) {front rest : List Byte} {last : Byte} (ne : last ≠ 122)
    (count : Nat) :
    carryString valLen (front.length + count) (front ++ last :: List.replicate count 122 ++ rest) =
      (front ++ last :: List.replicate count 97 ++ rest, front.length) := by
  induction count generalizing rest with
  | zero =>
      have here : (front ++ last :: List.replicate 0 122 ++ rest)[front.length]? ≠ some 122 := by
        simpa using ne
      cases front with
      | nil => rw [List.length_nil, Nat.add_zero, carryString, if_neg (by simpa using here)]; rfl
      | cons char front =>
          rw [Nat.add_zero, List.length_cons, carryString, if_neg (by simpa using here)]
          rfl
  | succ count ih =>
      have split (char : Byte) : front ++ last :: List.replicate (count + 1) char ++ rest =
          (front ++ last :: List.replicate count char) ++ char :: rest := by
        rw [List.replicate_succ']
        simp
      have length_eq : (front ++ last :: List.replicate count (122 : Byte)).length =
          front.length + count + 1 := by
        simp only [List.length_append, List.length_cons, List.length_replicate]
        omega
      rw [split, ← Nat.add_assoc, carryString, if_pos]
      · rw [← length_eq, List.set_append_right _ _ le_rfl]
        simp only [Nat.sub_self, List.set_cons_zero]
        rw [ih, split]
      · rw [← length_eq]
        simp

theorem carryObjid_spec {front rest : Oid} {last : Nat} (ne : last ≠ 255) (count : Nat)
    (noRollover : front = [] → last = 2 → count = 0) :
    carryObjid (front.length + count) (front ++ last :: List.replicate count 255 ++ rest) =
      some (front ++ last :: List.replicate count 1 ++ rest, front.length) := by
  induction count generalizing rest with
  | zero =>
      have here : (front ++ last :: List.replicate 0 255 ++ rest)[front.length]? ≠ some 255 := by
        simpa using ne
      cases front with
      | nil => rw [List.length_nil, Nat.add_zero, carryObjid, if_neg (by simpa using here)]; rfl
      | cons subid front =>
          rw [Nat.add_zero, List.length_cons, carryObjid, if_neg (by simpa using here)]
          rfl
  | succ count ih =>
      have split (subid : Nat) : front ++ last :: List.replicate (count + 1) subid ++ rest =
          (front ++ last :: List.replicate count subid) ++ subid :: rest := by
        rw [List.replicate_succ']
        simp
      have length_eq : (front ++ last :: List.replicate count 255).length =
          front.length + count + 1 := by
        simp only [List.length_append, List.length_cons, List.length_replicate]
        omega
      have noRollover' : ¬ (front = [] ∧ last = 2) := fun both =>
        Nat.succ_ne_zero count (noRollover both.1 both.2)
      rw [split, ← Nat.add_assoc, carryObjid, if_pos]
      · rw [← length_eq, List.set_append_right _ _ le_rfl]
        simp only [Nat.sub_self, List.set_cons_zero]
        rw [if_neg, ih fun isEmpty isTwo => absurd ⟨isEmpty, isTwo⟩ noRollover', split]
        rintro ⟨atFront, isTwo⟩
        have isEmpty : front = [] := List.eq_nil_of_length_eq_zero (by omega)
        rw [isEmpty] at isTwo
        exact noRollover' ⟨isEmpty, by simpa using isTwo⟩
      · rw [← length_eq]
        simp

theorem modify_append_cons {α : Type} (front back : List α) (element : α) (f : α → α) :
    (front ++ element :: back).modify front.length f = front ++ f element :: back := by
  induction front with
  | nil => rfl
  | cons first front ih => rw [List.cons_append, List.length_cons, List.modify_succ_cons, ih,
    List.cons_append]

theorem toNat_next {char : Byte} (ne : char ≠ 255) : (char + 1).toNat = char.toNat + 1 := by
  have ne' : char.toNat ≠ 255 := fun same => ne (UInt8.toNat_inj.mp same)
  have lt := char.toNat_lt
  rw [UInt8.toNat_add, show (1 : UInt8).toNat = 1 from rfl]
  omega

theorem incrementString_spec {front : List Byte} {last : Byte} {count : Nat} (noNul : 0 ∉ front)
    (ne : last ≠ 122) (ne' : last ≠ 255)
    (small : (front ++ last :: List.replicate count 122).length < sizeofBuf) :
    incrementString (front ++ last :: List.replicate count 122) =
      some (front ++ (last + 1) :: List.replicate count 97) := by
  have length_eq : (front ++ last :: List.replicate count (122 : Byte)).length =
      front.length + count + 1 := by
    simp only [List.length_append, List.length_cons, List.length_replicate]
    omega
  have succ_ne : last + 1 ≠ 0 := by
    intro zero
    have next := toNat_next ne'
    rw [zero] at next
    exact absurd next (Nat.succ_ne_zero _).symm
  rw [length_eq] at small
  rw [incrementString, if_neg (by simp; omega), length_eq, Nat.add_sub_cancel]
  simp only [carryString_spec _ ne]
  rw [if_neg (by omega), List.append_assoc, List.cons_append, modify_append_cons]
  rw [List.takeWhile_append_of_pos, List.takeWhile_cons_of_pos, List.takeWhile_append_of_pos]
  · rw [List.takeWhile_replicate_eq_filter, List.filter_replicate_of_neg (by simp), List.append_nil]
  · intro char mem
    rw [List.eq_of_mem_replicate mem]
    rfl
  · simpa using succ_ne
  · intro char mem
    simpa using ne_of_mem_of_not_mem mem noNul

theorem incrementObjid_spec {front : Oid} {last count : Nat} (ne : last ≠ 255)
    (small : last + 1 < 2 ^ 64) (noRollover : front = [] → last = 2 → count = 0) :
    incrementObjid (front ++ last :: List.replicate count 255) =
      some (front ++ (last + 1) :: List.replicate count 1) := by
  have length_eq : (front ++ last :: List.replicate count 255).length =
    front.length + count + 1 := by
    simp only [List.length_append, List.length_cons, List.length_replicate]
    omega
  have carried : carryObjid (front.length + count)
    (front ++ last :: List.replicate count 255 ++ []) =
      some (front ++ last :: List.replicate count 1 ++ [], front.length) :=
    carryObjid_spec ne count noRollover
  simp only [List.append_nil] at carried
  rw [incrementObjid, if_neg (by simp), length_eq, Nat.add_sub_cancel, carried]
  simp only [Option.bind_eq_bind, Option.bind_some, modify_append_cons, Nat.mod_eq_of_lt small]

theorem lt_of_last {α : Type} [LinearOrder α] (front back back' : List α) {last last' : α}
    (lt : last < last') : front ++ last :: back < front ++ last' :: back' := by
  induction front with
  | nil => exact List.cons_lt_cons_iff.mpr (.inl lt)
  | cons first front ih => exact List.cons_lt_cons_iff.mpr (.inr ⟨rfl, ih⟩)

theorem increment_spec {value : IndexValue} (increments : Increments value) :
    ∃ next, value.increment = some next ∧ Lt value next := by
  cases value with
  | integer value =>
      refine ⟨_, rfl, ?_⟩
      rw [toCLong_eq_self_of_range (by have := increments.1; omega) increments.2]
      exact Int.lt_succ value
  | octetStr string =>
      rcases increments with ⟨small, front, last, count, rfl, noNul, ne, ne'⟩
      refine ⟨_, by rw [increment, incrementString_spec noNul ne ne' small]; rfl, ?_⟩
      have lt : last.toNat < (last + 1).toNat := by
        rw [toNat_next ne']
        exact Nat.lt_succ_self _
      simpa only [Lt, byteValues, List.map_append, List.map_cons] using lt_of_last _ _ _ lt
  | objectId objid =>
      rcases increments with ⟨front, last, count, rfl, ne, small, noRollover⟩
      refine ⟨_, by rw [increment, incrementObjid_spec ne small noRollover]; rfl, ?_⟩
      exact lt_of_last _ _ _ (Nat.lt_succ_self last)

end Increment

end IndexValue

end NetSnmp
