import NetSnmp.AgentIndex.IndexOrder

/-!
# Searching the registry

What the three loops of `register_index` and `unregister_index` find in a registry
whose objects and whose entries of an object are in order.
-/

namespace NetSnmp

open RowHeap RowList

/-- The names and values of the entries of each object, in the order of the objects and of the
values. -/
structure IndexOrder (rows : List (List IndexVarbind)) : Prop where
  row : ∀ row ∈ rows, row ≠ [] ∧
    row.Pairwise fun first second => first.name = second.name ∧ first.value.Lt second.value
  objects : rows.Pairwise fun row row' => ∀ first ∈ row, ∀ second ∈ row', first.name < second.name

variable {σ : Type}

def varbindOf (pair : Addr × IndexEntry σ) : IndexVarbind := pair.2.varbind

def varbinds (rows : List (List (Addr × IndexEntry σ))) : List (List IndexVarbind) :=
  rows.map (List.map varbindOf)

def lastCell (row : List (Addr × IndexEntry σ)) : Option Addr := row.getLast?.map Prod.fst

variable {heap : RowHeap (IndexEntry σ)} {nextRow start prev : Option Addr}
  {row : List (Addr × IndexEntry σ)} {rows : List (List (Addr × IndexEntry σ))} {fuel : Nat}

theorem lastCell_cons (pair : Addr × IndexEntry σ) :
    (lastCell (pair :: row)).or prev = (lastCell row).or (some pair.1) := by
  rw [lastCell, List.getLast?_cons, lastCell]
  cases row.getLast? <;> rfl

theorem lastRow_cons :
    ((row :: rows).getLast?.map rowStart).getD prev =
      (rows.getLast?.map rowStart).getD (rowStart row) := by
  rw [List.getLast?_cons]
  cases rows.getLast? <;> rfl

theorem lastRow_none : (rows.getLast?.map rowStart).getD none = lastRowStart rows := by
  rw [lastRowStart]
  cases rows.getLast? <;> rfl

theorem findIndexValue_spec (prev : Option Addr) {value : IndexValue}
    (linked : Row heap nextRow start row none)
    (sameType : ∀ pair ∈ row, value.type = (varbindOf pair).value.type) (enough : row.length ≤ fuel)
    (res : Int) :
    ∃ left right res', row = left ++ right ∧
      findIndexValue heap value fuel prev start res =
        some ((lastCell left).or prev, rowStart right, res') ∧
      (∀ pair ∈ left, ∃ greater, value.compare (varbindOf pair).value = some greater ∧
        0 < greater) ∧
      ∀ pair, right.head? = some pair →
        value.compare (varbindOf pair).value = some res' ∧ res' ≤ 0 := by
  induction row generalizing start prev fuel res with
  | nil =>
      cases linked
      refine ⟨[], [], res, rfl, ?_, by simp, by simp⟩
      cases fuel <;> rfl
  | cons pair row ih =>
      rcases pair with ⟨address, entry⟩
      rcases linked with ⟨rfl, next, cell_eq, rest⟩
      rcases IndexValue.exists_compare (sameType _ List.mem_cons_self) with ⟨res', compared⟩
      rcases Nat.exists_eq_add_of_lt (Nat.lt_of_lt_of_le (Nat.succ_pos _) enough) with ⟨less, rfl⟩
      rw [List.length_cons] at enough
      have step : findIndexValue heap value (0 + less + 1) prev (some address) res =
          if res' ≤ 0 then some (prev, some address, res')
          else findIndexValue heap value (0 + less) (some address) next res' := by
        simp only [findIndexValue, cell_eq, Option.bind_eq_bind, Option.bind_some]
        rw [show value.compare entry.varbind.value = some res' from compared]
        rfl
      by_cases notGreater : res' ≤ 0
      · refine ⟨[], (address, entry) :: row, res', rfl, ?_, by simp, ?_⟩
        · rw [step, if_pos notGreater]
          rfl
        · rintro pair same
          cases same
          exact ⟨compared, notGreater⟩
      · rcases ih (some address) rest (fun pair mem => sameType pair (List.mem_cons_of_mem _ mem))
          (show row.length ≤ 0 + less by omega) res' with
          ⟨left, right, res'', rfl, found, before, behind⟩
        refine ⟨(address, entry) :: left, right, res'', rfl, ?_, ?_, behind⟩
        · rw [step, if_neg notGreater, found, lastCell_cons]
        · intro pair mem
          rcases List.mem_cons.mp mem with rfl | mem
          · exact ⟨res', compared, by omega⟩
          · exact before pair mem

theorem findIndexOid_spec (prev : Option Addr) (name : Oid) (linked : Rows heap start rows none)
    (sameName : ∀ row ∈ rows, ∀ pair ∈ row, ∀ pair' ∈ row, (varbindOf pair).name =
      (varbindOf pair').name)
    (enough : rows.length ≤ fuel) (res : Int) :
    ∃ front back res', rows = front ++ back ∧
      findIndexOid heap name fuel prev start res =
        some ((front.getLast?.map rowStart).getD prev, rowsStart back, res') ∧
      (∀ row ∈ front, ∀ pair ∈ row, (varbindOf pair).name < name) ∧
      ∀ row, back.head? = some row → ∀ pair ∈ row,
        snmpOidCompare name (varbindOf pair).name = res' ∧ res' ≤ 0 := by
  induction rows generalizing start prev fuel res with
  | nil =>
      cases linked
      refine ⟨[], [], res, rfl, ?_, by simp, by simp⟩
      cases fuel <;> rfl
  | cons row rows ih =>
      rcases linked with ⟨some_row, nextRow, rowLinked, rest⟩
      rcases List.exists_cons_of_ne_nil some_row with ⟨⟨address, entry⟩, others, rfl⟩
      rcases rowLinked with ⟨rfl, next, cell_eq, -⟩
      rcases Nat.exists_eq_add_of_lt (Nat.lt_of_lt_of_le (Nat.succ_pos _) enough) with ⟨less, rfl⟩
      rw [List.length_cons] at enough
      have names : ∀ pair ∈ (address, entry) :: others, (varbindOf pair).name =
        entry.varbind.name :=
        fun pair mem => sameName _ List.mem_cons_self pair mem _ List.mem_cons_self
      have step : findIndexOid heap name (0 + less + 1) prev (some address) res =
          if snmpOidCompare name entry.varbind.name ≤ 0 then
            some (prev, some address, snmpOidCompare name entry.varbind.name)
          else findIndexOid heap name (0 + less) (some address) nextRow
            (snmpOidCompare name entry.varbind.name) := by
        simp only [findIndexOid, cell_eq, Option.bind_eq_bind, Option.bind_some]
      by_cases notGreater : snmpOidCompare name entry.varbind.name ≤ 0
      · refine ⟨[], ((address, entry) :: others) :: rows,
          snmpOidCompare name entry.varbind.name, rfl,
          ?_, by simp, ?_⟩
        · rw [step, if_pos notGreater]
          rfl
        · rintro row same pair mem
          cases same
          rw [names pair mem]
          exact ⟨rfl, notGreater⟩
      · rcases ih (some address) rest (fun row mem => sameName row (List.mem_cons_of_mem _ mem))
          (show rows.length ≤ 0 + less by omega) (snmpOidCompare name entry.varbind.name) with
          ⟨front, back, res', rfl, found, before, behind⟩
        refine ⟨((address, entry) :: others) :: front, back, res', rfl, ?_, ?_, behind⟩
        · rw [step, if_neg notGreater, found, lastRow_cons]
          rfl
        · intro row mem pair pairMem
          rcases List.mem_cons.mp mem with rfl | mem
          · rw [names pair pairMem]
            exact lexCompare_pos_iff.mp (by rw [snmpOidCompare] at notGreater; omega)
          · exact before row mem pair pairMem

theorem findUnused_spec (prev : Option Addr) (flag : AllocateFlag)
    (linked : Row heap nextRow start row none)
    (enough : row.length ≤ fuel) :
    ∃ left right, row = left ++ right ∧
      findUnused heap flag fuel prev start = some ((lastCell left).or prev, rowStart right) ∧
      (∀ pair ∈ left, flag = .anyIndex → pair.2.allocated = true) ∧
      ∀ pair, right.head? = some pair → flag = .anyIndex ∧ pair.2.allocated = false := by
  induction row generalizing start prev fuel with
  | nil =>
      cases linked
      refine ⟨[], [], rfl, ?_, by simp, by simp⟩
      cases fuel <;> rfl
  | cons pair row ih =>
      rcases pair with ⟨address, entry⟩
      rcases linked with ⟨rfl, next, cell_eq, rest⟩
      rcases Nat.exists_eq_add_of_lt (Nat.lt_of_lt_of_le (Nat.succ_pos _) enough) with ⟨less, rfl⟩
      rw [List.length_cons] at enough
      have step : findUnused heap flag (0 + less + 1) prev (some address) =
          if flag = .anyIndex ∧ entry.allocated = false then some (prev, some address)
          else findUnused heap flag (0 + less) (some address) next := by
        simp only [findUnused, cell_eq, Option.bind_eq_bind, Option.bind_some]
      by_cases unused : flag = .anyIndex ∧ entry.allocated = false
      · refine ⟨[], (address, entry) :: row, rfl, ?_, by simp, ?_⟩
        · rw [step, if_pos unused]
          rfl
        · rintro pair same
          cases same
          exact unused
      · rcases ih (some address) rest (show row.length ≤ 0 + less by omega) with
          ⟨left, right, rfl, found, before, behind⟩
        refine ⟨(address, entry) :: left, right, rfl, ?_, ?_, behind⟩
        · rw [step, if_neg unused, found, lastCell_cons]
        · intro pair mem isAny
          rcases List.mem_cons.mp mem with rfl | mem
          · cases allocated : entry.allocated with
            | true => rfl
            | false => exact absurd ⟨isAny, allocated⟩ unused
          · exact before pair mem isAny

section IndexOrder

variable {varbindRows : List (List IndexVarbind)} {list : IndexRegistry σ}

theorem IndexOrder.sameName (order : IndexOrder varbindRows) :
    ∀ row ∈ varbindRows, ∀ first ∈ row, ∀ second ∈ row, first.name = second.name := by
  intro row mem
  have pairwise : row.Pairwise fun first second => first.name = second.name :=
    (order.row row mem).2.imp And.left
  have flipped : row.Pairwise (flip fun first second => first.name = second.name) :=
    pairwise.imp Eq.symm
  have reflexive : ∀ first ∈ row, first.name = first.name := fun _ _ => rfl
  intro first firstMem second secondMem
  exact List.Pairwise.forall_of_forall_of_flip reflexive pairwise flipped firstMem secondMem

theorem IndexOrder.sameType (order : IndexOrder varbindRows) :
    ∀ row ∈ varbindRows, ∀ first ∈ row, ∀ second ∈ row, first.value.type = second.value.type := by
  intro row mem
  have pairwise : row.Pairwise fun first second => first.value.type = second.value.type :=
    (order.row row mem).2.imp fun both => both.2.type_eq
  have flipped : row.Pairwise (flip fun first second => first.value.type = second.value.type) :=
    pairwise.imp Eq.symm
  have reflexive : ∀ first ∈ row, first.value.type = first.value.type := fun _ _ => rfl
  intro first firstMem second secondMem
  exact List.Pairwise.forall_of_forall_of_flip reflexive pairwise flipped firstMem secondMem

theorem mem_varbinds {pair : Addr × IndexEntry σ} (rowMem : row ∈ rows) (mem : pair ∈ row) :
    row.map varbindOf ∈ varbinds rows ∧ varbindOf pair ∈ row.map varbindOf :=
  ⟨List.mem_map_of_mem rowMem, List.mem_map_of_mem mem⟩

/-- The entries of an object, none if it has none, between those of the objects in front of it and
behind. -/
structure Place (rows : List (List (Addr × IndexEntry σ))) (name : Oid)
    (front : List (List (Addr × IndexEntry σ))) (row : List (Addr × IndexEntry σ))
    (back : List (List (Addr × IndexEntry σ))) : Prop where
  rows_eq : rows = front ++ consRow row back
  names : ∀ pair ∈ row, (varbindOf pair).name = name
  before : ∀ row ∈ front, ∀ pair ∈ row, (varbindOf pair).name < name
  behind : ∀ row ∈ back, ∀ pair ∈ row, name < (varbindOf pair).name

theorem findIndexOid_place (hasRows : HasRows list rows) (order : IndexOrder (varbinds rows))
    (enough : rows.length ≤ fuel) (name : Oid) :
    ∃ front row back res, Place rows name front row back ∧
      findIndexOid list.heap name fuel none list.first 1 =
        some (lastRowStart front, (rowStart row).or (rowsStart back), res) ∧
      (row ≠ [] → res = 0) ∧ (row = [] → back ≠ [] → res ≠ 0) := by
  have sameName : ∀ row ∈ rows, ∀ pair ∈ row, ∀ pair' ∈ row,
      (varbindOf pair).name = (varbindOf pair').name := by
    intro row rowMem pair mem pair' mem'
    have there := mem_varbinds rowMem mem
    exact order.sameName _ there.1 _ there.2 _ (mem_varbinds rowMem mem').2
  rcases findIndexOid_spec none name hasRows.linked sameName enough 1 with
    ⟨front, back, res, rfl, found, before, behind⟩
  rw [lastRow_none] at found
  cases back with
  | nil =>
      exact ⟨front, [], [], res, ⟨rfl, by simp, before, by simp⟩, found, by simp, by simp⟩
  | cons row back =>
      rcases rows_append.mp hasRows.linked with ⟨_, -, some_row, -⟩
      rcases List.exists_mem_of_ne_nil row some_row with ⟨pair, mem⟩
      rcases behind row rfl pair mem with ⟨compared, notGreater⟩
      have names : ∀ pair' ∈ row, (varbindOf pair').name = (varbindOf pair).name :=
        fun pair' mem' => sameName row (by simp) pair' mem' pair mem
      have greater : ∀ other ∈ back, ∀ pair' ∈ other,
        (varbindOf pair).name < (varbindOf pair').name := by
        intro other otherMem pair' mem'
        have objects := order.objects
        simp only [varbinds, List.map_append, List.map_cons, List.pairwise_append,
          List.pairwise_cons] at objects
        exact objects.2.1.1 _ (List.mem_map_of_mem otherMem) _ (List.mem_map_of_mem mem) _
          (List.mem_map_of_mem mem')
      by_cases zero : res = 0
      · subst zero
        have name_eq : name = (varbindOf pair).name := lexCompare_eq_zero_iff.mp compared
        rcases List.exists_cons_of_ne_nil some_row with ⟨first, rest, rfl⟩
        refine ⟨front, first :: rest, back, 0, ⟨rfl, ?_, before, ?_⟩, found, by simp, by simp⟩
        · intro pair' mem'
          rw [names pair' mem', name_eq]
        · intro other otherMem pair' mem'
          rw [name_eq]
          exact greater other otherMem pair' mem'
      · have lt : name < (varbindOf pair).name :=
          lexCompare_neg_iff.mp (by rw [snmpOidCompare] at compared; omega)
        refine ⟨front, [], row :: back, res, ⟨rfl, by simp, before, ?_⟩, found, by simp,
          fun _ _ => zero⟩
        intro other otherMem pair' mem'
        rcases List.mem_cons.mp otherMem with rfl | otherMem
        · rw [names pair' mem']
          exact lt
        · exact lt_trans lt (greater other otherMem pair' mem')

end IndexOrder

end NetSnmp
