import NetSnmp.AgentIndex.Search

/-!
# Index allocation

What the calls do to the rows of the registry: new entries get the place of their value,
and no two entries of an object have the same one.
-/

namespace NetSnmp

open RowHeap RowList

section IndexOrder

variable {front back : List (List IndexVarbind)} {left right : List IndexVarbind}
  {varbind : IndexVarbind}

theorem IndexOrder.insert (order : IndexOrder (front ++ consRow (left ++ right) back))
    (names : ∀ other ∈ left ++ right, other.name = varbind.name)
    (before : ∀ row ∈ front, ∀ other ∈ row, other.name < varbind.name)
    (behind : ∀ row ∈ back, ∀ other ∈ row, varbind.name < other.name)
    (smaller : ∀ other ∈ left, other.value.Lt varbind.value)
    (greater : ∀ other ∈ right, varbind.value.Lt other.value) :
    IndexOrder (front ++ (left ++ varbind :: right) :: back) := by
  have order' : (∀ row ∈ front ++ back, row ≠ [] ∧
        row.Pairwise fun first second => first.name = second.name ∧ first.value.Lt second.value) ∧
      (left ++ right).Pairwise (fun first second => first.name = second.name ∧
        first.value.Lt second.value) ∧
      (front ++ back).Pairwise fun row row' => ∀ first ∈ row, ∀ second ∈ row',
        first.name < second.name := by
    cases part : left ++ right with
    | nil =>
        rw [part] at order
        exact ⟨order.row, .nil, order.objects⟩
    | cons first rest =>
        rw [part] at order
        refine ⟨fun row mem => order.row row ?_,
          (order.row (first :: rest) (by simp [consRow])).2, ?_⟩
        · simp only [consRow, List.mem_append, List.mem_cons] at mem ⊢
          exact mem.imp_right .inr
        · exact order.objects.sublist (List.Sublist.append_left (List.sublist_cons_self _ _) _)
  rcases order' with ⟨rows, part, objects⟩
  have objects' := List.pairwise_append.mp objects
  constructor
  · intro row mem
    rcases List.mem_append.mp mem with mem | mem
    · exact rows row (List.mem_append_left _ mem)
    · rcases List.mem_cons.mp mem with rfl | mem
      · have part' := List.pairwise_append.mp part
        refine ⟨by simp,
          List.pairwise_append.mpr ⟨part'.1, List.pairwise_cons.mpr ⟨?_, part'.2.1⟩, ?_⟩⟩
        · intro other otherMem
          exact ⟨(names other (List.mem_append_right _ otherMem)).symm, greater other otherMem⟩
        · intro first firstMem second secondMem
          rcases List.mem_cons.mp secondMem with rfl | secondMem
          · exact ⟨names first (List.mem_append_left _ firstMem), smaller first firstMem⟩
          · exact part'.2.2 first firstMem second secondMem
      · exact rows row (List.mem_append_right _ mem)
  · have names' : ∀ other ∈ left ++ varbind :: right, other.name = varbind.name := by
      intro other mem
      rcases List.mem_append.mp mem with mem | mem
      · exact names other (List.mem_append_left _ mem)
      · rcases List.mem_cons.mp mem with rfl | mem
        · rfl
        · exact names other (List.mem_append_right _ mem)
    refine List.pairwise_append.mpr ⟨objects'.1, List.pairwise_cons.mpr ⟨?_, objects'.2.1⟩, ?_⟩
    · intro row rowMem first firstMem second secondMem
      rw [names' first firstMem]
      exact behind row rowMem second secondMem
    · intro row rowMem row' rowMem' first firstMem second secondMem
      rcases List.mem_cons.mp rowMem' with rfl | rowMem'
      · rw [names' second secondMem]
        exact before row rowMem first firstMem
      · exact objects'.2.2 row rowMem row' rowMem' first firstMem second secondMem

theorem IndexOrder.remove (order : IndexOrder (front ++ (left ++ varbind :: right) :: back)) :
    IndexOrder (front ++ consRow (left ++ right) back) := by
  have row := (order.row (left ++ varbind :: right) (by simp)).2
  have part := row.sublist (List.Sublist.append_left (List.sublist_cons_self varbind right) left)
  have objects : (front ++ (left ++ right) :: back).Pairwise fun row row' =>
      ∀ first ∈ row, ∀ second ∈ row', first.name < second.name := by
    have objects := order.objects
    simp only [List.pairwise_append, List.pairwise_cons, List.mem_append,
      List.mem_cons] at objects ⊢
    rcases objects with ⟨frontObjects, ⟨behind, backObjects⟩, before⟩
    refine ⟨frontObjects, ⟨?_, backObjects⟩, ?_⟩
    · intro row rowMem first firstMem
      exact behind row rowMem first (firstMem.imp_right .inr)
    · intro row rowMem row' rowMem' first firstMem second secondMem
      rcases rowMem' with rfl | rowMem'
      · exact before row rowMem _ (.inl rfl) first firstMem second
          (List.mem_append.mpr ((List.mem_append.mp secondMem).imp_right (List.mem_cons_of_mem _)))
      · exact before row rowMem row' (.inr rowMem') first firstMem second secondMem
  cases rest : left ++ right with
  | nil =>
      rw [rest] at objects
      constructor
      · intro row mem
        apply order.row row
        simp only [consRow, List.mem_append, List.mem_cons] at mem ⊢
        exact mem.imp_right .inr
      · exact objects.sublist (List.Sublist.append_left (List.sublist_cons_self _ _) _)
  | cons first others =>
      rw [rest] at objects part
      refine ⟨?_, objects⟩
      intro row mem
      simp only [consRow, List.mem_append, List.mem_cons] at mem
      rcases mem with mem | rfl | mem
      · exact order.row row (List.mem_append_left _ mem)
      · exact ⟨by simp, part⟩
      · exact order.row row (List.mem_append_right _ (List.mem_cons_of_mem _ mem))

theorem IndexOrder.nodup {rows : List (List IndexVarbind)} (order : IndexOrder rows) :
    rows.flatten.Nodup := by
  refine List.pairwise_flatten.mpr ⟨?_, ?_⟩
  · intro row mem
    apply (order.row row mem).2.imp
    intro first second both same
    exact both.2.ne (congrArg IndexVarbind.value same)
  · apply order.objects.imp
    intro row row' lt first firstMem second secondMem same
    exact ne_of_lt (lt first firstMem second secondMem) (congrArg IndexVarbind.name same)

end IndexOrder

variable {σ : Type}

section Calls

variable {reg : IndexRegistry σ} {front back : List (List (Addr × IndexEntry σ))}
  {left right : List (Addr × IndexEntry σ)} {address newIndex : Addr} {entry : IndexEntry σ}
  {varbind : IndexVarbind} {fuel : Nat} {flag : AllocateFlag} {ss : Option σ}

theorem varbinds_middle (pair : Addr × IndexEntry σ) :
    varbinds (front ++ (left ++ pair :: right) :: back) =
      varbinds front ++ (left.map varbindOf ++ varbindOf pair :: right.map varbindOf) ::
        varbinds back := by
  simp [varbinds]

theorem varbinds_consRow :
    varbinds (front ++ consRow (left ++ right) back) =
      varbinds front ++ consRow (left.map varbindOf ++ right.map varbindOf) (varbinds back) := by
  rw [varbinds, List.map_append, consRow_map, List.map_append]
  rfl

theorem claimIndex_spec (ss : Option σ)
    (hasRows : HasRows reg (front ++ (left ++ (address, entry) :: right) :: back)) :
    ∃ reg', claimIndex reg address ss = some (some entry.varbind, reg') ∧
      HasRows reg' (front ++
        (left ++ (address, { entry with allocated := true, session := ss }) :: right) :: back) := by
  rcases hasRows.around with ⟨_, nextRow, next, -, -, cell_eq, -⟩
  refine ⟨_, ?_, hasRows.setContent cell_eq⟩
  simp only [claimIndex, cell_eq]
  rfl

theorem createIndex_spec (ss : Option σ) {varbind' : IndexVarbind} {res : Int}
    (hasRows : HasRows reg (front ++ consRow (left ++ right) back))
    (free : reg.heap newIndex = none) (enough : ∀ row ∈ front, row.length ≤ fuel)
    (found : left ++ right ≠ [] → res = 0) (notFound : left ++ right = [] → back ≠ [] → res ≠ 0)
    (value_eq : newVarbind reg.heap varbind flag (lastCell left) = some varbind') :
    ∃ reg', createIndex fuel newIndex reg varbind flag ss (lastRowStart front)
          ((rowStart (left ++ right)).or (rowsStart back)) res (lastCell left) =
        some (some varbind', reg') ∧
      HasRows reg' (front ++ (left ++ (newIndex, ⟨varbind', true, ss⟩) :: right) :: back) := by
  rcases List.eq_nil_or_concat left with rfl | ⟨left, last, rfl⟩
  · rcases hasRows.insertFirst ⟨varbind', true, ss⟩ free enough with
      ⟨reg', inserted, hasRows'⟩
    refine ⟨reg', ?_, hasRows'⟩
    simp only [lastCell, List.getLast?_nil, Option.map_none, List.nil_append] at value_eq inserted ⊢
    cases right with
    | nil =>
        simp only [rowStart, List.head?_nil, Option.map_none, Option.none_or] at inserted ⊢
        cases start_eq : rowsStart back with
        | none =>
            rw [start_eq] at inserted
            simp only [createIndex, value_eq, Option.bind_eq_bind, Option.bind_some, inserted]
        | some idx =>
            have some_back : back ≠ [] := by
              rintro rfl
              cases start_eq
            rcases hasRows.cell_of_rowsStart start_eq with ⟨cell, cell_eq⟩
            rw [start_eq] at inserted
            simp only [createIndex, value_eq, cell_eq, Option.bind_eq_bind, Option.bind_some,
              if_neg (notFound rfl some_back), inserted]
    | cons pair right =>
        rcases hasRows.aroundFirst with ⟨_, nextRow, next, -, cell_eq, -, backLinked, -⟩
        have nextRow_eq := rowsStart_eq backLinked
        simp only [rowStart, List.head?_cons, Option.map_some, Option.some_or] at inserted ⊢
        rw [← nextRow_eq] at inserted
        simp only [createIndex, value_eq, cell_eq, Option.bind_eq_bind, Option.bind_some,
          if_pos (found (by simp)), inserted]
  · rw [List.concat_eq_append] at *
    have last_eq : lastCell (left ++ [last]) = some last.1 := by
      rw [lastCell, List.getLast?_concat]
      rfl
    rw [List.append_assoc, List.singleton_append, consRow_middle] at hasRows
    rcases hasRows.insertBehind ⟨varbind', true, ss⟩ free with ⟨reg', inserted, hasRows'⟩
    refine ⟨reg', ?_, by simpa using hasRows'⟩
    rw [last_eq] at value_eq ⊢
    simp only [createIndex, value_eq, Option.bind_eq_bind, Option.bind_some, inserted]

end Calls

def IndexRegistry.Remembers (reg : IndexRegistry σ) (varbind : IndexVarbind) : Prop :=
  ∃ entry, reg.Holds entry ∧ entry.varbind = varbind

def IndexRegistry.InUse (reg : IndexRegistry σ) (varbind : IndexVarbind) : Prop :=
  ∃ entry, reg.Holds entry ∧ entry.allocated = true ∧ entry.varbind = varbind

def IndexRegistry.SameType (reg : IndexRegistry σ) (varbind : IndexVarbind) : Prop :=
  ∀ entry, reg.Holds entry → entry.varbind.name = varbind.name →
    entry.varbind.value.type = varbind.value.type

/-- A value that is asked for is compared with those of the object without a mistake, and one that
is made up is behind a last one that can be counted up. -/
def ProperRequest (reg : IndexRegistry σ) (varbind : IndexVarbind) : AllocateFlag → Prop
  | .thisIndex =>
      varbind.value.Storable ∧
        ∀ entry, reg.Holds entry → entry.varbind.name = varbind.name →
          varbind.value.Distinguished entry.varbind.value
  | flag =>
      (flag = .anyIndex → ∀ entry, reg.Holds entry → entry.varbind.name = varbind.name →
        entry.allocated = true) →
      ∀ address cell, reg.heap address = some cell → cell.content.varbind.name = varbind.name →
        cell.content.varbind.value.type = varbind.value.type → cell.next = none →
          cell.content.varbind.value.Increments

structure Allocates (reg : IndexRegistry σ) (varbind : IndexVarbind) (flag : AllocateFlag)
    (ss : Option σ) (answer : Option IndexVarbind) (reg' : IndexRegistry σ) : Prop where
  answered : answer.isSome ↔
    IndexRegistry.SameType reg varbind ∧ (flag = .thisIndex → ¬ IndexRegistry.InUse reg varbind)
  thisIndex : ∀ rv, answer = some rv → flag = .thisIndex → rv = varbind
  object : ∀ rv, answer = some rv → rv.name = varbind.name ∧ rv.value.type = varbind.value.type
  unused : ∀ rv, answer = some rv → ¬ IndexRegistry.InUse reg rv
  newIndex : ∀ rv, answer = some rv → flag = .newIndex → ¬ IndexRegistry.Remembers reg rv
  allocated : ∀ rv, answer = some rv → reg'.Holds ⟨rv, true, ss⟩

section Register

variable {reg reg' : IndexRegistry σ} {rows front back : List (List (Addr × IndexEntry σ))}
  {row left right : List (Addr × IndexEntry σ)} {address newIndex : Addr} {entry : IndexEntry σ}
  {varbind rv : IndexVarbind} {name : Oid} {fuel : Nat} {flag : AllocateFlag} {ss : Option σ}

theorem mem_of_holds (hasRows : HasRows reg rows) (place : Place rows name front row back)
    (holds : reg.Holds entry) (same : entry.varbind.name = name) :
    ∃ address, (address, entry) ∈ row := by
  rcases hasRows.holds_iff.mp holds with ⟨address, mem⟩
  refine ⟨address, ?_⟩
  rcases List.mem_flatten.mp mem with ⟨other, otherMem, mem⟩
  rw [place.rows_eq] at otherMem
  have name_eq : (varbindOf (address, entry)).name = name := same
  have inRow {back : List (List (Addr × IndexEntry σ))} (otherMem : other ∈ consRow row back) :
      other = row ∨ other ∈ back := by
    cases row with
    | nil => exact .inr otherMem
    | cons pair row => exact List.mem_cons.mp otherMem
  rcases List.mem_append.mp otherMem with otherMem | otherMem
  · exact absurd name_eq (ne_of_lt (place.before other otherMem _ mem))
  · rcases inRow otherMem with rfl | otherMem
    · exact mem
    · exact absurd name_eq (ne_of_gt (place.behind other otherMem _ mem))

theorem holds_of_mem (hasRows : HasRows reg rows) (place : Place rows name front row back)
    {pair : Addr × IndexEntry σ} (mem : pair ∈ row) : reg.Holds pair.2 := by
  refine hasRows.holds_iff.mpr ⟨pair.1, List.mem_flatten.mpr ⟨row, ?_, mem⟩⟩
  rw [place.rows_eq]
  cases row with
  | nil => cases mem
  | cons first row => simp [consRow]

theorem not_remembers (hasRows : HasRows reg rows)
    (place : Place rows rv.name front (left ++ right) back)
    (smaller : ∀ pair ∈ left, (varbindOf pair).value.Lt rv.value)
    (greater : ∀ pair ∈ right, rv.value.Lt (varbindOf pair).value) :
    ¬ IndexRegistry.Remembers reg rv := by
  rintro ⟨entry, holds, rfl⟩
  rcases mem_of_holds hasRows place holds rfl with ⟨address, mem⟩
  rcases List.mem_append.mp mem with mem | mem
  · exact IndexValue.Lt.irrefl _ (smaller _ mem)
  · exact IndexValue.Lt.irrefl _ (greater _ mem)

theorem not_inUse (notRemembers : ¬ IndexRegistry.Remembers reg rv) :
    ¬ IndexRegistry.InUse reg rv := by
  rintro ⟨entry, holds, -, same⟩
  exact notRemembers ⟨entry, holds, same⟩

theorem indexOrder_insert (order : IndexOrder (varbinds rows))
    (place : Place rows rv.name front (left ++ right) back)
    (smaller : ∀ pair ∈ left, (varbindOf pair).value.Lt rv.value)
    (greater : ∀ pair ∈ right, rv.value.Lt (varbindOf pair).value) :
    IndexOrder (varbinds (front ++ (left ++ (newIndex, ⟨rv, true, ss⟩) :: right) :: back)) := by
  rw [varbinds_middle]
  rw [place.rows_eq, varbinds_consRow] at order
  apply order.insert
  · intro other mem
    rw [← List.map_append] at mem
    rcases List.mem_map.mp mem with ⟨pair, pairMem, rfl⟩
    exact place.names pair pairMem
  · intro row rowMem other mem
    rcases List.mem_map.mp rowMem with ⟨pairs, pairsMem, rfl⟩
    rcases List.mem_map.mp mem with ⟨pair, pairMem, rfl⟩
    exact place.before pairs pairsMem pair pairMem
  · intro row rowMem other mem
    rcases List.mem_map.mp rowMem with ⟨pairs, pairsMem, rfl⟩
    rcases List.mem_map.mp mem with ⟨pair, pairMem, rfl⟩
    exact place.behind pairs pairsMem pair pairMem
  · intro other mem
    rcases List.mem_map.mp mem with ⟨pair, pairMem, rfl⟩
    exact smaller pair pairMem
  · intro other mem
    rcases List.mem_map.mp mem with ⟨pair, pairMem, rfl⟩
    exact greater pair pairMem

theorem pair_eq (order : IndexOrder (varbinds rows)) {pair pair' : Addr × IndexEntry σ}
    (mem : pair ∈ rows.flatten) (mem' : pair' ∈ rows.flatten)
    (same : varbindOf pair = varbindOf pair') : pair = pair' := by
  have nodup := order.nodup
  rw [varbinds, ← List.map_flatten] at nodup
  exact List.inj_on_of_nodup_map nodup mem mem' same

theorem not_inUse_of_unused (hasRows : HasRows reg rows) (order : IndexOrder (varbinds rows))
    (mem : (address, entry) ∈ rows.flatten) (unused : entry.allocated = false) :
    ¬ IndexRegistry.InUse reg entry.varbind := by
  rintro ⟨other, holds, allocated, same⟩
  rcases hasRows.holds_iff.mp holds with ⟨address', mem'⟩
  have pair_eq' := pair_eq order mem' mem same
  cases pair_eq'
  rw [unused] at allocated
  cases allocated

theorem create_allocates (ss : Option σ) (res : Int) (hasRows : HasRows reg rows)
    (order : IndexOrder (varbinds rows))
    (free : reg.heap newIndex = none) (enough : ∀ row ∈ rows, row.length ≤ fuel)
    (place : Place rows varbind.name front (left ++ right) back)
    (sameType : ∀ pair ∈ left ++ right, (varbindOf pair).value.type = varbind.value.type)
    (found : left ++ right ≠ [] → res = 0) (notFound : left ++ right = [] → back ≠ [] → res ≠ 0)
    (value_eq : newVarbind reg.heap varbind flag (lastCell left) = some rv)
    (name_eq : rv.name = varbind.name) (type_eq : rv.value.type = varbind.value.type)
    (given : flag = .thisIndex → rv = varbind)
    (smaller : ∀ pair ∈ left, (varbindOf pair).value.Lt rv.value)
    (greater : ∀ pair ∈ right, rv.value.Lt (varbindOf pair).value) :
    ∃ reg' rows', createIndex fuel newIndex reg varbind flag ss (lastRowStart front)
          ((rowStart (left ++ right)).or (rowsStart back)) res (lastCell left) =
        some (some rv, reg') ∧
      HasRows reg' rows' ∧ IndexOrder (varbinds rows') ∧
      Allocates reg varbind flag ss (some rv) reg' := by
  have place' : Place rows rv.name front (left ++ right) back := by rwa [name_eq]
  have notRemembers := not_remembers hasRows place' smaller greater
  have hasRows' := hasRows
  rw [place.rows_eq] at hasRows'
  have frontEnough : ∀ row ∈ front, row.length ≤ fuel := by
    intro row mem
    apply enough
    rw [place.rows_eq]
    exact List.mem_append_left _ mem
  rcases createIndex_spec ss hasRows' free frontEnough found notFound value_eq with
    ⟨reg', created, linked⟩
  refine ⟨reg', _, created, linked, indexOrder_insert order place' smaller greater, ?_, ?_,
    ?_, ?_, ?_, ?_⟩
  · refine iff_of_true rfl ⟨?_, ?_⟩
    · intro entry holds same
      rcases mem_of_holds hasRows place holds same with ⟨address, mem⟩
      exact sameType _ mem
    · intro isThis
      rw [← given isThis]
      exact not_inUse notRemembers
  · rintro _ ⟨rfl⟩
    exact given
  · rintro _ ⟨rfl⟩
    exact ⟨name_eq, type_eq⟩
  · rintro _ ⟨rfl⟩
    exact not_inUse notRemembers
  · rintro _ ⟨rfl⟩ -
    exact notRemembers
  · rintro _ ⟨rfl⟩
    exact linked.holds_iff.mpr ⟨newIndex, by simp⟩

theorem claim_allocates (flag : AllocateFlag) (ss : Option σ) (hasRows : HasRows reg rows)
    (order : IndexOrder (varbinds rows))
    (place : Place rows varbind.name front (left ++ (address, entry) :: right) back)
    (sameType : ∀ pair ∈ left ++ (address, entry) :: right,
      (varbindOf pair).value.type = varbind.value.type)
    (unused : entry.allocated = false) (given : flag = .thisIndex → entry.varbind = varbind)
    (notNew : flag ≠ .newIndex) :
    ∃ reg' rows', claimIndex reg address ss = some (some entry.varbind, reg') ∧
      HasRows reg' rows' ∧ IndexOrder (varbinds rows') ∧
      Allocates reg varbind flag ss (some entry.varbind) reg' := by
  have rows_eq := place.rows_eq
  rw [consRow_middle] at rows_eq
  have mem : (address, entry) ∈ rows.flatten := by simp [rows_eq]
  have notInUse := not_inUse_of_unused hasRows order mem unused
  have here : (address, entry) ∈ left ++ (address, entry) :: right := by simp
  have hasRows' := hasRows
  rw [rows_eq] at hasRows'
  rcases claimIndex_spec ss hasRows' with ⟨reg', claimed, linked⟩
  refine ⟨reg', _, claimed, linked, ?_, ?_, ?_, ?_, ?_, ?_, ?_⟩
  · rw [rows_eq, varbinds_middle] at order
    rw [varbinds_middle]
    exact order
  · refine iff_of_true rfl ⟨?_, ?_⟩
    · intro entry' holds same
      rcases mem_of_holds hasRows place holds same with ⟨address', mem'⟩
      exact sameType _ mem'
    · intro isThis
      rw [← given isThis]
      exact notInUse
  · rintro _ ⟨rfl⟩
    exact given
  · rintro _ ⟨rfl⟩
    exact ⟨place.names _ here, sameType _ here⟩
  · rintro _ ⟨rfl⟩
    exact notInUse
  · rintro _ ⟨rfl⟩ isNew
    exact absurd isNew notNew
  · rintro _ ⟨rfl⟩
    exact linked.holds_iff.mpr ⟨address, by simp⟩

structure ObjectRow (reg : IndexRegistry σ) (rows : List (List (Addr × IndexEntry σ)))
    (varbind : IndexVarbind) (front : List (List (Addr × IndexEntry σ)))
    (row : List (Addr × IndexEntry σ)) (back : List (List (Addr × IndexEntry σ))) : Prop where
  place : Place rows varbind.name front row back
  someRow : row ≠ []
  linked : ∃ nextRow, Row reg.heap nextRow (rowStart row) row none
  increasing : row.Pairwise fun first second => (varbindOf first).value.Lt (varbindOf second).value
  sameType : ∀ pair ∈ row, (varbindOf pair).value.type = varbind.value.type

theorem registerThis_spec (hasRows : HasRows reg rows) (order : IndexOrder (varbinds rows))
    (free : reg.heap newIndex = none) (enough : ∀ row ∈ rows, row.length ≤ fuel)
    (object : ObjectRow reg rows varbind front row back)
    (proper : ProperRequest reg varbind .thisIndex) {idx : Addr}
      (starts : rowStart row = some idx) :
    ∃ answer reg' rows', registerIndexOf fuel newIndex reg varbind .thisIndex ss
      (lastRowStart front) idx =
        some (answer, reg') ∧
      HasRows reg' rows' ∧ IndexOrder (varbinds rows') ∧
      Allocates reg varbind .thisIndex ss answer reg' := by
  rcases proper with ⟨storable, distinguished⟩
  rcases object.linked with ⟨nextRow, linked⟩
  have rowEnough : row.length ≤ fuel := by
    apply enough
    rcases List.exists_cons_of_ne_nil object.someRow with ⟨pair, rest, rfl⟩
    rw [object.place.rows_eq]
    simp [consRow]
  rcases findIndexValue_spec none linked (fun pair mem => (object.sameType pair mem).symm)
    rowEnough 1 with ⟨left, right, res, rfl, found, before, behind⟩
  rw [starts, Option.or_none] at found
  have compare_spec : ∀ pair ∈ left ++ right, ∃ res,
      varbind.value.compare (varbindOf pair).value = some res ∧
        (res < 0 ↔ varbind.value.Lt (varbindOf pair).value) ∧
        (res = 0 ↔ varbind.value = (varbindOf pair).value) := by
    intro pair mem
    refine IndexValue.compare_spec (object.sameType pair mem).symm (distinguished pair.2 ?_ ?_)
    · exact holds_of_mem hasRows object.place mem
    · exact object.place.names pair mem
  have smaller : ∀ pair ∈ left, (varbindOf pair).value.Lt varbind.value := by
    intro pair mem
    have mem' := List.mem_append_left right mem
    rcases before pair mem with ⟨res, compared, pos⟩
    rcases compare_spec pair mem' with ⟨res', compared', neg_iff, zero_iff⟩
    rw [compared] at compared'
    cases compared'
    rcases IndexValue.trichotomy (object.sameType pair mem') with lt | same | gt
    · exact lt
    · exact absurd (zero_iff.mpr same.symm) (by omega)
    · exact absurd (neg_iff.mpr gt) (by omega)
  have value_eq : newVarbind reg.heap varbind .thisIndex (lastCell left) = some varbind := by
    rw [newVarbind, IndexValue.stored_eq storable]
  have created (greater : ∀ pair ∈ right, varbind.value.Lt (varbindOf pair).value) :=
    create_allocates ss 0 hasRows order free enough object.place object.sameType
      (fun _ => rfl) (fun absurdity => absurd absurdity object.someRow) value_eq rfl rfl
        (fun _ => rfl)
      smaller greater
  rw [starts, Option.some_or] at created
  cases right with
  | nil =>
      rcases created (by simp) with ⟨reg', rows', created, spec⟩
      refine ⟨some varbind, reg', rows', ?_, spec⟩
      simp only [registerIndexOf, found, Option.bind_eq_bind, Option.bind_some]
      exact created
  | cons pair right =>
      rcases behind pair rfl with ⟨compared, notGreater⟩
      have here : pair ∈ left ++ pair :: right := by simp
      rcases compare_spec pair here with ⟨res', compared', neg_iff, zero_iff⟩
      rw [compared] at compared'
      cases compared'
      by_cases zero : res = 0
      · have value_eq := zero_iff.mp zero
        have varbind_eq : varbindOf pair = varbind :=
          IndexVarbind.ext (object.place.names pair here) value_eq.symm
        rcases pair with ⟨address, entry⟩
        have cell : ∃ nextRow next, reg.heap address = some ⟨entry, nextRow, next⟩ := by
          rcases linked.cell_of_mem here with ⟨next, cell_eq⟩
          exact ⟨nextRow, next, cell_eq⟩
        rcases cell with ⟨nextRow', next, cell_eq⟩
        simp only [registerIndexOf, found, rowStart, List.head?_cons, Option.map_some,
          Option.bind_eq_bind, Option.bind_some, if_pos zero, cell_eq]
        cases allocated : entry.allocated with
        | true =>
            have inUse : IndexRegistry.InUse reg varbind :=
              ⟨entry, holds_of_mem hasRows object.place here, allocated, varbind_eq⟩
            refine ⟨none, reg, rows, rfl, hasRows, order, ?_, ?_, ?_, ?_, ?_, ?_⟩
            · exact iff_of_false (by simp) fun both => both.2 rfl inUse
            all_goals rintro _ ⟨⟩
        | false =>
            rcases claim_allocates .thisIndex ss hasRows order object.place object.sameType
              allocated (fun _ => varbind_eq) (by simp) with
              ⟨reg', rows', claimed, spec⟩
            exact ⟨_, reg', rows', claimed, spec⟩
      · have lt : varbind.value.Lt (varbindOf pair).value := neg_iff.mp (by omega)
        have increasing := List.pairwise_append.mp object.increasing
        have greater : ∀ other ∈ pair :: right, varbind.value.Lt (varbindOf other).value := by
          intro other mem
          rcases List.mem_cons.mp mem with rfl | mem
          · exact lt
          · exact lt.trans ((List.pairwise_cons.mp increasing.2.1).1 other mem)
        rcases created greater with ⟨reg', rows', created, spec⟩
        refine ⟨some varbind, reg', rows', ?_, spec⟩
        simp only [registerIndexOf, found, rowStart, List.head?_cons, Option.map_some,
          Option.bind_eq_bind, Option.bind_some, if_neg zero]
        exact created

theorem registerIndexOf_claim (notThis : flag ≠ .thisIndex) {prevOid prevIdx : Option Addr}
    {idx idx2 : Addr} (found : findUnused reg.heap flag fuel none (some idx) =
      some (prevIdx, some idx2)) :
    registerIndexOf fuel newIndex reg varbind flag ss prevOid idx = claimIndex reg idx2 ss := by
  cases flag with
  | thisIndex => exact absurd rfl notThis
  | anyIndex => simp only [registerIndexOf, found, Option.bind_eq_bind, Option.bind_some]
  | newIndex => simp only [registerIndexOf, found, Option.bind_eq_bind, Option.bind_some]

theorem registerIndexOf_create (notThis : flag ≠ .thisIndex)
    {prevOid prevIdx : Option Addr} {idx : Addr}
    (found : findUnused reg.heap flag fuel none (some idx) = some (prevIdx, none)) :
    registerIndexOf fuel newIndex reg varbind flag ss prevOid idx =
      createIndex fuel newIndex reg varbind flag ss prevOid (some idx) 0 prevIdx := by
  cases flag with
  | thisIndex => exact absurd rfl notThis
  | anyIndex => simp only [registerIndexOf, found, Option.bind_eq_bind, Option.bind_some]
  | newIndex => simp only [registerIndexOf, found, Option.bind_eq_bind, Option.bind_some]

theorem registerMade_spec (hasRows : HasRows reg rows) (order : IndexOrder (varbinds rows))
    (free : reg.heap newIndex = none) (enough : ∀ row ∈ rows, row.length ≤ fuel)
    (object : ObjectRow reg rows varbind front row back) (notThis : flag ≠ .thisIndex)
    (proper : ProperRequest reg varbind flag) {idx : Addr} (starts : rowStart row = some idx) :
    ∃ answer reg' rows', registerIndexOf fuel newIndex reg varbind flag ss
      (lastRowStart front) idx =
        some (answer, reg') ∧
      HasRows reg' rows' ∧ IndexOrder (varbinds rows') ∧
        Allocates reg varbind flag ss answer reg' := by
  rcases object.linked with ⟨nextRow, linked⟩
  have rowEnough : row.length ≤ fuel := by
    apply enough
    rcases List.exists_cons_of_ne_nil object.someRow with ⟨pair, rest, rfl⟩
    rw [object.place.rows_eq]
    simp [consRow]
  rcases findUnused_spec none flag linked rowEnough with ⟨left, right, rfl, found, before, behind⟩
  rw [starts, Option.or_none] at found
  cases right with
  | cons pair right =>
      rcases pair with ⟨address, entry⟩
      rw [registerIndexOf_claim notThis found]
      rcases behind (address, entry) rfl with ⟨isAny, unused⟩
      rcases claim_allocates flag ss hasRows order object.place object.sameType unused
        (fun isThis => absurd isThis notThis) (by simp [isAny]) with ⟨reg', rows', claimed, spec⟩
      exact ⟨_, reg', rows', claimed, spec⟩
  | nil =>
      rcases List.eq_nil_or_concat left with rfl | ⟨others, last, rfl⟩
      · exact absurd rfl object.someRow
      · rw [registerIndexOf_create notThis found]
        rw [List.concat_eq_append] at *
        rw [List.append_nil] at object starts linked
        have here : last ∈ others ++ [last] := by simp
        have cell_eq := linked.last_cell
        have increments : (varbindOf last).value.Increments := by
          have proper' : (flag = .anyIndex → ∀ entry, reg.Holds entry →
                entry.varbind.name = varbind.name → entry.allocated = true) →
              ∀ address cell, reg.heap address = some cell → cell.content.varbind.name =
                varbind.name →
                cell.content.varbind.value.type = varbind.value.type → cell.next = none →
                  cell.content.varbind.value.Increments := by
            cases flag with
            | thisIndex => exact absurd rfl notThis
            | anyIndex => exact proper
            | newIndex => exact proper
          refine proper' ?_ last.1 _ cell_eq (object.place.names last here)
            (object.sameType last here) rfl
          intro isAny entry holds same
          rcases mem_of_holds hasRows object.place holds same with ⟨address, mem⟩
          exact before _ mem isAny
        rcases IndexValue.increment_spec increments with ⟨next, incremented, lt⟩
        have last_eq : lastCell (others ++ [last]) = some last.1 := by
          rw [lastCell, List.getLast?_concat]
          rfl
        have value_eq : newVarbind reg.heap varbind flag (lastCell (others ++ [last])) =
            some { varbindOf last with value := next } := by
          have incremented' : last.2.varbind.value.increment = some next := incremented
          rw [last_eq]
          cases flag with
          | thisIndex => exact absurd rfl notThis
          | anyIndex =>
              simp only [newVarbind, cell_eq, incremented', Option.bind_eq_bind, Option.bind_some]
              rfl
          | newIndex =>
              simp only [newVarbind, cell_eq, incremented', Option.bind_eq_bind, Option.bind_some]
              rfl
        have smaller : ∀ pair ∈ others ++ [last], (varbindOf pair).value.Lt next := by
          intro pair mem
          rcases List.mem_append.mp mem with mem | mem
          · have increasing := List.pairwise_append.mp object.increasing
            exact (increasing.2.2 pair mem last (by simp)).trans lt
          · rw [List.mem_singleton.mp mem]
            exact lt
        have place := object.place
        rw [← List.append_nil (others ++ [last])] at place
        rcases create_allocates ss 0 hasRows order free enough place
          (by simpa using object.sameType) (fun _ => rfl)
            (fun absurdity => absurd absurdity (by simp))
          value_eq (object.place.names last here)
            (lt.type_eq.symm.trans (object.sameType last here))
          (fun isThis => absurd isThis notThis) smaller (by simp) with ⟨reg', rows', created, spec⟩
        rw [List.append_nil, starts, Option.some_or] at created
        exact ⟨_, reg', rows', created, spec⟩

theorem exists_newVarbind (proper : ProperRequest reg varbind flag) :
    ∃ rv, newVarbind reg.heap varbind flag none = some rv ∧ rv.name = varbind.name ∧
      rv.value.type = varbind.value.type ∧ (flag = .thisIndex → rv = varbind) := by
  cases flag with
  | thisIndex => exact ⟨varbind, by rw [newVarbind, IndexValue.stored_eq proper.1], rfl,
    rfl, fun _ => rfl⟩
  | anyIndex => exact ⟨_, rfl, rfl, IndexValue.firstIndexValue_type _ _, by simp⟩
  | newIndex => exact ⟨_, rfl, rfl, IndexValue.firstIndexValue_type _ _, by simp⟩

theorem registerIndex_spec (ss : Option σ) (hasRows : HasRows reg rows)
    (order : IndexOrder (varbinds rows))
    (free : reg.heap newIndex = none) (enough : ∀ row ∈ rows, row.length ≤ fuel)
    (enoughRows : rows.length ≤ fuel) (proper : ProperRequest reg varbind flag) :
    ∃ answer reg' rows', registerIndex fuel newIndex reg varbind flag ss = some (answer, reg') ∧
      HasRows reg' rows' ∧ IndexOrder (varbinds rows') ∧
        Allocates reg varbind flag ss answer reg' := by
  rcases findIndexOid_place hasRows order enoughRows varbind.name with
    ⟨front, row, back, res, place, found, isFound, notFound⟩
  cases row with
  | nil =>
      rcases exists_newVarbind proper with ⟨rv, value_eq, name_eq, type_eq, given⟩
      have place' : Place rows varbind.name front ([] ++ []) back := place
      rcases create_allocates ss res hasRows order free enough place'
        (by simp) isFound notFound value_eq name_eq type_eq given (by simp) (by simp) with
        ⟨reg', rows', created, spec⟩
      refine ⟨some rv, reg', rows', ?_, spec⟩
      change findIndexOid reg.heap varbind.name fuel none reg.first 1 =
        some (lastRowStart front, rowsStart back, res) at found
      change createIndex fuel newIndex reg varbind flag ss (lastRowStart front)
        (rowsStart back) res none =
        some (some rv, reg') at created
      cases start_eq : rowsStart back with
      | none =>
          rw [start_eq] at found created
          simp only [registerIndex, found, Option.bind_eq_bind, Option.bind_some, created]
      | some idx =>
          have some_back : back ≠ [] := by
            rintro rfl
            cases start_eq
          rw [start_eq] at found created
          simp only [registerIndex, found, Option.bind_eq_bind, Option.bind_some,
            if_neg (notFound rfl some_back), created]
  | cons pair row =>
      have here : pair ∈ pair :: row := List.mem_cons_self
      have rows_eq : rows = front ++ (pair :: row) :: back := place.rows_eq
      have rowMem : pair :: row ∈ rows := by simp [rows_eq]
      have linked : ∃ nextRow, Row reg.heap nextRow (rowStart (pair :: row))
        (pair :: row) none := by
        rw [rows_eq] at hasRows
        exact hasRows.row_linked
      rcases linked with ⟨nextRow, linked⟩
      rcases linked.cell_of_mem here with ⟨next, cell_eq⟩
      change findIndexOid reg.heap varbind.name fuel none reg.first 1 =
        some (lastRowStart front, some pair.1, res) at found
      have register_eq : registerIndex fuel newIndex reg varbind flag ss =
          if varbind.value.type ≠ pair.2.varbind.value.type then some (none, reg)
          else registerIndexOf fuel newIndex reg varbind flag ss (lastRowStart front) pair.1 := by
        simp only [registerIndex, found, cell_eq, Option.bind_eq_bind, Option.bind_some,
          if_pos (isFound (by simp))]
      rw [register_eq]
      have types : ∀ other ∈ pair :: row, (varbindOf other).value.type =
        pair.2.varbind.value.type := by
        intro other mem
        have there := mem_varbinds rowMem mem
        exact order.sameType _ there.1 _ there.2 _ (mem_varbinds rowMem here).2
      by_cases type_eq : varbind.value.type = pair.2.varbind.value.type
      · rw [if_neg (not_not.mpr type_eq)]
        have increasing : (pair :: row).Pairwise fun first second =>
            (varbindOf first).value.Lt (varbindOf second).value := by
          have row := (order.row _ (mem_varbinds rowMem here).1).2
          exact (List.pairwise_map.mp row).imp And.right
        have object : ObjectRow reg rows varbind front (pair :: row) back :=
          ⟨place, by simp, ⟨nextRow, linked⟩, increasing,
            fun other mem => (types other mem).trans type_eq.symm⟩
        by_cases isThis : flag = .thisIndex
        · subst isThis
          exact registerThis_spec hasRows order free enough object proper rfl
        · exact registerMade_spec hasRows order free enough object isThis proper rfl
      · rw [if_pos type_eq]
        refine ⟨none, reg, rows, rfl, hasRows, order, ?_, ?_, ?_, ?_, ?_, ?_⟩
        · apply iff_of_false (by simp)
          rintro ⟨sameType, -⟩
          exact type_eq (sameType pair.2 (holds_of_mem hasRows place here)
            (place.names pair here)).symm
        all_goals rintro _ ⟨⟩

end Register

end NetSnmp
