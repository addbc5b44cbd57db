import NetSnmp.AgentIndex.Allocation

/-!
# Sequences of allocations and releases

Whatever the sessions ask for and release, the registry stays in order, so that no
value is allocated twice.
-/

namespace NetSnmp

open RowHeap RowList

variable {σ : Type}

theorem indexOrder_setEntry {front back : List (List (Addr × IndexEntry σ))}
    {left right : List (Addr × IndexEntry σ)} {address : Addr} {entry entry' : IndexEntry σ}
    (order : IndexOrder (varbinds (front ++ (left ++ (address, entry) :: right) :: back)))
    (same : entry'.varbind = entry.varbind) :
    IndexOrder (varbinds (front ++ (left ++ (address, entry') :: right) :: back)) := by
  rw [varbinds_middle] at order ⊢
  rwa [show varbindOf (address, entry') = varbindOf (address, entry) from same]

theorem indexOrder_remove {front back : List (List (Addr × IndexEntry σ))}
    {left right : List (Addr × IndexEntry σ)} {pair : Addr × IndexEntry σ}
    (order : IndexOrder (varbinds (front ++ (left ++ pair :: right) :: back))) :
    IndexOrder (varbinds (front ++ consRow (left ++ right) back)) := by
  rw [varbinds_middle] at order
  rw [varbinds_consRow]
  exact order.remove

section Fuel

variable {heap : RowHeap (IndexEntry σ)} {reg : IndexRegistry σ} {varbind : IndexVarbind}
  {flag : AllocateFlag} {ss : Option σ} {newIndex : Addr}

theorem findIndexOid_fuel (heap : RowHeap (IndexEntry σ)) (name : Oid) (fuel : Nat)
    (prevOid idx : Option Addr) (res : Int) :
    FuelStep fuel fun fuel => findIndexOid heap name fuel prevOid idx res := by
  induction fuel generalizing prevOid idx res with
  | zero =>
      cases idx with
      | none => exact fun _ eq_some => eq_some
      | some idx => exact fun _ absurdity => nomatch absurdity
  | succ fuel ih =>
      cases idx with
      | none => exact fun _ eq_some => eq_some
      | some idx =>
          have step : FuelStep fuel fun fuel => (heap idx).bind fun cell =>
              if snmpOidCompare name cell.content.varbind.name ≤ 0 then
                some (prevOid, some idx, snmpOidCompare name cell.content.varbind.name)
              else findIndexOid heap name fuel (some idx) cell.nextRow
                (snmpOidCompare name cell.content.varbind.name) :=
            (fuelStep_const _).bind fun cell => (fuelStep_const _).ite (ih _ _ _)
          exact step

theorem findIndexValue_fuel (heap : RowHeap (IndexEntry σ)) (value : IndexValue) (fuel : Nat)
    (prevIdx idx : Option Addr) (res : Int) :
    FuelStep fuel fun fuel => findIndexValue heap value fuel prevIdx idx res := by
  induction fuel generalizing prevIdx idx res with
  | zero =>
      cases idx with
      | none => exact fun _ eq_some => eq_some
      | some idx => exact fun _ absurdity => nomatch absurdity
  | succ fuel ih =>
      cases idx with
      | none => exact fun _ eq_some => eq_some
      | some idx =>
          have step : FuelStep fuel fun fuel => (heap idx).bind fun cell =>
              (value.compare cell.content.varbind.value).bind fun res =>
                if res ≤ 0 then some (prevIdx, some idx, res)
                else findIndexValue heap value fuel (some idx) cell.next res :=
            (fuelStep_const _).bind fun cell => (fuelStep_const _).bind fun res =>
              (fuelStep_const _).ite (ih _ _ _)
          exact step

theorem findUnused_fuel (heap : RowHeap (IndexEntry σ)) (flag : AllocateFlag) (fuel : Nat)
    (prevIdx idx : Option Addr) : FuelStep fuel fun fuel =>
      findUnused heap flag fuel prevIdx idx := by
  induction fuel generalizing prevIdx idx with
  | zero =>
      cases idx with
      | none => exact fun _ eq_some => eq_some
      | some idx => exact fun _ absurdity => nomatch absurdity
  | succ fuel ih =>
      cases idx with
      | none => exact fun _ eq_some => eq_some
      | some idx =>
          have step : FuelStep fuel fun fuel => (heap idx).bind fun cell =>
              if flag = .anyIndex ∧ cell.content.allocated = false then some (prevIdx, some idx)
              else findUnused heap flag fuel (some idx) cell.next :=
            (fuelStep_const _).bind fun cell => (fuelStep_const _).ite (ih _ _)
          exact step

theorem createIndex_fuel (fuel : Nat) (prevOid idx : Option Addr) (res : Int)
    (prevIdx : Option Addr) :
    FuelStep fuel fun fuel => createIndex fuel newIndex reg varbind flag ss prevOid idx
      res prevIdx := by
  apply FuelStep.bind (fuelStep_const _)
  intro rv
  cases prevIdx with
  | some prevIdx => exact fuelStep_const _
  | none =>
      cases idx with
      | none => exact (linkRow_fuel _ _ fuel _).bind fun _ => fuelStep_const _
      | some idx =>
          exact (fuelStep_const _).bind fun cell => (linkRow_fuel _ _ fuel _).bind fun _ =>
            fuelStep_const _

theorem registerIndexOf_fuel (fuel : Nat) (prevOid : Option Addr) (idx : Addr) :
    FuelStep fuel fun fuel => registerIndexOf fuel newIndex reg varbind flag ss prevOid idx := by
  cases flag with
  | thisIndex =>
      apply (findIndexValue_fuel _ _ fuel _ _ _).bind
      rintro ⟨prevIdx, _ | idx2, res2⟩
      · exact createIndex_fuel fuel _ _ _ _
      · exact FuelStep.ite (fuelStep_const _) (createIndex_fuel fuel _ _ _ _)
  | anyIndex | newIndex =>
      apply (findUnused_fuel _ _ fuel _ _).bind
      rintro ⟨prevIdx, _ | idx2⟩
      · exact createIndex_fuel fuel _ _ _ _
      · exact fuelStep_const _

theorem registerIndex_fuel (fuel : Nat) :
    FuelStep fuel fun fuel => registerIndex fuel newIndex reg varbind flag ss := by
  apply (findIndexOid_fuel _ _ fuel _ _ _).bind
  rintro ⟨prevOid, _ | idx, res⟩
  · exact createIndex_fuel fuel _ _ _ _
  · apply FuelStep.ite
    · apply (fuelStep_const _).bind
      intro cell
      exact FuelStep.ite (fuelStep_const _) (registerIndexOf_fuel fuel _ _)
    · exact createIndex_fuel fuel _ _ _ _

end Fuel

variable [DecidableEq σ]

section Unregister

variable {reg : IndexRegistry σ} {rows : List (List (Addr × IndexEntry σ))} {varbind : IndexVarbind}
  {fuel : Nat} {remember : Bool} {ss : Option σ}

theorem unregisterIndex_fuel (fuel : Nat) :
    FuelStep fuel fun fuel => unregisterIndex fuel reg varbind remember ss := by
  apply (findIndexOid_fuel _ _ fuel _ _ _).bind
  rintro ⟨prevOid, _ | idx, res⟩
  · exact fuelStep_const _
  · apply FuelStep.ite (fuelStep_const _)
    apply (fuelStep_const _).bind
    intro cell
    apply FuelStep.ite (fuelStep_const _)
    apply (findIndexValue_fuel _ _ fuel _ _ _).bind
    rintro ⟨prevIdx, _ | idx2, res2⟩
    · exact fuelStep_const _
    · apply (fuelStep_const _).bind
      intro cell
      apply FuelStep.ite (fuelStep_const _)
      apply FuelStep.ite (fuelStep_const _)
      apply FuelStep.ite (fuelStep_const _)
      cases prevIdx with
      | some prevIdx => exact fuelStep_const _
      | none => exact (removeFirst_fuel fuel _ _ _).bind fun _ => fuelStep_const _

theorem unregisterIndex_spec (varbind : IndexVarbind) (remember : Bool) (ss : Option σ)
    (hasRows : HasRows reg rows) (order : IndexOrder (varbinds rows))
    (enough : ∀ row ∈ rows, row.length ≤ fuel) (enoughRows : rows.length ≤ fuel) :
    ∃ rc reg' rows', unregisterIndex fuel reg varbind remember ss = some (rc, reg') ∧
      HasRows reg' rows' ∧ IndexOrder (varbinds rows') := by
  rcases findIndexOid_place hasRows order enoughRows varbind.name with
    ⟨front, row, back, res, place, found, isFound, notFound⟩
  cases row with
  | nil =>
      refine ⟨.notAllocated, reg, rows, ?_, hasRows, order⟩
      change findIndexOid reg.heap varbind.name fuel none reg.first 1 =
        some (lastRowStart front, rowsStart back, res) at found
      cases start_eq : rowsStart back with
      | none =>
          rw [start_eq] at found
          simp only [unregisterIndex, found, Option.bind_eq_bind, Option.bind_some]
      | some idx =>
          have some_back : back ≠ [] := by
            rintro rfl
            cases start_eq
          rw [start_eq] at found
          simp only [unregisterIndex, found, Option.bind_eq_bind, Option.bind_some,
            if_pos (notFound rfl some_back)]
  | cons pair row =>
      have here : pair ∈ pair :: row := List.mem_cons_self
      have rows_eq : rows = front ++ (pair :: row) :: back := place.rows_eq
      subst rows_eq
      have rowMem : pair :: row ∈ front ++ (pair :: row) :: back := by simp
      rcases hasRows.row_linked with ⟨nextRow, linked⟩
      rcases linked.cell_of_mem here with ⟨next, cell_eq⟩
      change findIndexOid reg.heap varbind.name fuel none reg.first 1 =
        some (lastRowStart front, some pair.1, res) at found
      have unregister_eq : unregisterIndex fuel reg varbind remember ss =
          if varbind.value.type ≠ pair.2.varbind.value.type then some (.wrongType, reg)
          else unregisterIndexOf fuel reg varbind.value remember ss
            (lastRowStart front) pair.1 := by
        simp only [unregisterIndex, found, cell_eq, Option.bind_eq_bind, Option.bind_some,
          if_neg (not_not.mpr (isFound (by simp)))]
      rw [unregister_eq]
      by_cases type_eq : varbind.value.type = pair.2.varbind.value.type
      · rw [if_neg (not_not.mpr type_eq)]
        have sameType : ∀ other ∈ pair :: row, varbind.value.type =
          (varbindOf other).value.type := by
          intro other mem
          have there := mem_varbinds rowMem mem
          exact type_eq.trans (order.sameType _ there.1 _ (mem_varbinds rowMem here).2 _ there.2)
        rcases findIndexValue_spec none linked sameType (enough _ rowMem) 1 with
          ⟨left, right, res2, row_eq, searched, -⟩
        rw [row_eq] at hasRows order linked
        rw [Option.or_none] at searched
        change findIndexValue reg.heap varbind.value fuel none (some pair.1) 1 =
          some (lastCell left, rowStart right, res2) at searched
        cases right with
        | nil =>
            refine ⟨.notAllocated, reg, _, ?_, hasRows, order⟩
            simp only [unregisterIndexOf, searched, rowStart, List.head?_nil, Option.map_none,
              Option.bind_eq_bind, Option.bind_some]
        | cons found right =>
            rcases found with ⟨address, entry⟩
            have foundMem : (address, entry) ∈ left ++ (address, entry) :: right := by simp
            rcases linked.cell_of_mem foundMem with ⟨next', found_eq⟩
            simp only [unregisterIndexOf, searched, rowStart, List.head?_cons, Option.map_some,
              Option.bind_eq_bind, Option.bind_some, found_eq]
            split
            · exact ⟨.notAllocated, reg, _, rfl, hasRows, order⟩
            split
            · exact ⟨.wrongSession, reg, _, rfl, hasRows, order⟩
            split
            · exact ⟨.noError, _, _, rfl, hasRows.setContent found_eq,
                indexOrder_setEntry order rfl⟩
            rcases List.eq_nil_or_concat left with rfl | ⟨left, last, rfl⟩
            · have frontEnough : ∀ row ∈ front, row.length ≤ fuel :=
                fun row mem => enough row (List.mem_append_left _ mem)
              rcases hasRows.removeFirst frontEnough with ⟨reg', removed, hasRows'⟩
              have order' : IndexOrder
                (varbinds (front ++ ([] ++ (address, entry) :: right) :: back)) := order
              refine ⟨.noError, reg', _, ?_, hasRows', indexOrder_remove order'⟩
              simp only [lastCell, List.getLast?_nil, Option.map_none, removed, Option.bind_some]
            · rw [List.concat_eq_append] at *
              have last_eq : lastCell (left ++ [last]) = some last.1 := by
                rw [lastCell, List.getLast?_concat]
                rfl
              have whole : (left ++ [last]) ++ (address, entry) :: right =
                  left ++ last :: (address, entry) :: right := by simp
              rw [whole] at hasRows
              rcases hasRows.removeBehind with ⟨reg', removed, hasRows'⟩
              have removedOrder := indexOrder_remove order
              rw [List.append_assoc, List.singleton_append, consRow_middle] at removedOrder
              refine ⟨.noError, reg', _, ?_, hasRows', removedOrder⟩
              simp only [last_eq, removed, Option.bind_some]
      · exact ⟨.wrongType, reg, _, if_pos type_eq, hasRows, order⟩

end Unregister

section BySession

variable {heap : RowHeap (IndexEntry σ)} {nextRow start : Option Addr}
  {row : List (Addr × IndexEntry σ)} {rows : List (List (Addr × IndexEntry σ))} {fuel rowFuel : Nat}

def releasePair (ss : Option σ) (pair : Addr × IndexEntry σ) : Addr × IndexEntry σ :=
  (pair.1, pair.2.release ss)

@[simp]
theorem map_releasePair_fst (ss : Option σ) (row : List (Addr × IndexEntry σ)) :
    (row.map (releasePair ss)).map Prod.fst = row.map Prod.fst := by
  rw [List.map_map]
  rfl

theorem varbind_release (ss : Option σ) (entry : IndexEntry σ) :
    (entry.release ss).varbind = entry.varbind := by
  rw [IndexEntry.release]
  split <;> rfl

theorem varbinds_release (ss : Option σ) :
    varbinds (rows.map (List.map (releasePair ss))) = varbinds rows := by
  rw [varbinds, varbinds, List.map_map]
  apply List.map_congr_left
  intro row _
  rw [Function.comp_apply, List.map_map]
  apply List.map_congr_left
  intro pair _
  exact varbind_release ss pair.2

theorem releaseRow_spec (ss : Option σ) (linked : Row heap nextRow start row none)
    (nodup : (row.map Prod.fst).Nodup) (enough : row.length ≤ fuel) :
    ∃ heap', releaseRow ss fuel heap start = some heap' ∧
      Row heap' nextRow start (row.map (releasePair ss)) none ∧
      ∀ address, address ∉ row.map Prod.fst → heap' address = heap address := by
  induction row generalizing heap start fuel with
  | nil =>
      cases linked
      refine ⟨heap, ?_, rfl, fun _ _ => rfl⟩
      cases fuel <;> rfl
  | cons pair row ih =>
      rcases pair with ⟨address, entry⟩
      rcases linked with ⟨rfl, next, cell_eq, rest⟩
      rw [List.map_cons] at nodup
      rcases List.nodup_cons.mp nodup with ⟨fresh, nodupRest⟩
      rcases Nat.exists_eq_add_of_lt (Nat.lt_of_lt_of_le (Nat.succ_pos _) enough) with ⟨less, rfl⟩
      have restLinked : Row (heap.put address ⟨entry.release ss, nextRow, next⟩) nextRow next
        row none := by
        apply rest.frame
        intro other mem
        exact put_of_ne (ne_of_mem_of_not_mem mem fresh)
      rw [List.length_cons] at enough
      rcases ih restLinked nodupRest (show row.length ≤ 0 + less by omega) with
        ⟨heap', released, linked', same⟩
      refine ⟨heap', ?_, ⟨rfl, next, ?_, linked'⟩, ?_⟩
      · simp only [releaseRow, cell_eq]
        exact released
      · exact (same address fresh).trans put_self
      · intro other notMem
        rw [List.map_cons, List.mem_cons, not_or] at notMem
        exact (same other notMem.2).trans (put_of_ne notMem.1)

theorem releaseRows_spec (ss : Option σ) (linked : Rows heap start rows none)
    (nodup : (addresses rows).Nodup) (enoughRow : ∀ row ∈ rows, row.length ≤ rowFuel)
    (enough : rows.length ≤ fuel) :
    ∃ heap', releaseRows ss rowFuel fuel heap start = some heap' ∧
      Rows heap' start (rows.map (List.map (releasePair ss))) none ∧
      ∀ address, address ∉ addresses rows → heap' address = heap address := by
  induction rows generalizing heap start fuel with
  | nil =>
      cases linked
      refine ⟨heap, ?_, rfl, fun _ _ => rfl⟩
      cases fuel <;> rfl
  | cons row rows ih =>
      rcases linked with ⟨some_row, nextRow, rowLinked, rest⟩
      rw [addresses_cons] at nodup
      rcases List.nodup_append.mp nodup with ⟨nodupRow, nodupRest, apart⟩
      rcases releaseRow_spec ss rowLinked nodupRow (enoughRow row List.mem_cons_self) with
        ⟨heap₁, releasedRow, rowLinked', same₁⟩
      have restLinked : Rows heap₁ nextRow rows none := by
        apply rest.frame
        intro other mem
        apply same₁
        intro rowMem
        exact apart other rowMem other mem rfl
      rcases Nat.exists_eq_add_of_lt (Nat.lt_of_lt_of_le (Nat.succ_pos _) enough) with ⟨less, rfl⟩
      rw [List.length_cons] at enough
      rcases ih restLinked nodupRest (fun row mem => enoughRow row (List.mem_cons_of_mem _ mem))
        (show rows.length ≤ 0 + less by omega) with ⟨heap', released, linked', same⟩
      rcases List.exists_cons_of_ne_nil some_row with ⟨pair, others, rfl⟩
      have start_eq : start = some pair.1 := rowLinked.start_eq
      subst start_eq
      rcases rowLinked' with ⟨-, next, cell_eq, othersLinked⟩
      have rowLinked'' : Row heap₁ nextRow (some pair.1)
        ((pair :: others).map (releasePair ss)) none :=
        ⟨rfl, next, cell_eq, othersLinked⟩
      refine ⟨heap', ?_, ⟨by simp, nextRow, rowLinked''.frame ?_, linked'⟩, ?_⟩
      · simp only [releaseRows, releasedRow, Option.bind_eq_bind, Option.bind_some]
        rw [show heap₁ pair.1 = some ⟨pair.2.release ss, nextRow, next⟩ from cell_eq]
        exact released
      · intro other mem
        rw [map_releasePair_fst] at mem
        apply same
        intro restMem
        exact apart other mem other restMem rfl
      · intro other notMem
        rw [addresses_cons, List.mem_append, not_or] at notMem
        exact (same other notMem.2).trans (same₁ other notMem.1)

theorem releaseRow_fuel (ss : Option σ) (fuel : Nat) (heap : RowHeap (IndexEntry σ))
    (start : Option Addr) :
    FuelStep fuel fun fuel => releaseRow ss fuel heap start := by
  induction fuel generalizing heap start with
  | zero =>
      cases start with
      | none => exact fun _ eq_some => eq_some
      | some idx => exact fun _ absurdity => nomatch absurdity
  | succ fuel ih =>
      cases start with
      | none => exact fun _ eq_some => eq_some
      | some idx =>
          have step : FuelStep fuel fun fuel => (heap idx).bind fun cell =>
              releaseRow ss fuel
                (heap.put idx { cell with content := cell.content.release ss }) cell.next :=
            (fuelStep_const _).bind fun cell => ih _ _
          exact step

theorem releaseRows_fuel (ss : Option σ) (fuel : Nat) (heap : RowHeap (IndexEntry σ))
    (start : Option Addr) (more : Nat) :
    FuelStep fuel fun fuel => releaseRows ss (fuel + more) fuel heap start := by
  induction fuel generalizing heap start more with
  | zero =>
      cases start with
      | none => exact fun _ eq_some => eq_some
      | some idx => exact fun _ absurdity => nomatch absurdity
  | succ fuel ih =>
      cases start with
      | none => exact fun _ eq_some => eq_some
      | some idx =>
          have step : FuelStep fuel fun fuel =>
              (releaseRow ss (fuel + 1 + more) heap (some idx)).bind fun heap =>
                (heap idx).bind fun cell =>
                releaseRows ss (fuel + 1 + more) fuel heap cell.nextRow := by
            apply FuelStep.bind
            · have row := releaseRow_fuel ss (fuel + 1 + more) heap (some idx)
              intro value eq_some
              have more_eq : fuel + 1 + 1 + more = fuel + 1 + more + 1 := by omega
              simp only [more_eq]
              exact row value eq_some
            · intro heap
              apply (fuelStep_const _).bind
              intro cell
              simpa only [Nat.add_assoc] using ih heap cell.nextRow (1 + more)
          exact step

theorem unregisterIndexBySession_spec {reg : IndexRegistry σ} (hasRows : HasRows reg rows)
    (order : IndexOrder (varbinds rows)) (enough : ∀ row ∈ rows, row.length ≤ fuel)
    (enoughRows : rows.length ≤ fuel) (ss : Option σ) :
    ∃ reg' rows', unregisterIndexBySession fuel reg ss = some reg' ∧ HasRows reg' rows' ∧
      IndexOrder (varbinds rows') := by
  rcases releaseRows_spec ss hasRows.linked hasRows.nodup enough enoughRows with
    ⟨heap', released, linked, same⟩
  have addresses_eq : addresses (rows.map (List.map (releasePair ss))) = addresses rows := by
    rw [addresses, addresses, List.map_flatten, List.map_flatten, List.map_map]
    congr 1
    apply List.map_congr_left
    intro row _
    exact map_releasePair_fst ss row
  refine ⟨{ reg with heap := heap' }, rows.map (List.map (releasePair ss)), ?_,
    ⟨linked, ?_, ?_⟩, ?_⟩
  · simp only [unregisterIndexBySession, released, Option.bind_eq_bind, Option.bind_some]
  · rw [addresses_eq]
    exact hasRows.nodup
  · intro address allocated
    rw [addresses_eq]
    by_contra absent
    apply allocated
    refine (same address absent).trans ?_
    by_contra there
    exact absent (hasRows.owned address there)
  · rw [varbinds_release]
    exact order

end BySession

/-- A call of one of the routines; `remove_index` is a call of `unregister_index` that does not
remember the entry. -/
inductive IndexCall (σ : Type) where
  | register (varbind : IndexVarbind) (flag : AllocateFlag) (ss : Option σ)
  | unregister (varbind : IndexVarbind) (remember : Bool) (ss : Option σ)
  | unregisterBySession (ss : Option σ)
  deriving Repr

inductive IndexAnswer where
  | varbind (rv : Option IndexVarbind)
  | result (rc : UnregisterResult)
  | nothing
  deriving DecidableEq, Repr

def IndexCall.perform (fuel : Nat) (newIndex : Addr) (reg : IndexRegistry σ) :
    IndexCall σ → Option (IndexAnswer × IndexRegistry σ)
  | .register varbind flag ss =>
      (registerIndex fuel newIndex reg varbind flag ss).map fun (rv, reg) => (.varbind rv, reg)
  | .unregister varbind remember ss =>
      (unregisterIndex fuel reg varbind remember ss).map fun (rc, reg) => (.result rc, reg)
  | .unregisterBySession ss => (unregisterIndexBySession fuel reg ss).map fun reg => (.nothing, reg)

/-- The registries that are reached by any calls that are allowed.  The memory of a new entry is
not in use. -/
inductive IndexRun (allowed : IndexRegistry σ → IndexCall σ → Prop) : IndexRegistry σ → Prop
  | empty : IndexRun allowed ⟨none, fun _ => none⟩
  | call {reg reg' : IndexRegistry σ} {answer : IndexAnswer} (newIndex : Addr) (call : IndexCall σ)
      (run : IndexRun allowed reg) (isAllowed : allowed reg call) (free : reg.heap newIndex = none)
      (returns : Settles (fun fuel => call.perform fuel newIndex reg) (answer, reg')) :
      IndexRun allowed reg'

/-- Requests are proper; there is no condition on other calls. -/
def ProperCall (reg : IndexRegistry σ) : IndexCall σ → Prop
  | .register varbind flag _ => ProperRequest reg varbind flag
  | _ => True

section Runs

variable {reg reg' : IndexRegistry σ} {call : IndexCall σ} {newIndex : Addr}
  {answer answer' : IndexAnswer}
  {rows : List (List (Addr × IndexEntry σ))}

theorem perform_fuel (call : IndexCall σ) (fuel : Nat) :
    FuelStep fuel fun fuel => call.perform fuel newIndex reg := by
  cases call with
  | register varbind flag ss => exact (registerIndex_fuel fuel).map _
  | unregister varbind remember ss => exact (unregisterIndex_fuel fuel).map _
  | unregisterBySession ss =>
      exact ((releaseRows_fuel ss fuel reg.heap reg.first 0).bind fun _ => fuelStep_const _).map _

theorem returns_of_proper (hasRows : HasRows reg rows) (order : IndexOrder (varbinds rows))
    (proper : ProperCall reg call) (free : reg.heap newIndex = none) :
    ∃ answer reg' rows', Settles (fun fuel => call.perform fuel newIndex reg) (answer, reg') ∧
      HasRows reg' rows' ∧ IndexOrder (varbinds rows') ∧
      ∀ varbind flag ss, call = .register varbind flag ss →
        ∃ rv, answer = .varbind rv ∧ Allocates reg varbind flag ss rv reg' := by
  let fuel := rows.length + rows.flatten.length
  have enoughRows : rows.length ≤ fuel := Nat.le_add_right _ _
  have enough : ∀ row ∈ rows, row.length ≤ fuel := by
    intro row mem
    exact (List.sublist_flatten_of_mem mem).length_le.trans (Nat.le_add_left _ _)
  cases call with
  | register varbind flag ss =>
      rcases registerIndex_spec ss hasRows order free enough enoughRows proper with
        ⟨rv, reg', rows', registered, hasRows', order', allocates⟩
      refine ⟨.varbind rv, reg', rows', settles_of_fuel fuel (perform_fuel _) ?_, hasRows',
        order', ?_⟩
      · simp only [IndexCall.perform, registered, Option.map_some]
      · rintro _ _ _ ⟨⟩
        exact ⟨rv, rfl, allocates⟩
  | unregister varbind remember ss =>
      rcases unregisterIndex_spec varbind remember ss hasRows order
        enough enoughRows with ⟨rc, reg', rows', unregistered, hasRows', order'⟩
      refine ⟨.result rc, reg', rows', settles_of_fuel fuel (perform_fuel _) ?_, hasRows',
        order', ?_⟩
      · simp only [IndexCall.perform, unregistered, Option.map_some]
      · rintro _ _ _ ⟨⟩
  | unregisterBySession ss =>
      rcases unregisterIndexBySession_spec hasRows order enough enoughRows ss with
        ⟨reg', rows', unregistered, hasRows', order'⟩
      refine ⟨.nothing, reg', rows', settles_of_fuel fuel (perform_fuel _) ?_, hasRows', order', ?_⟩
      · simp only [IndexCall.perform, unregistered, Option.map_some]
      · rintro _ _ _ ⟨⟩

theorem IndexRun.order (run : IndexRun ProperCall reg) :
    ∃ rows, HasRows reg rows ∧ IndexOrder (varbinds rows) := by
  induction run with
  | empty =>
      refine ⟨[], ⟨rfl, List.nodup_nil, ?_⟩, ⟨by simp [varbinds], .nil⟩⟩
      intro address allocated
      exact absurd rfl allocated
  | call newIndex call _ proper free returns ih =>
      rcases ih with ⟨rows, hasRows, order⟩
      rcases returns_of_proper hasRows order proper free with
        ⟨_, reg', rows', returns', hasRows', order', -⟩
      have same := returns.unique returns'
      cases same
      exact ⟨rows', hasRows', order'⟩

/-- In every run of proper requests and any other calls no two entries of an object have the same
value, the entries are in order with their links, every call returns, and a request is answered with
a value that is not in use: a given one if it is not, and a new one if it was never used. -/
theorem allocation_exclusive (run : IndexRun ProperCall reg) :
    (∀ address address' cell cell', reg.heap address = some cell → reg.heap address' = some cell' →
        cell.content.varbind = cell'.content.varbind → address = address') ∧
      (∃ rows, HasRows reg rows ∧ IndexOrder (varbinds rows)) ∧
      (∀ call newIndex, ProperCall reg call → reg.heap newIndex = none →
        ∃ result, Settles (fun fuel => call.perform fuel newIndex reg) result) ∧
      ∀ varbind flag ss newIndex rv reg', ProperRequest reg varbind flag →
        reg.heap newIndex = none →
        Settles (fun fuel => registerIndex fuel newIndex reg varbind flag ss) (rv, reg') →
          Allocates reg varbind flag ss rv reg' := by
  rcases run.order with ⟨rows, hasRows, order⟩
  refine ⟨?_, ⟨rows, hasRows, order⟩, ?_, ?_⟩
  · intro address address' cell cell' cell_eq cell_eq' same
    have same' := pair_eq order (hasRows.mem_of_cell cell_eq) (hasRows.mem_of_cell cell_eq') same
    exact congrArg Prod.fst same'
  · intro call newIndex proper free
    rcases returns_of_proper hasRows order proper free with ⟨answer, reg', _, returns, -⟩
    exact ⟨(answer, reg'), returns⟩
  · intro varbind flag ss newIndex rv reg' proper free returns
    have proper' : ProperCall reg (.register varbind flag ss) := proper
    rcases returns_of_proper hasRows order proper' free with
      ⟨_, reg'', _, returns', -, -, allocates⟩
    rcases returns with ⟨bound, registers⟩
    have mapped : Settles (fun fuel =>
      (IndexCall.register varbind flag ss).perform fuel newIndex reg)
        (.varbind rv, reg') := by
      refine ⟨bound, fun fuel le => ?_⟩
      simp only [IndexCall.perform, registers fuel le, Option.map_some]
    have same := mapped.unique returns'
    cases same
    rcases allocates varbind flag ss rfl with ⟨_, ⟨rfl⟩, allocates⟩
    exact allocates

/-- One value of `ifIndex` is allocated. -/
def oneIndex : IndexRegistry Nat :=
  ⟨some 0, RowHeap.put (fun _ => none) 0 ⟨⟨⟨[1, 3, 6], .integer 1⟩, true, some 7⟩, none, none⟩⟩

theorem run_oneIndex : IndexRun ProperCall oneIndex := by
  refine IndexRun.call 0 (.register ⟨[1, 3, 6], .integer 0⟩ .anyIndex (some 7)) .empty ?_ rfl
    (settles_of_fuel 1 (perform_fuel _) rfl)
  rintro - address cell ⟨⟩

theorem allocation_exclusive_oneIndex :
    (∃ rows, HasRows oneIndex rows ∧ IndexOrder (varbinds rows)) ∧
      ∃ reg', Allocates oneIndex ⟨[1, 3, 6], .integer 0⟩ .newIndex (some 8)
        (some ⟨[1, 3, 6], .integer 2⟩) reg' := by
  have exclusive := allocation_exclusive run_oneIndex
  have proper : ProperRequest oneIndex ⟨[1, 3, 6], .integer 0⟩ .newIndex := by
    intro _ address cell cell_eq _ _ _
    by_cases here : address = 0
    · subst here
      cases cell_eq
      exact ⟨by decide, by decide⟩
    · have absent : oneIndex.heap address = none := by simp [oneIndex, RowHeap.put, here]
      rw [absent] at cell_eq
      cases cell_eq
  exact ⟨exclusive.2.1, _, exclusive.2.2.2 _ _ (some 8) 1 _ _ proper rfl
    (settles_of_fuel 2 (registerIndex_fuel ·) rfl)⟩

/-- The string behind `zzzz` is made up as `aaaab`, though it is in use. -/
theorem not_exclusive :
    ¬ ∀ reg : IndexRegistry Nat, IndexRun (fun _ _ => True) reg →
      ∀ address address' cell cell', reg.heap address = some cell → reg.heap address' = some cell' →
        cell.content.allocated = true → cell'.content.allocated = true →
          cell.content.varbind = cell'.content.varbind → address = address' := by
  intro exclusive
  have start : IndexRun (fun (_ : IndexRegistry Nat) _ => True) ⟨none, fun _ => none⟩ := .empty
  have first := IndexRun.call 0
    (.register ⟨[1, 3, 6], .octetStr [97, 97, 97, 97, 98]⟩ .thisIndex (some 7)) start trivial rfl
    (settles_of_fuel 3 (perform_fuel _) rfl)
  have second := IndexRun.call 1
    (.register ⟨[1, 3, 6], .octetStr [122, 122, 122, 122]⟩ .thisIndex (some 8)) first trivial rfl
    (settles_of_fuel 3 (perform_fuel _) rfl)
  have third := IndexRun.call 2
    (.register ⟨[1, 3, 6], .octetStr []⟩ .newIndex (some 9)) second trivial rfl
    (settles_of_fuel 3 (perform_fuel _) rfl)
  have same : 0 = 2 := exclusive _ third 0 2 _ _ rfl rfl rfl rfl rfl
  exact absurd same (by decide)

end Runs

end NetSnmp
