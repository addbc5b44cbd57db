import Mathlib.Data.List.Nodup
import NetSnmp.Fuel
import NetSnmp.LinkedList

/-!
# Lists of rows

A list of lists in the heap: each cell leads to the next one of its row and to the
first cell of the next row, so that a change of the first cell of a row is one of
all cells of the row in front.
-/

namespace NetSnmp

structure RowCell (α : Type) where
  content : α
  nextRow : Option Addr
  next : Option Addr
  deriving DecidableEq, Repr

abbrev RowHeap (α : Type) := Addr → Option (RowCell α)

structure RowList (α : Type) where
  first : Option Addr
  heap : RowHeap α

variable {α : Type}

namespace RowHeap

def put (heap : RowHeap α) (address : Addr) (cell : RowCell α) : RowHeap α :=
  Function.update heap address (some cell)

def free (heap : RowHeap α) (address : Addr) : RowHeap α := Function.update heap address none

/-- Let all cells of a row lead to another next row; `none` if the row is longer than `fuel`. -/
def relinkRow (target : Option Addr) : Nat → RowHeap α → Option Addr → Option (RowHeap α)
  | _, heap, none => some heap
  | 0, _, some _ => none
  | fuel + 1, heap, some address => do
      let cell ← heap address
      relinkRow target fuel (heap.put address { cell with nextRow := target }) cell.next

/-- The cells from `start` on, up to where a row leads to `stop`; all of them lead to the same next
row. -/
def Row (heap : RowHeap α) (nextRow : Option Addr) :
    (start : Option Addr) → List (Addr × α) → (stop : Option Addr) → Prop
  | start, [], stop => start = stop
  | start, (address, content) :: row, stop =>
      start = some address ∧ ∃ next, heap address = some ⟨content, nextRow, next⟩ ∧
        Row heap nextRow next row stop

/-- The rows from `start` on, up to where the last row leads to `stop`. -/
def Rows (heap : RowHeap α) :
    (start : Option Addr) → List (List (Addr × α)) → (stop : Option Addr) → Prop
  | start, [], stop => start = stop
  | start, row :: rows, stop =>
      row ≠ [] ∧ ∃ nextRow, Row heap nextRow start row none ∧ Rows heap nextRow rows stop

def addresses (rows : List (List (Addr × α))) : List Addr := rows.flatten.map Prod.fst

section Links

variable {heap heap' : RowHeap α} {nextRow start stop : Option Addr} {row : List (Addr × α)}
  {rows : List (List (Addr × α))} {address : Addr} {cell : RowCell α}

@[simp]
theorem put_self : heap.put address cell address = some cell := Function.update_self _ _ _

theorem put_of_ne {other : Addr} (ne : other ≠ address) :
    heap.put address cell other = heap other := Function.update_of_ne ne _ _

theorem free_of_ne {other : Addr} (ne : other ≠ address) :
    heap.free address other = heap other := Function.update_of_ne ne _ _

@[simp]
theorem addresses_cons : addresses (row :: rows) = row.map Prod.fst ++ addresses rows := by
  simp [addresses]

@[simp]
theorem addresses_append {rows' : List (List (Addr × α))} :
    addresses (rows ++ rows') = addresses rows ++ addresses rows' := by
  simp [addresses]

theorem Row.start_eq (linked : Row heap nextRow start row stop) :
    start = (row.head?.map Prod.fst).or stop := by
  cases row with
  | nil => exact linked
  | cons pair row => exact linked.1

theorem Rows.start_eq (linked : Rows heap start rows stop) :
    start = (rows.head?.bind fun row => row.head?.map Prod.fst).or stop := by
  cases rows with
  | nil => exact linked
  | cons row rows =>
      rcases linked with ⟨some_row, nextRow, rowLinked, -⟩
      cases row with
      | nil => exact absurd rfl some_row
      | cons pair row => exact rowLinked.1

theorem Row.frame (linked : Row heap nextRow start row stop)
    (same : ∀ address ∈ row.map Prod.fst, heap' address = heap address) :
    Row heap' nextRow start row stop := by
  induction row generalizing start with
  | nil => exact linked
  | cons pair row ih =>
      rcases linked with ⟨start_eq, next, cell_eq, rest⟩
      refine ⟨start_eq, next, (same _ List.mem_cons_self).trans cell_eq, ih rest ?_⟩
      intro address mem
      exact same address (List.mem_cons_of_mem _ mem)

theorem Rows.frame (linked : Rows heap start rows stop)
    (same : ∀ address ∈ addresses rows, heap' address = heap address) :
    Rows heap' start rows stop := by
  induction rows generalizing start with
  | nil => exact linked
  | cons row rows ih =>
      rcases linked with ⟨some_row, nextRow, rowLinked, rest⟩
      rw [addresses_cons] at same
      refine ⟨some_row, nextRow, rowLinked.frame ?_, ih rest ?_⟩
      · intro address mem
        exact same address (List.mem_append_left _ mem)
      · intro address mem
        exact same address (List.mem_append_right _ mem)

theorem row_append {front back : List (Addr × α)} :
    Row heap nextRow start (front ++ back) stop ↔
      ∃ middle, Row heap nextRow start front middle ∧ Row heap nextRow middle back stop := by
  induction front generalizing start with
  | nil =>
      constructor
      · intro linked
        exact ⟨start, rfl, linked⟩
      · rintro ⟨middle, rfl, linked⟩
        exact linked
  | cons pair front ih =>
      simp only [List.cons_append, Row, ih]
      constructor
      · rintro ⟨start_eq, next, cell_eq, middle, frontLinked, backLinked⟩
        exact ⟨middle, ⟨start_eq, next, cell_eq, frontLinked⟩, backLinked⟩
      · rintro ⟨middle, ⟨start_eq, next, cell_eq, frontLinked⟩, backLinked⟩
        exact ⟨start_eq, next, cell_eq, middle, frontLinked, backLinked⟩

theorem rows_append {front back : List (List (Addr × α))} :
    Rows heap start (front ++ back) stop ↔
      ∃ middle, Rows heap start front middle ∧ Rows heap middle back stop := by
  induction front generalizing start with
  | nil =>
      constructor
      · intro linked
        exact ⟨start, rfl, linked⟩
      · rintro ⟨middle, rfl, linked⟩
        exact linked
  | cons row front ih =>
      simp only [List.cons_append, Rows, ih]
      constructor
      · rintro ⟨some_row, nextRow, rowLinked, middle, frontLinked, backLinked⟩
        exact ⟨middle, ⟨some_row, nextRow, rowLinked, frontLinked⟩, backLinked⟩
      · rintro ⟨middle, ⟨some_row, nextRow, rowLinked, frontLinked⟩, backLinked⟩
        exact ⟨some_row, nextRow, rowLinked, middle, frontLinked, backLinked⟩

theorem Row.cell_of_mem (linked : Row heap nextRow start row stop) {pair : Addr × α}
    (mem : pair ∈ row) : ∃ next, heap pair.1 = some ⟨pair.2, nextRow, next⟩ := by
  rcases List.append_of_mem mem with ⟨front, back, rfl⟩
  rcases row_append.mp linked with ⟨_, -, -, next, cell_eq, -⟩
  exact ⟨next, cell_eq⟩

theorem Row.last_cell {front : List (Addr × α)} {pair : Addr × α}
    (linked : Row heap nextRow start (front ++ [pair]) stop) :
    heap pair.1 = some ⟨pair.2, nextRow, stop⟩ := by
  rcases row_append.mp linked with ⟨_, -, -, next, cell_eq, rfl⟩
  exact cell_eq

theorem Rows.cell_of_mem (linked : Rows heap start rows stop) {pair : Addr × α}
    (mem : pair ∈ rows.flatten) :
    ∃ nextRow next, heap pair.1 = some ⟨pair.2, nextRow, next⟩ := by
  rcases List.mem_flatten.mp mem with ⟨row, rowMem, pairMem⟩
  rcases List.append_of_mem rowMem with ⟨front, back, rfl⟩
  rcases rows_append.mp linked with ⟨_, -, -, nextRow, rowLinked, -⟩
  exact ⟨nextRow, rowLinked.cell_of_mem pairMem⟩

theorem relinkRow_spec (target : Option Addr) {fuel : Nat}
    (linked : Row heap nextRow start row none) (nodup : (row.map Prod.fst).Nodup)
    (enough : row.length ≤ fuel) :
    ∃ heap', relinkRow target fuel heap start = some heap' ∧ Row heap' target start row none ∧
      ∀ address, address ∉ row.map Prod.fst → heap' address = heap address := by
  induction row generalizing heap start fuel with
  | nil =>
      cases linked
      refine ⟨heap, ?_, rfl, fun _ _ => rfl⟩
      cases fuel <;> rfl
  | cons pair row ih =>
      rcases pair with ⟨address, content⟩
      rcases linked with ⟨rfl, next, cell_eq, rest⟩
      rw [List.map_cons] at nodup
      rcases List.nodup_cons.mp nodup with ⟨fresh, nodupRest⟩
      rcases Nat.exists_eq_add_of_lt (Nat.lt_of_lt_of_le (Nat.succ_pos _) enough) with ⟨less, rfl⟩
      have restLinked : Row (heap.put address ⟨content, target, next⟩) nextRow next row none := by
        apply rest.frame
        intro other mem
        exact put_of_ne (ne_of_mem_of_not_mem mem fresh)
      rw [List.length_cons] at enough
      rcases ih restLinked nodupRest (show row.length ≤ 0 + less by omega) with
        ⟨heap', relinked, linked', same⟩
      refine ⟨heap', ?_, ⟨rfl, next, ?_, linked'⟩, ?_⟩
      · simp only [relinkRow, cell_eq]
        exact relinked
      · exact (same address fresh).trans put_self
      · intro other notMem
        rw [List.map_cons, List.mem_cons, not_or] at notMem
        exact (same other notMem.2).trans (put_of_ne notMem.1)

theorem relinkRow_fuel (target : Option Addr) (fuel : Nat) (heap : RowHeap α)
    (start : Option Addr) : FuelStep fuel fun fuel => relinkRow target fuel heap start := by
  induction fuel generalizing heap start with
  | zero =>
      cases start with
      | none => exact fun _ eq_some => eq_some
      | some address => exact fun _ absurdity => nomatch absurdity
  | succ fuel ih =>
      cases start with
      | none => exact fun _ eq_some => eq_some
      | some address =>
          have step : FuelStep fuel fun fuel => (heap address).bind fun cell =>
              relinkRow target fuel (heap.put address { cell with nextRow := target }) cell.next :=
            (fuelStep_const _).bind fun cell => ih _ _
          exact step

end Links

end RowHeap

namespace RowList

open RowHeap

/-- The row behind the one that starts at `before` starts at `target` from now on. -/
def linkRow (fuel : Nat) (before target : Option Addr) (list : RowList α) : Option (RowList α) :=
  match before with
  | some before => do
      let heap ← relinkRow target fuel list.heap (some before)
      some { list with heap }
  | none => some { list with first := target }

/-- Put a new cell into a row, behind the cell `before`. -/
def insertBehind (before address : Addr) (content : α) (list : RowList α) : Option (RowList α) := do
  let cell ← list.heap before
  some { list with
    heap := (list.heap.put address ⟨content, cell.nextRow, cell.next⟩).put before
      { cell with next := some address } }

/-- Put a new cell in front of a row or of all rows behind the one that starts at `before`. -/
def insertFirst (fuel : Nat) (before : Option Addr) (address : Addr) (cell : RowCell α)
    (list : RowList α) : Option (RowList α) :=
  linkRow fuel before (some address) { list with heap := list.heap.put address cell }

/-- Take the cell at `address` out, behind the cell `before` of its row. -/
def removeBehind (before address : Addr) (list : RowList α) : Option (RowList α) := do
  let cell ← list.heap address
  let cellBefore ← list.heap before
  some { list with heap :=
    (list.heap.put before { cellBefore with next := cell.next }).free address }

/-- Take the first cell of a row out; `before` is the first cell of the row in front. -/
def removeFirst (fuel : Nat) (before : Option Addr) (address : Addr) (list : RowList α) :
    Option (RowList α) := do
  let cell ← list.heap address
  let list ← linkRow fuel before (if cell.next.isSome then cell.next else cell.nextRow) list
  some { list with heap := list.heap.free address }

theorem linkRow_fuel (before target : Option Addr) (fuel : Nat) (list : RowList α) :
    FuelStep fuel fun fuel => linkRow fuel before target list := by
  cases before with
  | none => exact fuelStep_const _
  | some before =>
      exact (relinkRow_fuel target fuel list.heap (some before)).bind fun _ => fuelStep_const _

theorem removeFirst_fuel (fuel : Nat) (before : Option Addr) (address : Addr)
    (list : RowList α) :
    FuelStep fuel fun fuel => removeFirst fuel before address list :=
  (fuelStep_const _).bind fun _ => (linkRow_fuel _ _ fuel _).bind fun _ => fuelStep_const _

/-- The cells of all rows, each at an address of its own, and no others are allocated. -/
structure HasRows (list : RowList α) (rows : List (List (Addr × α))) : Prop where
  linked : Rows list.heap list.first rows none
  nodup : (addresses rows).Nodup
  owned : ∀ address, list.heap address ≠ none → address ∈ addresses rows

def rowStart (row : List (Addr × α)) : Option Addr := row.head?.map Prod.fst

def rowsStart (rows : List (List (Addr × α))) : Option Addr := rows.head?.bind rowStart

def lastRowStart (rows : List (List (Addr × α))) : Option Addr := rows.getLast?.bind rowStart

def consRow {β : Type} : List β → List (List β) → List (List β)
  | [], rows => rows
  | element :: row, rows => (element :: row) :: rows

def Holds (list : RowList α) (content : α) : Prop :=
  ∃ address cell, list.heap address = some cell ∧ cell.content = content

section HasRows

variable {list : RowList α} {front back : List (List (Addr × α))} {row left right : List (Addr × α)}
  {address before : Addr} {content new : α} {fuel : Nat}

theorem linkRow_spec {stop : Option Addr} (linked : Rows list.heap list.first front stop)
    (nodup : (addresses front).Nodup) (enough : ∀ row ∈ front, row.length ≤ fuel)
    (target : Option Addr) :
    ∃ list', linkRow fuel (lastRowStart front) target list = some list' ∧
      Rows list'.heap list'.first front target ∧
      ∀ address, address ∉ addresses front → list'.heap address = list.heap address := by
  rcases List.eq_nil_or_concat front with rfl | ⟨front, row, rfl⟩
  · exact ⟨_, rfl, rfl, fun _ _ => rfl⟩
  · rw [List.concat_eq_append] at *
    rcases rows_append.mp linked with ⟨middle, frontLinked, some_row, nextRow, rowLinked, rfl⟩
    rw [addresses_append, addresses_cons] at nodup
    have start_eq : lastRowStart (front ++ [row]) = middle := by
      rw [lastRowStart, List.getLast?_concat, rowLinked.start_eq]
      simp [rowStart]
    rcases List.exists_cons_of_ne_nil some_row with ⟨pair, rest, rfl⟩
    have middle_eq : middle = some pair.1 := rowLinked.start_eq
    have split := List.nodup_append.mp nodup
    have nodupRow : ((pair :: rest).map Prod.fst).Nodup := by simpa [addresses] using split.2.1
    rcases relinkRow_spec target rowLinked nodupRow (enough _ (by simp)) with
      ⟨heap', relinked, rowLinked', same⟩
    refine ⟨{ list with heap := heap' }, ?_, ?_, ?_⟩
    · rw [middle_eq] at relinked
      rw [start_eq, middle_eq, linkRow, relinked]
      rfl
    · refine rows_append.mpr ⟨middle, ?_, some_row, target, rowLinked', rfl⟩
      apply frontLinked.frame
      intro other mem
      apply same
      intro rowMem
      exact split.2.2 other mem other (by simpa [addresses] using rowMem) rfl
    · intro other notMem
      apply same
      intro rowMem
      apply notMem
      simp only [addresses_append, addresses_cons, List.mem_append]
      exact .inr (.inl rowMem)

theorem HasRows.content_of_mem {rows : List (List (Addr × α))} (hasRows : HasRows list rows)
    {pair : Addr × α} (mem : pair ∈ rows.flatten) :
    ∃ nextRow next, list.heap pair.1 = some ⟨pair.2, nextRow, next⟩ :=
  hasRows.linked.cell_of_mem mem

theorem HasRows.mem_of_cell {rows : List (List (Addr × α))} (hasRows : HasRows list rows)
    {cell : RowCell α} (cell_eq : list.heap address = some cell) :
    (address, cell.content) ∈ rows.flatten := by
  have mem := hasRows.owned address (by simp [cell_eq])
  rcases List.mem_map.mp mem with ⟨pair, pairMem, rfl⟩
  rcases hasRows.content_of_mem pairMem with ⟨nextRow, next, there⟩
  rw [there] at cell_eq
  cases cell_eq
  exact pairMem

theorem HasRows.holds_iff {rows : List (List (Addr × α))} (hasRows : HasRows list rows) :
    list.Holds content ↔ ∃ address, (address, content) ∈ rows.flatten := by
  constructor
  · rintro ⟨address, cell, cell_eq, rfl⟩
    exact ⟨address, hasRows.mem_of_cell cell_eq⟩
  · rintro ⟨address, mem⟩
    rcases hasRows.content_of_mem mem with ⟨nextRow, next, cell_eq⟩
    exact ⟨address, _, cell_eq, rfl⟩

theorem HasRows.row_linked (hasRows : HasRows list (front ++ row :: back)) :
    ∃ nextRow, Row list.heap nextRow (rowStart row) row none := by
  rcases rows_append.mp hasRows.linked with ⟨_, -, -, nextRow, rowLinked, -⟩
  refine ⟨nextRow, ?_⟩
  have start_eq := rowLinked.start_eq
  rw [Option.or_none] at start_eq
  rwa [start_eq] at rowLinked

theorem HasRows.cell_of_rowsStart (hasRows : HasRows list (front ++ back))
    (starts : rowsStart back = some address) : ∃ cell, list.heap address = some cell := by
  rcases rows_append.mp hasRows.linked with ⟨_, -, backLinked⟩
  cases back with
  | nil => cases starts
  | cons row back =>
      rcases backLinked with ⟨some_row, nextRow, rowLinked, -⟩
      cases row with
      | nil => exact absurd rfl some_row
      | cons pair row =>
          cases starts
          rcases rowLinked with ⟨-, next, cell_eq, -⟩
          exact ⟨_, cell_eq⟩

theorem consRow_middle {β : Type} (left right : List β) (element : β) (rows : List (List β)) :
    consRow (left ++ element :: right) rows = (left ++ element :: right) :: rows := by
  cases left <;> rfl

theorem consRow_map {β γ : Type} (f : β → γ) (row : List β) (rows : List (List β)) :
    (consRow row rows).map (List.map f) = consRow (row.map f) (rows.map (List.map f)) := by
  cases row <;> rfl

theorem HasRows.fresh {rows : List (List (Addr × α))} (hasRows : HasRows list rows)
    (free : list.heap address = none) : address ∉ addresses rows := by
  intro mem
  rcases List.mem_map.mp mem with ⟨pair, pairMem, rfl⟩
  rcases hasRows.content_of_mem pairMem with ⟨nextRow, next, there⟩
  rw [there] at free
  cases free

theorem addresses_middle (front back : List (List (Addr × α))) (left right : List (Addr × α))
    (pair : Addr × α) :
    (addresses (front ++ (left ++ pair :: right) :: back)).Perm
      (pair.1 :: addresses (front ++ (left ++ right) :: back)) := by
  simp only [addresses_append, addresses_cons, List.map_append, List.map_cons, List.append_assoc,
    List.cons_append]
  rw [← List.append_assoc, ← List.append_assoc]
  exact List.perm_middle

theorem addresses_first (front back : List (List (Addr × α))) (row : List (Addr × α))
    (pair : Addr × α) :
    (addresses (front ++ (pair :: row) :: back)).Perm
      (pair.1 :: addresses (front ++ row :: back)) :=
  addresses_middle front back [] row pair

theorem addresses_consRow : addresses (front ++ consRow row back) =
    addresses (front ++ row :: back) := by
  cases row with
  | nil => simp [consRow]
  | cons pair row => rfl

theorem HasRows.around
    (hasRows : HasRows list (front ++ (left ++ (address, content) :: right) :: back)) :
    ∃ start nextRow next, Rows list.heap list.first front start ∧
      Row list.heap nextRow start left (some address) ∧
      list.heap address = some ⟨content, nextRow, next⟩ ∧ Row list.heap nextRow next right none ∧
      Rows list.heap nextRow back none ∧
      address ∉ addresses (front ++ (left ++ right) :: back) := by
  rcases rows_append.mp hasRows.linked with ⟨start, frontLinked, -, nextRow, rowLinked, backLinked⟩
  rcases row_append.mp rowLinked with ⟨_, leftLinked, rfl, next, cell_eq, rightLinked⟩
  have nodup := (addresses_middle front back left right
    (address, content)).nodup_iff.mp hasRows.nodup
  exact ⟨start, nextRow, next, frontLinked, leftLinked, cell_eq, rightLinked, backLinked,
    (List.nodup_cons.mp nodup).1⟩

theorem HasRows.aroundFirst
    (hasRows : HasRows list (front ++ ((address, content) :: row) :: back)) :
    ∃ start nextRow next, Rows list.heap list.first front start ∧
      list.heap address = some ⟨content, nextRow, next⟩ ∧ Row list.heap nextRow next row none ∧
      Rows list.heap nextRow back none ∧ address ∉ addresses (front ++ row :: back) := by
  have hasRows' : HasRows list (front ++ ([] ++ (address, content) :: row) :: back) := hasRows
  rcases hasRows'.around with
    ⟨start, nextRow, next, frontLinked, -, cell_eq, rowLinked, backLinked, fresh⟩
  exact ⟨start, nextRow, next, frontLinked, cell_eq, rowLinked, backLinked, fresh⟩

theorem not_mem_addresses_iff :
    address ∉ addresses (front ++ (left ++ right) :: back) ↔ address ∉ addresses front ∧
      address ∉ left.map Prod.fst ∧ address ∉ right.map Prod.fst ∧ address ∉ addresses back := by
  simp only [addresses_append, addresses_cons, List.map_append, List.mem_append, not_or]
  constructor
  · rintro ⟨front, ⟨left, right⟩, back⟩
    exact ⟨front, left, right, back⟩
  · rintro ⟨front, left, right, back⟩
    exact ⟨front, ⟨left, right⟩, back⟩

theorem HasRows.setContent {cell : RowCell α} {content' : α}
    (hasRows : HasRows list (front ++ (left ++ (address, content) :: right) :: back))
    (cell_eq : list.heap address = some cell) :
    HasRows { list with heap := list.heap.put address { cell with content := content' } }
      (front ++ (left ++ (address, content') :: right) :: back) := by
  rcases hasRows.around with ⟨start, nextRow, next, frontLinked, leftLinked, cell_eq', rightLinked,
    backLinked, fresh⟩
  rw [cell_eq'] at cell_eq
  cases cell_eq
  rcases not_mem_addresses_iff.mp fresh with ⟨frontFresh, leftFresh, rightFresh, backFresh⟩
  have same {cells : List Addr} (notMem : address ∉ cells) :
      ∀ other ∈ cells, list.heap.put address ⟨content', nextRow, next⟩ other = list.heap other :=
    fun other mem => put_of_ne (ne_of_mem_of_not_mem mem notMem)
  have addresses_eq : addresses (front ++ (left ++ (address, content') :: right) :: back) =
      addresses (front ++ (left ++ (address, content) :: right) :: back) := by
    simp [addresses]
  refine ⟨rows_append.mpr ⟨start, frontLinked.frame (same frontFresh), by simp, nextRow,
    row_append.mpr ⟨_, leftLinked.frame (same leftFresh), rfl, next, put_self,
      rightLinked.frame (same rightFresh)⟩, backLinked.frame (same backFresh)⟩, ?_, ?_⟩
  · rw [addresses_eq]
    exact hasRows.nodup
  · intro other allocated
    rw [addresses_eq]
    by_cases here : other = address
    · rw [here]
      exact hasRows.owned address (by simp [cell_eq'])
    · exact hasRows.owned other fun free => allocated ((put_of_ne here).trans free)

theorem HasRows.insertBehind
    (hasRows : HasRows list (front ++ (left ++ (before, content) :: right) :: back)) (new : α)
    (free : list.heap address = none) :
    ∃ list', insertBehind before address new list = some list' ∧
      HasRows list' (front ++ (left ++ (before, content) :: (address, new) :: right) :: back) := by
  have notMem := hasRows.fresh free
  rcases hasRows.around with ⟨start, nextRow, next, frontLinked, leftLinked, cell_eq, rightLinked,
    backLinked, fresh⟩
  rcases not_mem_addresses_iff.mp fresh with ⟨frontFresh, leftFresh, rightFresh, backFresh⟩
  have notMem' := (addresses_middle front back left right (before, content)).mem_iff.not.mp notMem
  rw [List.mem_cons, not_or] at notMem'
  rcases not_mem_addresses_iff.mp notMem'.2 with ⟨frontNew, leftNew, rightNew, backNew⟩
  let heap := (list.heap.put address ⟨new, nextRow, next⟩).put before
    ⟨content, nextRow, some address⟩
  have same {cells : List Addr} (fresh : before ∉ cells) (new : address ∉ cells) :
      ∀ other ∈ cells, heap other = list.heap other :=
    fun other mem => (put_of_ne (ne_of_mem_of_not_mem mem fresh)).trans
      (put_of_ne (ne_of_mem_of_not_mem mem new))
  have new_eq : heap address = some ⟨new, nextRow, next⟩ := (put_of_ne notMem'.1).trans put_self
  have perm : (addresses
    (front ++ (left ++ (before, content) :: (address, new) :: right) :: back)).Perm
      (address :: addresses (front ++ (left ++ (before, content) :: right) :: back)) := by
    have moved := addresses_middle front back (left ++ [(before, content)]) right (address, new)
    simpa using moved
  refine ⟨{ list with heap }, ?_,
    rows_append.mpr ⟨start, frontLinked.frame (same frontFresh frontNew),
    by simp, nextRow, row_append.mpr ⟨_, leftLinked.frame (same leftFresh leftNew),
      rfl, _, put_self,
      rfl, next, new_eq, rightLinked.frame (same rightFresh rightNew)⟩,
    backLinked.frame (same backFresh backNew)⟩, ?_, ?_⟩
  · simp only [RowList.insertBehind, cell_eq]
    rfl
  · rw [perm.nodup_iff]
    exact List.nodup_cons.mpr ⟨notMem, hasRows.nodup⟩
  · intro other allocated
    rw [perm.mem_iff, List.mem_cons]
    by_cases here : other = address
    · exact .inl here
    · right
      by_cases there : other = before
      · rw [there]
        exact hasRows.owned before (by simp [cell_eq])
      · apply hasRows.owned other
        intro free
        exact allocated ((put_of_ne there).trans ((put_of_ne here).trans free))

theorem rowStart_eq {nextRow start : Option Addr} (linked : Row list.heap nextRow start row none) :
    start = rowStart row := by
  simpa [rowStart] using linked.start_eq

theorem rowsStart_eq {start : Option Addr} (linked : Rows list.heap start back none) :
    start = rowsStart back := by
  have start_eq := linked.start_eq
  rw [Option.or_none] at start_eq
  exact start_eq

theorem rows_consRow_iff {start : Option Addr} :
    Rows list.heap start (consRow row back) none ↔
      start = (rowStart row).or (rowsStart back) ∧ Row list.heap (rowsStart back)
        (rowStart row) row none ∧
        Rows list.heap (rowsStart back) back none := by
  cases row with
  | nil =>
      constructor
      · intro linked
        have start_eq := rowsStart_eq linked
        exact ⟨start_eq, rfl, start_eq ▸ linked⟩
      · rintro ⟨start_eq, -, linked⟩
        exact start_eq ▸ linked
  | cons pair row =>
      constructor
      · rintro ⟨-, nextRow, rowLinked, backLinked⟩
        have next_eq := rowsStart_eq backLinked
        have start_eq := rowStart_eq rowLinked
        subst next_eq start_eq
        exact ⟨rfl, rowLinked, backLinked⟩
      · rintro ⟨start_eq, rowLinked, backLinked⟩
        exact ⟨by simp, rowsStart back, start_eq ▸ rowLinked, backLinked⟩

theorem HasRows.insertFirst (hasRows : HasRows list (front ++ consRow row back)) (new : α)
    (free : list.heap address = none) (enough : ∀ row ∈ front, row.length ≤ fuel) :
    ∃ list', insertFirst fuel (lastRowStart front) address ⟨new, rowsStart back,
      rowStart row⟩ list =
        some list' ∧
      HasRows list' (front ++ ((address, new) :: row) :: back) := by
  have notMem := hasRows.fresh free
  rcases rows_append.mp hasRows.linked with ⟨middle, frontLinked, consLinked⟩
  rcases rows_consRow_iff.mp consLinked with ⟨-, rowLinked, backLinked⟩
  have nodup := hasRows.nodup
  rw [addresses_consRow] at notMem nodup
  have notMem' : address ∉ addresses (front ++ ([] ++ row) :: back) := notMem
  rcases not_mem_addresses_iff.mp notMem' with ⟨frontFresh, -, rowFresh, backFresh⟩
  let cell : RowCell α := ⟨new, rowsStart back, rowStart row⟩
  let allocated : RowList α := { list with heap := list.heap.put address cell }
  have frontLinked' : Rows allocated.heap allocated.first front middle := by
    apply frontLinked.frame
    intro other mem
    exact put_of_ne (ne_of_mem_of_not_mem mem frontFresh)
  rw [addresses_append] at nodup
  have split := List.nodup_append.mp nodup
  have linked := linkRow_spec frontLinked' split.1 enough (some address)
  rcases linked with ⟨list', linked_eq, frontLinked'', same⟩
  have behind {cells : List Addr} (fresh : address ∉ cells)
      (inside : ∀ other ∈ cells, other ∈ addresses (row :: back)) :
      ∀ other ∈ cells, list'.heap other = list.heap other := by
    intro other mem
    have notFront : other ∉ addresses front := fun frontMem =>
      split.2.2 other frontMem other (inside other mem) rfl
    exact (same other notFront).trans (put_of_ne (ne_of_mem_of_not_mem mem fresh))
  have cell_eq : list'.heap address = some cell := (same address frontFresh).trans put_self
  refine ⟨list', linked_eq, rows_append.mpr ⟨some address, frontLinked'', by simp, rowsStart back,
    ⟨rfl, rowStart row, cell_eq, rowLinked.frame (behind rowFresh ?_)⟩,
    backLinked.frame (behind backFresh ?_)⟩, ?_, ?_⟩
  · intro other mem
    rw [addresses_cons]
    exact List.mem_append_left _ mem
  · intro other mem
    rw [addresses_cons]
    exact List.mem_append_right _ mem
  · rw [(addresses_first front back row (address, new)).nodup_iff, addresses_append]
    exact List.nodup_cons.mpr ⟨by rwa [← addresses_append], nodup⟩
  · intro other allocated
    rw [(addresses_first front back row (address, new)).mem_iff]
    by_cases here : other = address
    · exact here ▸ List.mem_cons_self
    · apply List.mem_cons_of_mem
      by_contra absent
      have notFront : other ∉ addresses front := by
        rw [addresses_append, List.mem_append, not_or] at absent
        exact absent.1
      apply allocated
      rw [same other notFront]
      refine (put_of_ne here).trans ?_
      by_contra there
      have mem := hasRows.owned other there
      rw [addresses_consRow] at mem
      exact absent mem

theorem HasRows.removeBehind
    (hasRows : HasRows list
      (front ++ (left ++ (before, content) :: (address, new) :: right) :: back)) :
    ∃ list', removeBehind before address list = some list' ∧
      HasRows list' (front ++ (left ++ (before, content) :: right) :: back) := by
  rcases hasRows.around with ⟨start, nextRow, _, frontLinked, leftLinked, cell_eq, ⟨rfl, next,
    removed_eq, rightLinked⟩, backLinked, fresh⟩
  rcases not_mem_addresses_iff.mp fresh with ⟨frontFresh, leftFresh, rightFresh, backFresh⟩
  rw [List.map_cons, List.mem_cons, not_or] at rightFresh
  have perm : (addresses
    (front ++ (left ++ (before, content) :: (address, new) :: right) :: back)).Perm
      (address :: addresses (front ++ (left ++ (before, content) :: right) :: back)) := by
    have moved := addresses_middle front back (left ++ [(before, content)]) right (address, new)
    simpa using moved
  have nodup := List.nodup_cons.mp (perm.nodup_iff.mp hasRows.nodup)
  have removed := (addresses_middle front back left right (before, content)).mem_iff.not.mp nodup.1
  rw [List.mem_cons, not_or] at removed
  rcases not_mem_addresses_iff.mp removed.2 with ⟨frontFresh', leftFresh', rightFresh', backFresh'⟩
  let heap := (list.heap.put before ⟨content, nextRow, next⟩).free address
  have same {cells : List Addr} (fresh : before ∉ cells) (fresh' : address ∉ cells) :
      ∀ other ∈ cells, heap other = list.heap other :=
    fun other mem => (free_of_ne (ne_of_mem_of_not_mem mem fresh')).trans
      (put_of_ne (ne_of_mem_of_not_mem mem fresh))
  have before_eq : heap before = some ⟨content, nextRow, next⟩ :=
    (free_of_ne rightFresh.1).trans put_self
  refine ⟨{ list with heap }, ?_, rows_append.mpr ⟨start,
    frontLinked.frame (same frontFresh frontFresh'), by simp, nextRow,
    row_append.mpr ⟨_, leftLinked.frame (same leftFresh leftFresh'), rfl, next, before_eq,
      rightLinked.frame (same rightFresh.2 rightFresh')⟩,
    backLinked.frame (same backFresh backFresh')⟩, nodup.2, ?_⟩
  · simp only [RowList.removeBehind, cell_eq, removed_eq]
    rfl
  · intro other allocated
    have away : other ≠ address := by
      rintro rfl
      exact allocated (Function.update_self _ _ _)
    have mem : other ∈ addresses
      (front ++ (left ++ (before, content) :: (address, new) :: right) :: back) := by
      by_cases there : other = before
      · rw [there]
        exact hasRows.owned before (by simp [cell_eq])
      · apply hasRows.owned other
        intro free
        exact allocated ((free_of_ne away).trans ((put_of_ne there).trans free))
    rw [perm.mem_iff, List.mem_cons] at mem
    exact mem.resolve_left away

theorem HasRows.removeFirst (hasRows : HasRows list (front ++ ((address, content) :: row) :: back))
    (enough : ∀ row ∈ front, row.length ≤ fuel) :
    ∃ list', removeFirst fuel (lastRowStart front) address list = some list' ∧
      HasRows list' (front ++ consRow row back) := by
  rcases hasRows.aroundFirst with
    ⟨start, nextRow, next, frontLinked, cell_eq, rowLinked, backLinked,
    fresh⟩
  have nextRow_eq := rowsStart_eq backLinked
  have next_eq := rowStart_eq rowLinked
  have nodup := List.nodup_cons.mp
    ((addresses_first front back row (address, content)).nodup_iff.mp hasRows.nodup)
  have nodup' := nodup.2
  rw [addresses_append] at nodup'
  have split := List.nodup_append.mp nodup'
  rcases linkRow_spec frontLinked split.1 enough ((rowStart row).or (rowsStart back)) with
    ⟨list', linked_eq, frontLinked', same⟩
  have target_eq : (if next.isSome then next else nextRow) =
    (rowStart row).or (rowsStart back) := by
    rw [next_eq, nextRow_eq]
    cases rowStart row <;> rfl
  have freed {other : Addr} (mem : other ∈ addresses (front ++ row :: back)) : other ≠ address :=
    ne_of_mem_of_not_mem mem fresh
  have behind : ∀ other ∈ addresses (row :: back), list'.heap.free address other =
    list.heap other := by
    intro other mem
    have notFront : other ∉ addresses front := fun frontMem =>
      split.2.2 other frontMem other mem rfl
    rw [free_of_ne (freed (by rw [addresses_append]; exact List.mem_append_right _ mem))]
    exact same other notFront
  refine ⟨{ list' with heap := list'.heap.free address }, ?_, rows_append.mpr ⟨_, ?_,
    rows_consRow_iff.mpr ⟨rfl, ?_, ?_⟩⟩, ?_, ?_⟩
  · simp only [RowList.removeFirst, cell_eq, Option.bind_eq_bind, Option.bind_some, target_eq,
      linked_eq]
  · apply frontLinked'.frame
    intro other mem
    apply free_of_ne
    exact freed (by rw [addresses_append]; exact List.mem_append_left _ mem)
  · rw [← nextRow_eq, ← next_eq]
    apply rowLinked.frame
    intro other mem
    exact behind other (by rw [addresses_cons]; exact List.mem_append_left _ mem)
  · rw [← nextRow_eq]
    apply backLinked.frame
    intro other mem
    exact behind other (by rw [addresses_cons]; exact List.mem_append_right _ mem)
  · rw [addresses_consRow]
    exact nodup.2
  · intro other allocated
    rw [addresses_consRow]
    have away : other ≠ address := by
      rintro rfl
      exact allocated (Function.update_self _ _ _)
    by_contra absent
    have notFront : other ∉ addresses front := by
      rw [addresses_append, List.mem_append, not_or] at absent
      exact absent.1
    apply allocated
    refine (free_of_ne away).trans ((same other notFront).trans ?_)
    by_contra there
    have mem := hasRows.owned other there
    rw [(addresses_first front back row (address, content)).mem_iff, List.mem_cons] at mem
    exact mem.elim away absent

end HasRows

end RowList

end NetSnmp
