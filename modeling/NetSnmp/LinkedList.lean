import Mathlib.Data.List.Induction
import Mathlib.Data.List.Nodup
import NetSnmp.Reader.Basic

/-!
# Doubly linked lists

Cells are addresses, and the two links of each cell are functions of its
address.  A segment is a run of cells that are linked both ways; a list is a
segment from its head to the end, and insertion and removal change the links
of the neighbours only.
-/

namespace NetSnmp

abbrev Addr := Nat

/-- The links of all cells; there is no address where a link is `NULL`. -/
structure Links where
  next : Addr → Option Addr
  prev : Addr → Option Addr

namespace Links

/-- `cell->next = target` -/
def setNext (links : Links) (cell : Addr) (target : Option Addr) : Links :=
  { links with next := Function.update links.next cell target }

/-- `cell->prev = target` -/
def setPrev (links : Links) (cell : Addr) (target : Option Addr) : Links :=
  { links with prev := Function.update links.prev cell target }

/-- `if (cell) cell->next = target` -/
def setNextOf (links : Links) (cell : Option Addr) (target : Option Addr) : Links :=
  match cell with
  | none => links
  | some cell => links.setNext cell target

/-- `if (cell) cell->prev = target` -/
def setPrevOf (links : Links) (cell : Option Addr) (target : Option Addr) : Links :=
  match cell with
  | none => links
  | some cell => links.setPrev cell target

@[simp]
theorem setNext_next (links : Links) (cell : Addr) (target : Option Addr) :
    (links.setNext cell target).next = Function.update links.next cell target := rfl

@[simp]
theorem setNext_prev (links : Links) (cell : Addr) (target : Option Addr) :
    (links.setNext cell target).prev = links.prev := rfl

@[simp]
theorem setPrev_prev (links : Links) (cell : Addr) (target : Option Addr) :
    (links.setPrev cell target).prev = Function.update links.prev cell target := rfl

@[simp]
theorem setPrev_next (links : Links) (cell : Addr) (target : Option Addr) :
    (links.setPrev cell target).next = links.next := rfl

/-- The cells from `start` on, behind `before`, up to where the last link leads to `stop`. -/
def Segment (links : Links) : (before start : Option Addr) → List Addr → (stop : Option Addr) → Prop
  | _, start, [], stop => start = stop
  | before, start, cell :: cells, stop =>
      start = some cell ∧ links.prev cell = before ∧
        Segment links (some cell) (links.next cell) cells stop

section Segment

variable {links links' : Links} {before start stop : Option Addr} {cells : List Addr}

theorem segment_append {front back : List Addr} :
    Segment links before start (front ++ back) stop ↔
      ∃ middle, Segment links before start front middle ∧
        Segment links (front.getLast?.or before) middle back stop := by
  induction front generalizing before start with
  | nil =>
      constructor
      · intro segment
        exact ⟨start, rfl, segment⟩
      · rintro ⟨middle, rfl, segment⟩
        exact segment
  | cons cell front ih =>
      have last_eq : ((cell :: front).getLast?.or before) = (front.getLast?.or (some cell)) := by
        rw [List.getLast?_cons]
        cases front.getLast? <;> rfl
      rw [last_eq]
      simp only [List.cons_append, Segment, ih]
      constructor
      · rintro ⟨start_eq, prev_eq, middle, frontSegment, backSegment⟩
        exact ⟨middle, ⟨start_eq, prev_eq, frontSegment⟩, backSegment⟩
      · rintro ⟨middle, ⟨start_eq, prev_eq, frontSegment⟩, backSegment⟩
        exact ⟨start_eq, prev_eq, middle, frontSegment, backSegment⟩

theorem Segment.frame (segment : Segment links before start cells stop)
    (same : ∀ cell ∈ cells, links'.next cell = links.next cell ∧ links'.prev cell =
      links.prev cell) :
    Segment links' before start cells stop := by
  induction cells generalizing before start with
  | nil => exact segment
  | cons cell cells ih =>
      rcases segment with ⟨start_eq, prev_eq, rest⟩
      rcases same cell List.mem_cons_self with ⟨next_eq', prev_eq'⟩
      refine ⟨start_eq, prev_eq'.trans prev_eq, ?_⟩
      rw [next_eq']
      exact ih rest fun other mem => same other (List.mem_cons_of_mem _ mem)

theorem Segment.start_eq (segment : Segment links before start cells stop) :
    start = cells.head?.or stop := by
  cases cells with
  | nil => exact segment
  | cons cell cells => exact segment.1

theorem Segment.setNext_of_not_mem (segment : Segment links before start cells stop) {cell : Addr}
    (fresh : cell ∉ cells) (target : Option Addr) :
    Segment (links.setNext cell target) before start cells stop := by
  apply segment.frame
  intro other mem
  have ne : other ≠ cell := ne_of_mem_of_not_mem mem fresh
  simp [ne]

theorem Segment.setPrev_of_not_mem (segment : Segment links before start cells stop) {cell : Addr}
    (fresh : cell ∉ cells) (target : Option Addr) :
    Segment (links.setPrev cell target) before start cells stop := by
  apply segment.frame
  intro other mem
  have ne : other ≠ cell := ne_of_mem_of_not_mem mem fresh
  simp [ne]

theorem Segment.relinkLast (segment : Segment links before start cells stop)
    (nodup : cells.Nodup) (stop' : Option Addr) :
    Segment (links.setNextOf cells.getLast? stop') before
      (cells.head?.or stop') cells stop' := by
  induction cells using List.reverseRecOn with
  | nil => rfl
  | append_singleton cells cell _ =>
      have fresh : cell ∉ cells := by
        have disjoint := (List.nodup_append.mp nodup).2.2
        intro mem
        exact disjoint cell mem cell (by simp) rfl
      rw [List.getLast?_concat]
      rcases segment_append.mp segment with ⟨middle, front, last⟩
      have start_eq := segment.start_eq
      have middle_eq : middle = some cell := last.1
      have head_eq : ((cells ++ [cell]).head?.or stop') = start := by
        rw [start_eq]
        cases cells <;> rfl
      rw [head_eq]
      refine segment_append.mpr ⟨middle, front.setNext_of_not_mem fresh stop', middle_eq, ?_, ?_⟩
      · exact last.2.1
      · simp [setNextOf, Segment]

theorem Segment.relinkFirst (segment : Segment links before start cells stop)
    (nodup : cells.Nodup) (before' : Option Addr) :
    Segment (links.setPrevOf cells.head? before') before' start cells stop := by
  cases cells with
  | nil => exact segment
  | cons cell cells =>
      rcases segment with ⟨start_eq, -, rest⟩
      refine ⟨start_eq, by simp [setPrevOf], ?_⟩
      exact rest.setPrev_of_not_mem (List.nodup_cons.mp nodup).1 before'

theorem Segment.append {front back : List Addr} {middle : Option Addr}
    (frontSegment : Segment links before start front middle)
    (backSegment : Segment links (front.getLast?.or before) middle back stop) :
    Segment links before start (front ++ back) stop :=
  segment_append.mpr ⟨middle, frontSegment, backSegment⟩

end Segment

structure Linked (links : Links) (head : Option Addr) (cells : List Addr) : Prop where
  segment : Segment links none head cells none
  nodup : cells.Nodup

section Linked

variable {links : Links} {head : Option Addr} {front back : List Addr} {cell : Addr}

theorem Linked.head_eq {cells : List Addr} (linked : Linked links head cells) :
    head = cells.head? := by
  simpa using linked.segment.start_eq

theorem linked_nil : Linked links none [] := ⟨rfl, List.nodup_nil⟩

theorem Linked.unique {cells cells' : List Addr} (linked : Linked links head cells)
    (linked' : Linked links head cells') : cells = cells' := by
  have same (before start : Option Addr) (segment : Segment links before start cells none)
      (segment' : Segment links before start cells' none) : cells = cells' := by
    clear linked linked'
    induction cells generalizing before start cells' with
    | nil =>
        cases segment
        cases cells' with
        | nil => rfl
        | cons cell cells' => nomatch segment'.1
    | cons cell cells ih =>
        rcases segment with ⟨rfl, -, rest⟩
        cases cells' with
        | nil => nomatch segment'
        | cons cell' cells' =>
            rcases segment' with ⟨cell_eq, -, rest'⟩
            rcases Option.some.inj cell_eq with rfl
            rw [ih _ _ rest rest']
  exact same none head linked.segment linked'.segment

theorem Linked.links_eq (linked : Linked links head (front ++ cell :: back)) :
    links.prev cell = front.getLast? ∧ links.next cell = back.head? := by
  rcases segment_append.mp linked.segment with ⟨middle, -, -, prev_eq, rest⟩
  refine ⟨by simpa using prev_eq, ?_⟩
  simpa using rest.start_eq

/-- `cell->prev = pptr; cell->next = nptr` and the links of both neighbours. -/
def insertBetween (links : Links) (pptr : Option Addr) (cell : Addr) (nptr : Option Addr) : Links :=
  let links := (links.setPrev cell pptr).setNext cell nptr
  let links := links.setPrevOf nptr (some cell)
  links.setNextOf pptr (some cell)

theorem setNextOf_frame (links : Links) {target : Option Addr} {other : Addr} {cell : Option Addr}
    (ne : cell ≠ some other) : (links.setNextOf cell target).next other = links.next other ∧
      (links.setNextOf cell target).prev other = links.prev other := by
  cases cell with
  | none => exact ⟨rfl, rfl⟩
  | some cell =>
      have ne' : other ≠ cell := fun same => ne (by rw [same])
      simp [setNextOf, ne']

theorem setPrevOf_frame (links : Links) {target : Option Addr} {other : Addr} {cell : Option Addr}
    (ne : cell ≠ some other) : (links.setPrevOf cell target).next other = links.next other ∧
      (links.setPrevOf cell target).prev other = links.prev other := by
  cases cell with
  | none => exact ⟨rfl, rfl⟩
  | some cell =>
      have ne' : other ≠ cell := fun same => ne (by rw [same])
      simp [setPrevOf, ne']

theorem Linked.insertBetween (linked : Linked links head (front ++ back))
    (fresh : cell ∉ front ++ back) :
    Linked (links.insertBetween front.getLast? cell back.head?)
      (front.head?.or (some cell)) (front ++ cell :: back) := by
  rcases segment_append.mp linked.segment with ⟨middle, frontSegment, backSegment⟩
  rcases List.nodup_append.mp linked.nodup with ⟨frontNodup, backNodup, disjoint⟩
  have freshFront : cell ∉ front := fun mem => fresh (List.mem_append_left _ mem)
  have freshBack : cell ∉ back := fun mem => fresh (List.mem_append_right _ mem)
  have middle_eq : middle = back.head? := by simpa using backSegment.start_eq
  have lastNotBack : ∀ other ∈ back, front.getLast? ≠ some other := by
    intro other mem same
    exact disjoint other (List.mem_of_getLast? same) other mem rfl
  have headNotFront : ∀ other ∈ front, back.head? ≠ some other := by
    intro other mem same
    exact disjoint other mem other (List.mem_of_head? same) rfl
  have lastNotCell : front.getLast? ≠ some cell := fun same =>
    freshFront (List.mem_of_getLast? same)
  have headNotCell : back.head? ≠ some cell := fun same => freshBack (List.mem_of_head? same)
  refine ⟨?_, ?_⟩
  · apply segment_append.mpr
    refine ⟨some cell, ?_, rfl, ?_, ?_⟩
    · -- in front only the last link changes
      have plain := (frontSegment.setPrev_of_not_mem freshFront front.getLast?).setNext_of_not_mem
        freshFront back.head?
      have untouched : Segment (((links.setPrev cell front.getLast?).setNext cell
          back.head?).setPrevOf back.head? (some cell)) none head front middle :=
        plain.frame fun other mem => setPrevOf_frame _ (headNotFront other mem)
      exact untouched.relinkLast frontNodup (some cell)
    · simp only [Links.insertBetween]
      rw [(setNextOf_frame _ lastNotCell).2, (setPrevOf_frame _ headNotCell).2]
      simp
    · simp only [Links.insertBetween]
      rw [(setNextOf_frame _ lastNotCell).1, (setPrevOf_frame _ headNotCell).1]
      have plain := (backSegment.setPrev_of_not_mem freshBack front.getLast?).setNext_of_not_mem
        freshBack back.head?
      have first := plain.relinkFirst backNodup (some cell)
      rw [middle_eq] at first
      have last : Segment (links.insertBetween front.getLast? cell back.head?) (some cell)
          back.head? back none :=
        first.frame fun other mem => setNextOf_frame _ (lastNotBack other mem)
      simpa [Links.insertBetween] using last
  · refine List.nodup_append.mpr ⟨frontNodup, List.nodup_cons.mpr ⟨freshBack, backNodup⟩, ?_⟩
    intro first firstMem second secondMem same
    rcases List.mem_cons.mp secondMem with rfl | mem
    · exact freshFront (same ▸ firstMem)
    · exact disjoint first firstMem second mem same

/-- `if (pptr) pptr->next = nptr; if (nptr) nptr->prev = pptr` -/
def bypass (links : Links) (pptr nptr : Option Addr) : Links :=
  (links.setNextOf pptr nptr).setPrevOf nptr pptr

theorem bypass_next_of_head (links : Links) (nptr : Option Addr) (cell : Addr) :
    (links.bypass none nptr).next cell = links.next cell := by
  cases nptr <;> rfl

theorem Linked.bypass (linked : Linked links head (front ++ cell :: back)) :
    Linked (links.bypass front.getLast? back.head?) (front.head?.or back.head?)
      (front ++ back) := by
  rcases segment_append.mp linked.segment with ⟨middle, frontSegment, -, -, backSegment⟩
  rcases List.nodup_append.mp linked.nodup with ⟨frontNodup, restNodup, disjoint⟩
  rcases List.nodup_cons.mp restNodup with ⟨-, backNodup⟩
  have lastNotBack : ∀ other ∈ back, front.getLast? ≠ some other := by
    intro other mem same
    exact disjoint other (List.mem_of_getLast? same) other (List.mem_cons_of_mem _ mem) rfl
  have headNotFront : ∀ other ∈ front, back.head? ≠ some other := by
    intro other mem same
    exact disjoint other mem other (List.mem_cons_of_mem _ (List.mem_of_head? same)) rfl
  have next_eq : links.next cell = back.head? := linked.links_eq.2
  rw [next_eq] at backSegment
  refine ⟨?_, ?_⟩
  · apply segment_append.mpr
    refine ⟨back.head?, ?_, ?_⟩
    · have relinked := frontSegment.relinkLast frontNodup back.head?
      exact relinked.frame fun other mem => setPrevOf_frame _ (headNotFront other mem)
    · have untouched : Segment (links.setNextOf front.getLast? back.head?) (some cell) back.head?
          back none :=
        backSegment.frame fun other mem => setNextOf_frame _ (lastNotBack other mem)
      simpa [Links.bypass] using untouched.relinkFirst backNodup front.getLast?
  · refine List.nodup_append.mpr ⟨frontNodup, backNodup, ?_⟩
    intro first firstMem second secondMem
    exact disjoint first firstMem second (List.mem_cons_of_mem _ secondMem)

/-- `for (; cell->prev != NULL; cell = cell->prev);`, with a bound on the number of passes. -/
def rewind (links : Links) : (passes : Nat) → Addr → Option Addr
  | 0, _ => none
  | passes + 1, cell =>
      match links.prev cell with
      | none => some cell
      | some before => rewind links passes before

theorem Linked.rewind (linked : Linked links head (front ++ cell :: back)) {passes : Nat}
    (enough : front.length < passes) : links.rewind passes cell = head := by
  induction front using List.reverseRecOn generalizing cell back passes with
  | nil =>
      rcases passes with _ | passes
      · exact absurd enough (Nat.not_lt_zero _)
      · have prev_eq : links.prev cell = none := linked.links_eq.1
        simp [Links.rewind, prev_eq, linked.head_eq]
  | append_singleton front before ih =>
      rcases passes with _ | passes
      · exact absurd enough (Nat.not_lt_zero _)
      · have prev_eq : links.prev cell = some before := by
          simpa using linked.links_eq.1
        rw [Links.rewind, prev_eq]
        rw [List.append_assoc] at linked
        apply ih linked
        rw [List.length_append, List.length_singleton] at enough
        omega

end Linked

end Links

end NetSnmp
