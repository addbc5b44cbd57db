import NetSnmp.LinkedList

/-!
# Rings of cells

In a ring the last cell leads to the first one and back.  A ring may be entered at any
of its cells; a cell is put behind the last one, and the cell at which the ring is
entered can be taken out.
-/

namespace NetSnmp

namespace Links

/-- The cells of a ring from its head on; without a head there are none. -/
structure Ring (links : Links) (head : Option Addr) (cells : List Addr) : Prop where
  head_eq : head = cells.head?
  segment : Segment links cells.getLast? head cells head
  nodup : cells.Nodup

variable {links links' : Links} {head : Option Addr} {cell : Addr} {cells front back : List Addr}

theorem ring_nil (links : Links) : Ring links none [] := ⟨rfl, rfl, List.nodup_nil⟩

theorem Ring.rotate (ring : Ring links head (front ++ cell :: back)) :
    Ring links (some cell) (cell :: back ++ front) := by
  have head_eq := ring.head_eq
  rcases segment_append.mp ring.segment with ⟨middle, frontSegment, backSegment⟩
  obtain rfl : middle = some cell := backSegment.1
  have last_eq : (front ++ cell :: back).getLast? = (cell :: back).getLast? := by
    rw [List.getLast?_append_of_ne_nil _ (List.cons_ne_nil _ _)]
  rw [last_eq] at frontSegment backSegment
  refine ⟨rfl, ?_, ?_⟩
  · apply segment_append.mpr
    refine ⟨head, ?_, ?_⟩
    · cases front with
      | nil => simpa using backSegment
      | cons first front =>
          rw [List.getLast?_append_of_ne_nil _ (List.cons_ne_nil _ _)]
          rw [List.getLast?_eq_some_getLast (List.cons_ne_nil first front)] at backSegment ⊢
          exact backSegment
    · rw [List.getLast?_eq_some_getLast (List.cons_ne_nil cell back)] at frontSegment ⊢
      exact frontSegment
  · exact (List.perm_append_comm.nodup_iff).mp ring.nodup

theorem Ring.links_eq (ring : Ring links head (cell :: cells)) :
    links.next cell = (cells ++ [cell]).head? ∧ links.prev cell = (cell :: cells).getLast? := by
  rcases ring.segment with ⟨head_eq, prev_eq, rest⟩
  refine ⟨?_, prev_eq⟩
  rw [rest.start_eq, head_eq]
  cases cells <;> rfl

/-- A cell is put behind the last one: `cell->next = head; cell->prev = head->prev`, and the links
of both neighbours. -/
def linkBefore (links : Links) (head cell last : Addr) : Links :=
  let links := (links.setNext cell (some head)).setPrev cell (some last)
  (links.setNext last (some cell)).setPrev head (some cell)

/-- `entry->next->prev = entry->prev; entry->prev->next = entry->next` -/
def unlink (links : Links) (next prev : Addr) : Links :=
  (links.setPrev next (some prev)).setNext prev (some next)

theorem Ring.linkBefore {first last : Addr} (ring : Ring links (some first) cells)
    (last_eq : links.prev first = some last) (fresh : cell ∉ cells) :
    Ring (links.linkBefore first cell last) (some first) (cells ++ [cell]) := by
  cases cells with
  | nil => nomatch ring.head_eq
  | cons other cells =>
      obtain rfl : first = other := Option.some.inj ring.head_eq
      have last_eq : (first :: cells).getLast? = some last :=
        ring.links_eq.2.symm.trans last_eq
      have lastMem := List.mem_of_getLast? last_eq
      have lastNe : cell ≠ last := fun same => fresh (same ▸ lastMem)
      have firstNe : cell ≠ first := fun same => fresh (same ▸ List.mem_cons_self)
      have plain := (ring.segment.setNext_of_not_mem fresh (some first)).setPrev_of_not_mem fresh
        (some last)
      have relinked := plain.relinkLast ring.nodup (some cell)
      rw [last_eq] at relinked
      have whole := relinked.relinkFirst ring.nodup (some cell)
      refine ⟨rfl, ?_, ?_⟩
      · rw [List.getLast?_concat]
        apply whole.append
        refine ⟨rfl, ?_, ?_⟩
        · simp [setPrevOf, setNextOf, firstNe, last_eq]
        · simp [setPrevOf, setNextOf, lastNe, Segment]
      · exact List.nodup_append.mpr ⟨ring.nodup, List.nodup_singleton _,
          fun other mem _ mem' => ne_of_mem_of_not_mem mem
            (List.mem_singleton.mp mem' ▸ fresh)⟩

theorem ring_singleton (next_eq : links.next cell = some cell)
    (prev_eq : links.prev cell = some cell) : Ring links (some cell) [cell] :=
  ⟨rfl, ⟨rfl, prev_eq, next_eq⟩, List.nodup_singleton _⟩

theorem Ring.unlink {next prev : Addr} (ring : Ring links head (cell :: cells))
    (next_eq : links.next cell = some next) (prev_eq : links.prev cell = some prev)
    (other : next ≠ cell) : Ring (links.unlink next prev) (some next) cells := by
  have neighbours := ring.links_eq
  rcases ring.segment with ⟨head_eq, -, rest⟩
  have nodup := (List.nodup_cons.mp ring.nodup).2
  cases cells with
  | nil =>
      have same := next_eq.symm.trans neighbours.1
      exact absurd (Option.some.inj same) other
  | cons first cells =>
      have first_eq : some next = some first := next_eq.symm.trans neighbours.1
      have last_eq : (first :: cells).getLast? = some prev := by
        rw [← List.getLast?_cons_cons, ← neighbours.2]
        exact prev_eq
      obtain rfl := Option.some.inj first_eq
      have relinked := rest.relinkFirst nodup (some prev)
      have whole := relinked.relinkLast nodup (some next)
      rw [last_eq] at whole
      exact ⟨rfl, last_eq ▸ whole, nodup⟩

theorem Ring.unlinkBehind {head : Addr}
    (ring : Ring links (some head) (head :: (front ++ cell :: back))) :
    ∃ next prev, links.next cell = some next ∧ links.prev cell = some prev ∧ next ≠ cell ∧
      some next = (back ++ [head]).head? ∧
        Ring (links.unlink next prev) (some head) (head :: (front ++ back)) := by
  have rotated : Ring links (some cell) (cell :: (back ++ head :: front)) :=
    @Ring.rotate links (some head) cell (head :: front) back ring
  have neighbours := rotated.links_eq
  have cellNot := (List.nodup_cons.mp rotated.nodup).1
  have next_eq : ((back ++ head :: front) ++ [cell]).head? = (back ++ [head]).head? := by
    cases back <;> rfl
  cases next_case : links.next cell with
  | none =>
      rw [next_case, next_eq] at neighbours
      cases back <;> nomatch neighbours.1
  | some next =>
      rw [next_case] at neighbours
      have nextMem : next ∈ back ++ head :: front := by
        have mem := List.mem_of_head? (neighbours.1.trans next_eq).symm
        rcases List.mem_append.mp mem with mem | mem
        · exact List.mem_append_left _ mem
        · rw [List.mem_singleton.mp mem]
          exact List.mem_append_right _ List.mem_cons_self
      have other : next ≠ cell := ne_of_mem_of_not_mem nextMem cellNot
      rw [List.getLast?_eq_some_getLast (List.cons_ne_nil _ _)] at neighbours
      refine ⟨next, _, rfl, neighbours.2, other, neighbours.1.trans next_eq, ?_⟩
      have unlinked := rotated.unlink next_case neighbours.2 other
      exact @Ring.rotate _ _ head back front unlinked

theorem Ring.unique {cells' : List Addr} (ring : Ring links head cells)
    (ring' : Ring links head cells') : cells = cells' := by
  have follow {first : Addr} {cells cells' : List Addr} {before before' start : Option Addr}
      (segment : Segment links before start cells (some first))
      (segment' : Segment links before' start cells' (some first)) (fresh : first ∉ cells)
      (fresh' : first ∉ cells') : cells = cells' := by
    induction cells generalizing cells' before before' start with
    | nil =>
        cases cells' with
        | nil => rfl
        | cons cell' cells' =>
            have same := segment.symm.trans segment'.1
            exact absurd (Option.some.inj same ▸ List.mem_cons_self) fresh'
    | cons cell cells ih =>
        cases cells' with
        | nil =>
            have same := segment'.symm.trans segment.1
            exact absurd (Option.some.inj same ▸ List.mem_cons_self) fresh
        | cons cell' cells' =>
            obtain rfl : cell = cell' := Option.some.inj (segment.1.symm.trans segment'.1)
            rw [List.mem_cons, not_or] at fresh fresh'
            rw [ih segment.2.2 segment'.2.2 fresh.2 fresh'.2]
  cases cells with
  | nil =>
      have none_eq := ring'.head_eq.symm.trans ring.head_eq
      exact (List.head?_eq_none_iff.mp none_eq).symm
  | cons first cells =>
      cases cells' with
      | nil => nomatch ring.head_eq.symm.trans ring'.head_eq
      | cons first' cells' =>
          obtain rfl : first = first' :=
            Option.some.inj (ring.head_eq.symm.trans ring'.head_eq)
          obtain rfl := ring.head_eq
          rw [follow ring.segment.2.2 ring'.segment.2.2 (List.nodup_cons.mp ring.nodup).1
            (List.nodup_cons.mp ring'.nodup).1]

end Links

end NetSnmp
