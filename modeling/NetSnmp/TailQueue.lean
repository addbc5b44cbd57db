import NetSnmp.LinkedList

/-!
# Queues with a pointer to the last cell

A singly linked list whose cells are appended behind the last one and removed
anywhere, given the cell in front.
-/

namespace NetSnmp

/-- The links of all cells, and the first and the last cell of the queue. -/
structure TailQueue where
  next : Addr → Option Addr
  first : Option Addr
  last : Option Addr

namespace TailQueue

/-- The cells from `start` on, up to where the last link leads to `stop`. -/
def Chain (next : Addr → Option Addr) : (start : Option Addr) → List Addr →
    (stop : Option Addr) → Prop
  | start, [], stop => start = stop
  | start, cell :: cells, stop => start = some cell ∧ Chain next (next cell) cells stop

section Chain

variable {next next' : Addr → Option Addr} {start stop : Option Addr} {cells front back : List Addr}
  {cell : Addr}

theorem chain_append :
    Chain next start (front ++ back) stop ↔
      ∃ middle, Chain next start front middle ∧ Chain next middle back stop := by
  induction front generalizing start with
  | nil =>
      constructor
      · intro chain
        exact ⟨start, rfl, chain⟩
      · rintro ⟨middle, rfl, chain⟩
        exact chain
  | cons cell front ih =>
      simp only [List.cons_append, Chain, ih]
      constructor
      · rintro ⟨start_eq, middle, frontChain, backChain⟩
        exact ⟨middle, ⟨start_eq, frontChain⟩, backChain⟩
      · rintro ⟨middle, ⟨start_eq, frontChain⟩, backChain⟩
        exact ⟨start_eq, middle, frontChain, backChain⟩

theorem Chain.frame (chain : Chain next start cells stop)
    (same : ∀ cell ∈ cells, next' cell = next cell) : Chain next' start cells stop := by
  induction cells generalizing start with
  | nil => exact chain
  | cons cell cells ih =>
      rcases chain with ⟨start_eq, rest⟩
      refine ⟨start_eq, ?_⟩
      rw [same cell List.mem_cons_self]
      exact ih rest fun other mem => same other (List.mem_cons_of_mem _ mem)

theorem Chain.update_of_not_mem (chain : Chain next start cells stop) (fresh : cell ∉ cells)
    (target : Option Addr) : Chain (Function.update next cell target) start cells stop := by
  apply chain.frame
  intro other mem
  exact Function.update_of_ne (ne_of_mem_of_not_mem mem fresh) _ _

theorem Chain.start_eq (chain : Chain next start cells stop) : start = cells.head?.or stop := by
  cases cells with
  | nil => exact chain
  | cons cell cells => exact chain.1

theorem Chain.relinkLast (chain : Chain next start (front ++ [cell]) stop) (fresh : cell ∉ front)
    (stop' : Option Addr) : Chain (Function.update next cell stop') start
      (front ++ [cell]) stop' := by
  rcases chain_append.mp chain with ⟨middle, frontChain, middle_eq, -⟩
  refine chain_append.mpr ⟨middle, frontChain.update_of_not_mem fresh stop', middle_eq, ?_⟩
  exact Function.update_self _ _ _

end Chain

/-- `cell` is put behind the last cell, or becomes the only one. -/
def append (queue : TailQueue) (cell : Addr) : TailQueue :=
  match queue.last with
  | some last =>
      { queue with
        next := Function.update (Function.update queue.next cell (queue.next last)) last (some cell)
        last := some cell }
  | none =>
      { next := Function.update queue.next cell queue.first
        first := some cell
        last := some cell }

/-- `cell` is taken out behind `before`. -/
def remove (queue : TailQueue) (before : Option Addr) (cell : Addr) : TailQueue :=
  let last := if queue.last = some cell then before else queue.last
  match before with
  | some before =>
      { queue with next := Function.update queue.next before (queue.next cell), last := last }
  | none => { queue with first := queue.next cell, last := last }

structure IsQueue (queue : TailQueue) (cells : List Addr) : Prop where
  chain : Chain queue.next queue.first cells none
  last_eq : queue.last = cells.getLast?
  nodup : cells.Nodup

section IsQueue

variable {queue : TailQueue} {cells front back : List Addr} {cell : Addr}

theorem IsQueue.first_eq (isQueue : IsQueue queue cells) : queue.first = cells.head? := by
  simpa using isQueue.chain.start_eq

theorem IsQueue.next_eq (isQueue : IsQueue queue (front ++ cell :: back)) :
    queue.next cell = back.head? := by
  rcases chain_append.mp isQueue.chain with ⟨middle, -, -, rest⟩
  simpa using rest.start_eq

theorem IsQueue.append (isQueue : IsQueue queue cells) (fresh : cell ∉ cells) :
    IsQueue (queue.append cell) (cells ++ [cell]) := by
  have last_eq := isQueue.last_eq
  have nodup : (cells ++ [cell]).Nodup := by
    refine List.nodup_append.mpr ⟨isQueue.nodup, List.nodup_singleton _, ?_⟩
    intro other mem cell' mem' same
    rw [List.mem_singleton.mp mem'] at same
    exact fresh (same ▸ mem)
  rcases List.eq_nil_or_concat cells with rfl | ⟨front, last, rfl⟩
  · have first_eq : queue.first = none := isQueue.first_eq
    rw [List.getLast?_nil] at last_eq
    refine ⟨?_, ?_, nodup⟩
    · simp [TailQueue.append, last_eq, Chain, first_eq]
    · simp [TailQueue.append, last_eq]
  · rw [List.concat_eq_append] at *
    rw [List.getLast?_concat] at last_eq
    have lastFresh : last ∉ front := by
      intro mem
      exact (List.nodup_append.mp isQueue.nodup).2.2 last mem last List.mem_cons_self rfl
    have ne : cell ≠ last := fun same => fresh (by simp [same])
    have next_eq : queue.next last = none := by
      have chain := isQueue.chain
      rcases chain_append.mp chain with ⟨middle, -, -, stop_eq⟩
      exact stop_eq
    have chain := (isQueue.chain.update_of_not_mem fresh (queue.next last)).relinkLast lastFresh
      (some cell)
    refine ⟨?_, ?_, nodup⟩
    · simp only [TailQueue.append, last_eq]
      refine chain_append.mpr ⟨some cell, chain, rfl, ?_⟩
      simp [Chain, ne, next_eq]
    · simp [TailQueue.append, last_eq]

theorem remove_next {before : Option Addr} (ne : before ≠ some cell) :
    (queue.remove before cell).next cell = queue.next cell := by
  cases before with
  | none => rfl
  | some before =>
      have ne' : cell ≠ before := fun same => ne (by rw [same])
      exact Function.update_of_ne ne' _ _

theorem IsQueue.remove (isQueue : IsQueue queue (front ++ cell :: back)) :
    IsQueue (queue.remove front.getLast? cell) (front ++ back) := by
  have next_eq := isQueue.next_eq
  have last_eq := isQueue.last_eq
  have nodup := List.nodup_cons.mp (List.nodup_middle.mp isQueue.nodup)
  rcases chain_append.mp isQueue.chain with ⟨middle, frontChain, -, backChain⟩
  rw [next_eq] at backChain
  have last_eq' : (if queue.last = some cell then front.getLast? else queue.last) =
      (front ++ back).getLast? := by
    rw [last_eq]
    rcases List.eq_nil_or_concat back with rfl | ⟨back, last, rfl⟩
    · simp
    · have ne : last ≠ cell := fun same => nodup.1 (by simp [same])
      have whole : (front ++ cell :: back.concat last).getLast? = some last := by
        rw [List.concat_eq_append, ← List.cons_append, ← List.append_assoc, List.getLast?_concat]
      have short : (front ++ back.concat last).getLast? = some last := by
        rw [List.concat_eq_append, ← List.append_assoc, List.getLast?_concat]
      rw [whole, short, if_neg (by simpa using ne)]
  refine ⟨?_, ?_, nodup.2⟩
  · rcases List.eq_nil_or_concat front with rfl | ⟨front, before, rfl⟩
    · simp only [TailQueue.remove, List.getLast?_nil, next_eq]
      exact backChain
    · rw [List.concat_eq_append] at *
      simp only [TailQueue.remove, List.getLast?_concat, next_eq]
      have split := List.nodup_append.mp nodup.2
      have beforeFresh : before ∉ front := by
        intro mem
        exact (List.nodup_append.mp split.1).2.2 before mem before List.mem_cons_self rfl
      have beforeNotBack : before ∉ back := by
        intro mem
        exact split.2.2 before (by simp) before mem rfl
      exact chain_append.mpr ⟨back.head?, frontChain.relinkLast beforeFresh back.head?,
        backChain.update_of_not_mem beforeNotBack back.head?⟩
  · rw [← last_eq']
    cases front.getLast? <;> rfl

end IsQueue

end TailQueue

end NetSnmp
