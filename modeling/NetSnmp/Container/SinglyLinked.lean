import NetSnmp.Container.Bag
import NetSnmp.Fuel
import NetSnmp.TailQueue

/-!
# Singly linked containers

The containers of `container_list_ssll.c`: a sorted list, and an unsorted one that is a queue or a
stack. Nodes are addresses; a new one is at an address that is not in the list. A result `none` of a
loop stands for too few passes.
-/

namespace NetSnmp

variable {α κ : Type}

/-- A `sl_container`, and the nodes at all addresses. -/
structure SlContainer (α : Type) where
  data : Addr → α
  next : Addr → Option Addr
  head : Option Addr
  count : Nat
  sync : Nat
  unsorted : Bool
  fifo : Bool

namespace SlContainer

section

variable (compare : α → α → Int)

/-- The loop of `_get`. -/
def getLoop (c : SlContainer α) (key : α) (returnNext : Bool) :
    (fuel : Nat) → (curr : Option Addr) → Option (Option α)
  | 0, _ => none
  | _ + 1, none => some none
  | fuel + 1, some curr =>
      let rc := compare (c.data curr) key
      if rc < 0 then c.getLoop key returnNext fuel (c.next curr)
      else if rc = 0 then
        some (if returnNext then (c.next curr).map c.data else some (c.data curr))
      else if !c.unsorted then some (if returnNext then some (c.data curr) else none)
      else c.getLoop key returnNext fuel (c.next curr)

def get (fuel : Nat) (c : SlContainer α) (key : Option α) (returnNext : Bool) :
    Option (Option α) :=
  match key with
  | none => some (c.head.map c.data)
  | some key => c.getLoop compare key returnNext fuel c.head

/-- `while (n->next) n = n->next;` -/
def lastNode (c : SlContainer α) : (fuel : Nat) → Addr → Option Addr
  | 0, _ => none
  | fuel + 1, n =>
      match c.next n with
      | none => some n
      | some next => c.lastNode fuel next

/-- The loop of a sorted insertion: the node behind which the new one goes. -/
def sortedPlace (c : SlContainer α) (data : α) :
    (fuel : Nat) → (last curr : Option Addr) → Option (Option Addr)
  | 0, _, _ => none
  | _ + 1, last, none => some last
  | fuel + 1, last, some curr =>
      if 0 < compare (c.data curr) data then some last
      else c.sortedPlace data fuel (some curr) (c.next curr)

def linkBehind (c : SlContainer α) (last : Option Addr) (node : Addr) : SlContainer α :=
  match last with
  | none => { c with next := Function.update c.next node c.head, head := some node }
  | some last =>
      { c with
        next := Function.update (Function.update c.next node (c.next last)) last (some node) }

/-- The first part of `_ssll_insert`: a new node at an address. -/
def allocated (c : SlContainer α) (node : Addr) (data : α) : SlContainer α :=
  { c with
    data := Function.update c.data node data
    next := Function.update c.next node none
    count := c.count + 1
    sync := c.sync + 1 }

/-- The rest of `_ssll_insert`: the new node is linked. -/
def linkNew (fuel : Nat) (c : SlContainer α) (node : Addr) (data : α) : Option (SlContainer α) :=
  match c.head with
  | none => some { c with head := some node }
  | some head =>
      if c.unsorted then
        if c.fifo then
          (c.lastNode fuel head).map fun curr =>
            { c with next := Function.update c.next curr (some node) }
        else some (c.linkBehind none node)
      else (c.sortedPlace compare data fuel none (some head)).map fun last => c.linkBehind last node

/-- `_ssll_insert`; `node` is the address of the new node. -/
def ssllInsert (fuel : Nat) (c : SlContainer α) (node : Addr) (data : α) :
    Option (SlContainer α) :=
  (c.allocated node data).linkNew compare fuel node data

/-- The loop of `_ssll_remove`: the node that is found, and the one in front of it. -/
def removeLoop (c : SlContainer α) (data : α) :
    (fuel : Nat) → (last : Addr) → (curr : Option Addr) → Option (Option (Addr × Addr))
  | 0, _, _ => none
  | _ + 1, _, none => some none
  | fuel + 1, last, some curr =>
      let rc := compare (c.data curr) data
      if rc = 0 then some (some (last, curr))
      else if 0 < rc ∧ c.unsorted = false then some none
      else c.removeLoop data fuel curr (c.next curr)

/-- `_ssll_remove`, and what it returns. -/
def ssllRemove (fuel : Nat) (c : SlContainer α) (data : Option α) :
    Option (SlContainer α × Int) :=
  match c.head with
  | none => some (c, -1)
  | some head =>
      let removed := { c with count := c.count - 1, sync := c.sync + 1 }
      match data with
      | none => some ({ removed with head := c.next head }, 0)
      | some data =>
          if compare (c.data head) data = 0 then some ({ removed with head := c.next head }, 0)
          else
            match c.removeLoop compare data fuel head (c.next head) with
            | none => none
            | some none => some (c, -2)
            | some (some (last, curr)) =>
                some ({ removed with next := Function.update c.next last (c.next curr) }, 0)

end

def ssllClear (c : SlContainer α) : SlContainer α :=
  { c with head := none, count := 0, sync := c.sync + 1 }

structure HasNodes (c : SlContainer α) (nodes : List Addr) : Prop where
  chain : TailQueue.Chain c.next c.head nodes none
  nodup : nodes.Nodup

variable {c : SlContainer α} {nodes front back : List Addr} {node : Addr} {start : Option Addr}
  {fuel : Nat} {compare : α → α → Int}

theorem HasNodes.head_eq (hasNodes : HasNodes c nodes) : c.head = nodes.head? := by
  simpa using hasNodes.chain.start_eq

theorem HasNodes.next_eq (hasNodes : HasNodes c (front ++ node :: back)) :
    c.next node = back.head? := by
  rcases TailQueue.chain_append.mp hasNodes.chain with ⟨middle, -, -, rest⟩
  simpa using rest.start_eq

theorem lastNode_eq (chain : TailQueue.Chain c.next (some node) nodes none)
    (enough : nodes.length ≤ fuel) : c.lastNode fuel node = nodes.getLast? := by
  induction nodes generalizing node fuel with
  | nil => nomatch chain
  | cons first nodes ih =>
      rcases fuel with _ | fuel
      · exact absurd enough (Nat.not_succ_le_zero _)
      · rcases chain with ⟨start_eq, rest⟩
        rcases Option.some.inj start_eq with rfl
        rw [lastNode]
        cases nodes with
        | nil =>
            change c.next node = none at rest
            rw [rest]
            rfl
        | cons second nodes =>
            have next_eq := rest.1
            rw [next_eq] at rest ⊢
            rw [List.getLast?_cons_cons]
            exact ih rest (Nat.le_of_succ_le_succ enough)

theorem HasNodes.linkBehind (hasNodes : HasNodes c (front ++ back)) (fresh : node ∉ front ++ back) :
    HasNodes (c.linkBehind front.getLast? node) (front ++ node :: back) := by
  have freshFront : node ∉ front := fun mem => fresh (List.mem_append_left _ mem)
  have freshBack : node ∉ back := fun mem => fresh (List.mem_append_right _ mem)
  rcases TailQueue.chain_append.mp hasNodes.chain with ⟨middle, frontChain, backChain⟩
  rcases List.nodup_append.mp hasNodes.nodup with ⟨frontNodup, backNodup, apart⟩
  refine ⟨?_, ?_⟩
  · rcases List.eq_nil_or_concat' front with rfl | ⟨front, last, rfl⟩
    · simp only [SlContainer.linkBehind, List.getLast?_nil, List.nil_append]
      have head_eq : c.head = middle := frontChain
      refine ⟨rfl, ?_⟩
      rw [Function.update_self, head_eq]
      exact backChain.update_of_not_mem freshBack _
    · simp only [SlContainer.linkBehind, List.getLast?_concat]
      have lastFresh : last ∉ front := by
        intro mem
        exact (List.nodup_append.mp frontNodup).2.2 last mem last List.mem_cons_self rfl
      have lastNotBack : last ∉ back := by
        intro mem
        exact apart last (by simp) last mem rfl
      have next_eq : c.next last = middle := by
        rcases TailQueue.chain_append.mp frontChain with ⟨_, -, -, stop_eq⟩
        exact stop_eq
      have ne : node ≠ last := fun same => freshFront (by simp [same])
      refine TailQueue.chain_append.mpr ⟨some node, ?_, rfl, ?_⟩
      · exact (frontChain.update_of_not_mem freshFront _).relinkLast lastFresh (some node)
      · rw [Function.update_of_ne ne, Function.update_self, next_eq]
        exact (backChain.update_of_not_mem freshBack _).update_of_not_mem lastNotBack _
  · refine List.nodup_append.mpr ⟨frontNodup, List.nodup_cons.mpr ⟨freshBack, backNodup⟩, ?_⟩
    intro first firstMem second secondMem same
    rcases List.mem_cons.mp secondMem with rfl | mem
    · exact freshFront (same ▸ firstMem)
    · exact apart first firstMem second mem same

theorem HasNodes.unlink {last : Addr} (hasNodes : HasNodes c (front ++ node :: back))
    (last_eq : front.getLast? = some last) :
    HasNodes { c with next := Function.update c.next last (c.next node) } (front ++ back) := by
  have next_eq : c.next node = back.head? := hasNodes.next_eq
  rcases TailQueue.chain_append.mp hasNodes.chain with ⟨middle, frontChain, -, rest⟩
  rcases List.nodup_append.mp hasNodes.nodup with ⟨frontNodup, restNodup, apart⟩
  have lastMem : last ∈ front := List.mem_of_getLast? last_eq
  have lastNotBack : last ∉ back := fun mem =>
    apart last lastMem last (List.mem_cons_of_mem _ mem) rfl
  have sublist : (front ++ back).Sublist (front ++ node :: back) :=
    (List.sublist_cons_self node back).append_left front
  refine ⟨?_, hasNodes.nodup.sublist sublist⟩
  rcases List.eq_nil_or_concat' front with rfl | ⟨front, last', rfl⟩
  · nomatch last_eq
  · rw [List.getLast?_concat, Option.some.injEq] at last_eq
    subst last_eq
    have lastFresh : last' ∉ front := by
      intro mem
      exact (List.nodup_append.mp frontNodup).2.2 last' mem last' List.mem_cons_self rfl
    exact TailQueue.chain_append.mpr ⟨c.next node, frontChain.relinkLast lastFresh _,
      rest.update_of_not_mem lastNotBack _⟩

def modelInsert (compare : α → α → Int) (unsorted fifo : Bool) (data : α) (sequence : List α) :
    List α :=
  if unsorted then if fifo then sequence ++ [data] else data :: sequence
  else insertBefore (fun other => 0 < compare other data) data sequence

def isEqual (compare : α → α → Int) (data : Option α) (other : α) : Bool :=
  match data with
  | none => true
  | some data => compare other data = 0

def modelRemove (compare : α → α → Int) (data : Option α) (sequence : List α) : List α :=
  sequence.eraseP (isEqual compare data)

theorem length_modelInsert (compare : α → α → Int) (unsorted fifo : Bool) (data : α)
    (sequence : List α) :
    (modelInsert compare unsorted fifo data sequence).length = sequence.length + 1 := by
  unfold modelInsert
  split
  · split <;> simp
  · exact (insertBefore_perm _ data sequence).length_eq

def Holds (c : SlContainer α) (sequence : List α) : Prop :=
  ∃ nodes, HasNodes c nodes ∧ nodes.map c.data = sequence ∧ c.count = sequence.length

theorem sortedPlace_spec (chain : TailQueue.Chain c.next start nodes none) (data : α)
    (last : Option Addr) :
    ∃ front back, nodes = front ++ back ∧
      (∀ fuel, nodes.length < fuel →
        c.sortedPlace compare data fuel last start = some (front.getLast?.or last)) ∧
      insertBefore (fun other => 0 < compare other data) data (nodes.map c.data) =
        front.map c.data ++ data :: back.map c.data := by
  induction nodes generalizing start last with
  | nil =>
      cases chain
      refine ⟨[], [], rfl, fun fuel enough => ?_, rfl⟩
      rcases fuel with _ | fuel
      · exact absurd enough (Nat.not_lt_zero _)
      · rfl
  | cons first nodes ih =>
      rcases chain with ⟨rfl, rest⟩
      rw [List.map_cons, insertBefore]
      by_cases behind : 0 < compare (c.data first) data
      · refine ⟨[], first :: nodes, rfl, fun fuel enough => ?_, if_pos (decide_eq_true behind)⟩
        rcases fuel with _ | fuel
        · exact absurd enough (Nat.not_lt_zero _)
        · exact if_pos behind
      · rcases ih rest (some first) with ⟨front, back, rfl, place_eq, inserted⟩
        refine ⟨first :: front, back, rfl, fun fuel enough => ?_, ?_⟩
        · rcases fuel with _ | fuel
          · exact absurd enough (Nat.not_lt_zero _)
          · rw [sortedPlace, if_neg behind, place_eq fuel (Nat.lt_of_succ_lt_succ enough),
              List.getLast?_cons]
            cases front.getLast? <;> rfl
        · rw [if_neg (by simpa using behind), inserted]
          rfl

theorem HasNodes.linkNew (hasNodes : HasNodes c nodes) (fresh : node ∉ nodes)
    (single : c.next node = none) (data : α) :
    ∃ front back, nodes = front ++ back ∧
      Settles (fun fuel => c.linkNew compare fuel node data) (c.linkBehind front.getLast? node) ∧
      modelInsert compare c.unsorted c.fifo data (nodes.map c.data) =
        front.map c.data ++ data :: back.map c.data := by
  have head_eq := hasNodes.head_eq
  have chain := hasNodes.chain
  cases nodes with
  | nil =>
      rw [List.head?_nil] at head_eq
      refine ⟨[], [], rfl, ⟨0, fun fuel _ => ?_⟩, ?_⟩
      · simp only [SlContainer.linkNew, head_eq, SlContainer.linkBehind, List.getLast?_nil]
        rw [← single, Function.update_eq_self]
      · unfold modelInsert
        cases c.unsorted <;> cases c.fifo <;> rfl
  | cons first nodes =>
      rw [List.head?_cons] at head_eq
      rw [head_eq] at chain
      cases unsorted : c.unsorted with
      | true =>
          cases fifo : c.fifo with
          | true =>
              rcases List.eq_nil_or_concat' (first :: nodes) with isNil | ⟨front, last, split⟩
              · nomatch isNil
              · have last_eq : (first :: nodes).getLast? = some last := by
                  rw [split, List.getLast?_concat]
                have next_last : c.next last = none := by
                  rw [split] at hasNodes
                  exact hasNodes.next_eq
                refine ⟨first :: nodes, [], (List.append_nil _).symm,
                  ⟨nodes.length + 1, fun fuel enough => ?_⟩, ?_⟩
                · have found : c.lastNode fuel first = some last :=
                    (lastNode_eq chain enough).trans last_eq
                  simp only [SlContainer.linkNew, head_eq, unsorted, fifo, if_true, found,
                    Option.map_some, last_eq, SlContainer.linkBehind, next_last]
                  rw [← single, Function.update_eq_self]
                · simp [modelInsert]
          | false =>
              refine ⟨[], first :: nodes, rfl, ⟨0, fun fuel _ => ?_⟩, ?_⟩
              · simp only [SlContainer.linkNew, head_eq, unsorted, fifo, if_true,
                  Bool.false_eq_true, if_false]
                rfl
              · simp [modelInsert]
      | false =>
          rcases @sortedPlace_spec _ c (first :: nodes) _ compare chain data none with
            ⟨front, back, split, place_eq, inserted⟩
          refine ⟨front, back, split, ⟨nodes.length + 2, fun fuel enough => ?_⟩, ?_⟩
          · have found := place_eq fuel enough
            rw [Option.or_none] at found
            simp only [SlContainer.linkNew, head_eq, unsorted, Bool.false_eq_true, if_false, found,
              Option.map_some]
          · simpa [modelInsert] using inserted

theorem Holds.ssllInsert {sequence : List α} (holds : Holds c sequence) (data : α)
    (fresh : ∀ nodes, HasNodes c nodes → node ∉ nodes) :
    ∃ c', Settles (fun fuel => c.ssllInsert compare fuel node data) c' ∧
      Holds c' (modelInsert compare c.unsorted c.fifo data sequence) ∧
      c'.unsorted = c.unsorted ∧ c'.fifo = c.fifo := by
  rcases holds with ⟨nodes, hasNodes, rfl, count_eq⟩
  have notIn := fresh nodes hasNodes
  have data_eq (others : List Addr) (notIn : node ∉ others) :
      others.map (c.allocated node data).data = others.map c.data := by
    apply List.map_congr_left
    intro other mem
    exact Function.update_of_ne (ne_of_mem_of_not_mem mem notIn) _ _
  have entered : HasNodes (c.allocated node data) nodes :=
    ⟨hasNodes.chain.update_of_not_mem notIn none, hasNodes.nodup⟩
  rcases @HasNodes.linkNew _ _ _ _ compare entered notIn (Function.update_self _ _ _) data with
    ⟨front, back, rfl, settles, model_eq⟩
  refine ⟨_, settles, ⟨front ++ node :: back, entered.linkBehind notIn, ?_, ?_⟩, ?_⟩
  · rw [data_eq _ notIn] at model_eq
    have notIn' := notIn
    rw [List.mem_append, not_or] at notIn'
    have same : ((c.allocated node data).linkBehind front.getLast? node).data =
        (c.allocated node data).data := by cases front.getLast? <;> rfl
    have self_eq : (c.allocated node data).data node = data := Function.update_self _ _ _
    rw [same, List.map_append, List.map_cons, self_eq]
    exact model_eq.symm
  · have same : ((c.allocated node data).linkBehind front.getLast? node).count = c.count + 1 := by
      cases front.getLast? <;> rfl
    rw [same, count_eq, length_modelInsert]
  · cases front.getLast? <;> exact ⟨rfl, rfl⟩

section Removal

variable [LinearOrder κ] {key : α → κ}

theorem removeLoop_spec (compares : Compares compare key)
    (chain : TailQueue.Chain c.next start nodes none)
    (ordered : c.unsorted = false → SortedBy key (nodes.map c.data)) (data : α) (last : Addr) :
    (∃ front node back, nodes = front ++ node :: back ∧ compare (c.data node) data = 0 ∧
        (∀ other ∈ front, compare (c.data other) data ≠ 0) ∧
        ∀ fuel, nodes.length < fuel → c.removeLoop compare data fuel last start =
          some (some (front.getLast?.getD last, node))) ∨
      ((∀ other ∈ nodes, compare (c.data other) data ≠ 0) ∧
        ∀ fuel, nodes.length < fuel → c.removeLoop compare data fuel last start = some none) := by
  induction nodes generalizing start last with
  | nil =>
      cases chain
      refine .inr ⟨nofun, fun fuel enough => ?_⟩
      rcases fuel with _ | fuel
      · exact absurd enough (Nat.not_lt_zero _)
      · rfl
  | cons first nodes ih =>
      rcases chain with ⟨rfl, rest⟩
      have ordered' : c.unsorted = false → SortedBy key (nodes.map c.data) := fun sorted =>
        (List.pairwise_cons.mp (ordered sorted)).2
      by_cases same : compare (c.data first) data = 0
      · refine .inl ⟨[], first, nodes, rfl, same, nofun, fun fuel enough => ?_⟩
        rcases fuel with _ | fuel
        · exact absurd enough (Nat.not_lt_zero _)
        · exact if_pos same
      · by_cases stops : 0 < compare (c.data first) data ∧ c.unsorted = false
        · refine .inr ⟨?_, fun fuel enough => ?_⟩
          · intro other mem equal
            have first_gt := (compares.pos_iff _ _).mp stops.1
            rcases List.mem_cons.mp mem with rfl | mem
            · exact same equal
            · have le := (List.pairwise_cons.mp (ordered stops.2)).1 _ (List.mem_map_of_mem mem)
              exact absurd ((compares.zero_iff _ _).mp equal) (first_gt.trans_le le).ne'
          · rcases fuel with _ | fuel
            · exact absurd enough (Nat.not_lt_zero _)
            · exact (if_neg same).trans (if_pos stops)
        · have passes (fuel : Nat) (enough : (first :: nodes).length < fuel + 1) :
              c.removeLoop compare data (fuel + 1) last (some first) =
                c.removeLoop compare data fuel first (c.next first) ∧ nodes.length < fuel :=
            ⟨(if_neg same).trans (if_neg stops), Nat.lt_of_succ_lt_succ enough⟩
          rcases ih rest ordered' first with
            ⟨front, node, back, rfl, equal, others, found⟩ | ⟨others, missing⟩
          · refine .inl ⟨first :: front, node, back, rfl, equal, ?_, fun fuel enough => ?_⟩
            · exact List.forall_mem_cons.mpr ⟨same, others⟩
            · rcases fuel with _ | fuel
              · exact absurd enough (Nat.not_lt_zero _)
              · rw [(passes fuel enough).1, found fuel (passes fuel enough).2, List.getLast?_cons]
                rfl
          · refine .inr ⟨List.forall_mem_cons.mpr ⟨same, others⟩, fun fuel enough => ?_⟩
            rcases fuel with _ | fuel
            · exact absurd enough (Nat.not_lt_zero _)
            · rw [(passes fuel enough).1, missing fuel (passes fuel enough).2]

/-- What `_ssll_remove` does. -/
structure Removes (compare : α → α → Int) (c : SlContainer α) (data : Option α)
    (sequence : List α) (result : SlContainer α × Int) : Prop where
  holds : Holds result.1 (modelRemove compare data sequence)
  found : (∃ other ∈ sequence, isEqual compare data other = true) → result.2 = 0
  missing : (¬ ∃ other ∈ sequence, isEqual compare data other = true) →
    result.2 ≠ 0 ∧ result.1 = c
  flags : result.1.unsorted = c.unsorted ∧ result.1.fifo = c.fifo

theorem Removes.of_missing {sequence : List α} {data : Option α} {code : Int}
    (holds : Holds c sequence) (failed : code ≠ 0)
    (missing : ∀ other ∈ sequence, isEqual compare data other = false) :
    Removes compare c data sequence (c, code) := by
  have unchanged : modelRemove compare data sequence = sequence :=
    List.eraseP_of_forall_not (by simpa using missing)
  refine ⟨?_, ?_, fun _ => ⟨failed, rfl⟩, rfl, rfl⟩
  · rw [unchanged]
    exact holds
  · rintro ⟨other, mem, equal⟩
    rw [missing other mem] at equal
    nomatch equal

theorem Removes.of_found {data : Option α} {c' : SlContainer α}
    (hasNodes : HasNodes c' (front ++ back)) (data_eq : c'.data = c.data)
    (count_eq : c'.count + 1 = ((front ++ node :: back).map c.data).length)
    (flags : c'.unsorted = c.unsorted ∧ c'.fifo = c.fifo)
    (equal : isEqual compare data (c.data node) = true)
    (others : ∀ other ∈ front, isEqual compare data (c.data other) = false) :
    Removes compare c data ((front ++ node :: back).map c.data) (c', 0) := by
  have removed : modelRemove compare data ((front ++ node :: back).map c.data) =
      (front ++ back).map c.data := by
    rw [modelRemove, List.map_append, List.map_append, List.map_cons,
      List.eraseP_append_right, List.eraseP_cons_of_pos equal]
    intro other mem
    rcases List.mem_map.mp mem with ⟨node', mem', rfl⟩
    simp [others node' mem']
  refine ⟨⟨front ++ back, hasNodes, ?_, ?_⟩, fun _ => rfl, ?_, flags⟩
  · rw [removed, data_eq]
  · rw [removed]
    simp only [List.length_map, List.length_append, List.length_cons] at count_eq ⊢
    omega
  · intro absent
    exact absurd ⟨c.data node, List.mem_map_of_mem (by simp), equal⟩ absent

theorem Holds.ssllRemove (compares : Compares compare key) {sequence : List α}
    (holds : Holds c sequence) (ordered : c.unsorted = false → SortedBy key sequence)
    (data : Option α) :
    ∃ result, Settles (fun fuel => c.ssllRemove compare fuel data) result ∧
      Removes compare c data sequence result := by
  rcases holds with ⟨nodes, hasNodes, rfl, count_eq⟩
  have head_eq := hasNodes.head_eq
  have whole : Holds c (nodes.map c.data) := ⟨nodes, hasNodes, rfl, count_eq⟩
  cases nodes with
  | nil =>
      refine ⟨(c, -1), ⟨0, fun fuel _ => ?_⟩, Removes.of_missing whole (by decide) nofun⟩
      simp only [SlContainer.ssllRemove, head_eq, List.head?_nil]
  | cons first nodes =>
      rw [List.head?_cons] at head_eq
      have chain := hasNodes.chain
      by_cases equal : isEqual compare data (c.data first) = true
      · refine ⟨({ c with count := c.count - 1, sync := c.sync + 1, head := c.next first }, 0),
          ⟨0, fun fuel _ => ?_⟩, ?_⟩
        · cases data with
          | none => simp only [SlContainer.ssllRemove, head_eq]
          | some data =>
              have zero : compare (c.data first) data = 0 := by simpa [isEqual] using equal
              simp only [SlContainer.ssllRemove, head_eq, zero, if_true]
        · apply @Removes.of_found _ _ [] nodes first
          · exact ⟨chain.2, (List.nodup_cons.mp hasNodes.nodup).2⟩
          · rfl
          · rw [List.nil_append, ← count_eq]
            rw [List.map_cons, List.length_cons] at count_eq
            change c.count - 1 + 1 = c.count
            omega
          · exact ⟨rfl, rfl⟩
          · exact equal
          · exact nofun
      · cases data with
        | none => exact absurd rfl equal
        | some data =>
            have nonzero : compare (c.data first) data ≠ 0 := by simpa [isEqual] using equal
            have ordered' : c.unsorted = false → SortedBy key (nodes.map c.data) := fun sorted =>
              (List.pairwise_cons.mp (ordered sorted)).2
            rcases removeLoop_spec compares chain.2 ordered' data first with
              ⟨front, node, back, rfl, zero, others, found⟩ | ⟨others, missing⟩
            · refine ⟨({ c with
                  count := c.count - 1
                  sync := c.sync + 1
                  next := Function.update c.next (front.getLast?.getD first) (c.next node) }, 0),
                ⟨(front ++ node :: back).length + 1, fun fuel enough => ?_⟩, ?_⟩
              · simp only [SlContainer.ssllRemove, head_eq, if_neg nonzero, found fuel enough]
              · have unlinked := @HasNodes.unlink _ c (first :: front) back node _ hasNodes
                  (by rw [List.getLast?_cons])
                apply @Removes.of_found _ _ (first :: front) back node
                · exact ⟨unlinked.chain, unlinked.nodup⟩
                · rfl
                · have long : 0 < ((first :: (front ++ node :: back)).map c.data).length := by simp
                  change c.count - 1 + 1 = ((first :: (front ++ node :: back)).map c.data).length
                  omega
                · exact ⟨rfl, rfl⟩
                · simpa [isEqual] using zero
                · intro other mem
                  rcases List.mem_cons.mp mem with rfl | mem
                  · simpa using equal
                  · simpa [isEqual] using others other mem
            · refine ⟨(c, -2), ⟨nodes.length + 1, fun fuel enough => ?_⟩,
                Removes.of_missing whole (by decide) ?_⟩
              · simp only [SlContainer.ssllRemove, head_eq, if_neg nonzero, missing fuel enough]
              · intro other mem
                rcases List.mem_map.mp mem with ⟨node, isNode, rfl⟩
                rcases List.mem_cons.mp isNode with rfl | isNode
                · simpa using equal
                · simpa [isEqual] using others node isNode

end Removal

end SlContainer

end NetSnmp
