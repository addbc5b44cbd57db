import NetSnmp.Container.Removal
import NetSnmp.Fuel

/-!
# Iterators of a binary array

An iterator keeps its own position, and the value that the counter of the container
had when it was reset.  It is followed here through a caller's loop that removes
some of the elements that it visits.
-/

namespace NetSnmp

variable {α : Type}

/-- `binary_array_iterator` -/
structure ArrayIterator where
  pos : Nat
  sync : UInt64
  deriving DecidableEq

namespace ArrayIterator

/-- What `_ba_iterator_position` comes to.  The caller gets a null pointer for all but an entry. -/
inductive Position (α : Type) where
  | outOfSync
  | empty
  | atEnd
  | entry (data : α)
  deriving DecidableEq

/-- `_ba_iterator_position` -/
def position (it : ArrayIterator) (c : SyncedArray α) (pos : Nat) : Position α :=
  if c.sync ≠ it.sync then .outOfSync
  else if c.array.data.length = 0 then .empty
  else
    match c.array.data[pos]? with
    | some data => .entry data
    | none => .atEnd

/-- `_ba_iterator_first` -/
def first (it : ArrayIterator) (c : SyncedArray α) : Position α := it.position c 0

/-- `_ba_iterator_next` -/
def next (it : ArrayIterator) (c : SyncedArray α) : ArrayIterator × Position α :=
  let it := { it with pos := toSizeT (it.pos + 1 : Nat) }
  (it, it.position c it.pos)

/-- `_ba_iterator_remove` -/
def remove (it : ArrayIterator) (c : SyncedArray α) :
    Option (Int × ArrayIterator × SyncedArray α) :=
  (c.removeAt it.pos).map fun (rc, _, c) => (rc, ⟨toSizeT (it.pos - 1), it.sync + 1⟩, c)

/-- `_ba_iterator_reset`, for a new iterator too. -/
def reset (qsort : List α → List α) (c : SyncedArray α) : ArrayIterator × SyncedArray α :=
  let c := if c.array.dirty then SyncedArray.sortArray qsort c else c
  (⟨0, c.sync⟩, c)

/-- The elements that a loop has visited, the null pointer at its end, and the container. -/
structure Visited (α : Type) where
  elements : List α
  ended : Position α
  left : SyncedArray α
  deriving DecidableEq

/-- The loop of a caller that goes from one element to the next and removes those at some positions,
which are counted from the start. -/
def visit (isRemoved : Nat → Bool) : (fuel count : Nat) → ArrayIterator → SyncedArray α →
    Position α → Option (Visited α)
  | 0, _, _, _, _ => none
  | fuel + 1, count, it, c, .entry data =>
      (if isRemoved count then (it.remove c).map Prod.snd else some (it, c)).bind fun (it, c) =>
        let (it, position) := it.next c
        (visit isRemoved fuel (count + 1) it c position).map fun visited =>
          { visited with elements := data :: visited.elements }
  | _ + 1, _, _, c, ended => some ⟨[], ended, c⟩

def visitAll (qsort : List α → List α) (c : SyncedArray α) (isRemoved : Nat → Bool) (fuel : Nat) :
    Option (Visited α) :=
  let (it, c) := reset qsort c
  visit isRemoved fuel 0 it c (it.first c)

def kept (isRemoved : Nat → Bool) : (count : Nat) → List α → List α
  | _, [] => []
  | count, data :: rest =>
      if isRemoved count then kept isRemoved (count + 1) rest
      else data :: kept isRemoved (count + 1) rest

def ahead (ended : Position α) : List α → Position α
  | [] => ended
  | data :: _ => .entry data

variable {c : SyncedArray α} {it : ArrayIterator} {front rest : List α} {data : α}

theorem position_of_inSync (inSync : c.sync = it.sync) (data_eq : c.array.data = front ++ rest) :
    it.position c front.length = ahead (if front = [] then .empty else .atEnd) rest := by
  rw [position, if_neg (by simpa using inSync), data_eq]
  cases rest with
  | nil =>
      cases front with
      | nil => rfl
      | cons first front => simp [ahead]
  | cons data rest => simp [ahead]

theorem next_of_kept (inSync : c.sync = it.sync) (data_eq : c.array.data = front ++ data :: rest)
    (pos_eq : it.pos = front.length) (small : c.array.data.length < 2 ^ 64) :
    it.next c = (⟨(front ++ [data]).length, it.sync⟩, ahead .atEnd rest) := by
  rw [data_eq, List.length_append, List.length_cons] at small
  have pos_eq' : toSizeT (it.pos + 1 : Nat) = (front ++ [data]).length := by
    rw [toSizeT_eq_self (by omega), pos_eq, List.length_append, List.length_singleton]
  have data_eq' : c.array.data = (front ++ [data]) ++ rest := by simpa using data_eq
  have some_front : front ++ [data] ≠ [] := by simp
  have ahead_eq := @position_of_inSync _ c ⟨(front ++ [data]).length, it.sync⟩ _ _ inSync data_eq'
  rw [if_neg some_front] at ahead_eq
  simp only [next, pos_eq', ahead_eq]

theorem next_of_removed (inSync : c.sync = it.sync) (data_eq : c.array.data = front ++ data :: rest)
    (pos_eq : it.pos = front.length) (small : c.array.data.length < 2 ^ 64) :
    ∃ it' c', it.remove c = some (0, it', c') ∧ c'.array.data = front ++ rest ∧
      it'.next c' = (⟨front.length, it.sync + 1⟩, ahead .outOfSync rest) ∧
      (rest ≠ [] → c'.sync = it.sync + 1) := by
  have length_eq : c.array.data.length = front.length + (rest.length + 1) := by
    rw [data_eq, List.length_append, List.length_cons]
  have inside : it.pos < c.array.data.length := by omega
  have erased : c.array.data.eraseIdx it.pos = front ++ rest := by
    rw [data_eq, pos_eq, List.eraseIdx_append_of_length_le le_rfl, Nat.sub_self]
    rfl
  have removed := SyncedArray.removeAt_inside inside
  have sync_eq : (if it.pos + 1 ≠ c.array.data.length then c.sync + 1 else c.sync) =
      if rest = [] then it.sync else it.sync + 1 := by
    cases rest with
    | nil => rw [if_neg (by rw [length_eq, pos_eq]; simp), if_pos rfl, inSync]
    | cons data' rest =>
        rw [if_pos (by rw [length_eq, pos_eq]; simp), if_neg (List.cons_ne_nil _ _), inSync]
  rw [erased, sync_eq] at removed
  refine ⟨⟨toSizeT (it.pos - 1), it.sync + 1⟩, ⟨{ c.array with data := front ++ rest },
    if rest = [] then it.sync else it.sync + 1⟩, ?_, rfl, ?_, ?_⟩
  · rw [remove, removed]
    rfl
  · have pos_eq' : toSizeT (toSizeT (it.pos - 1) + 1 : Nat) = front.length := by
      unfold toSizeT
      omega
    simp only [next, pos_eq', Prod.mk.injEq, true_and]
    cases rest with
    | nil =>
        rw [position, if_pos]
        · rfl
        · simp
    | cons data' rest =>
        exact @position_of_inSync _ ⟨{ c.array with data := front ++ data' :: rest }, it.sync + 1⟩
          ⟨front.length, it.sync + 1⟩ front (data' :: rest) rfl rfl
  · intro some_rest
    exact if_neg some_rest

theorem visit_spec (isRemoved : Nat → Bool) (count : Nat) (inSync : c.sync = it.sync)
    (data_eq : c.array.data = front ++ data :: rest) (pos_eq : it.pos = front.length)
    (small : c.array.data.length < 2 ^ 64) :
    ∃ ended left, (∀ fuel, rest.length + 2 ≤ fuel →
        visit isRemoved fuel count it c (.entry data) = some ⟨data :: rest, ended, left⟩) ∧
      left.array.data = front ++ kept isRemoved count (data :: rest) ∧
      (ended ≠ .outOfSync ↔ isRemoved (count + rest.length) = false) := by
  induction rest generalizing count it c front data with
  | nil =>
      cases removed : isRemoved count with
      | true =>
          rcases next_of_removed inSync data_eq pos_eq small with
            ⟨it', c', remove_eq, data_eq', next_eq, -⟩
          refine ⟨.outOfSync, c', ?_, ?_, ?_⟩
          · intro fuel enough
            rcases Nat.exists_eq_add_of_le' enough with ⟨more, rfl⟩
            change visit isRemoved (more + 1 + 1) count it c (.entry data) = _
            rw [visit, removed, if_pos rfl, remove_eq]
            simp [next_eq, ahead, visit]
          · rw [data_eq', kept, if_pos removed, kept]
          · simp
      | false =>
          refine ⟨.atEnd, c, ?_, ?_, ?_⟩
          · intro fuel enough
            rcases Nat.exists_eq_add_of_le' enough with ⟨more, rfl⟩
            change visit isRemoved (more + 1 + 1) count it c (.entry data) = _
            rw [visit, removed, if_neg (by simp)]
            simp [next_of_kept inSync data_eq pos_eq small, ahead, visit]
          · rw [data_eq, kept, removed]
            rfl
          · simp
  | cons data' rest ih =>
      have last_eq : count + (data' :: rest).length = count + 1 + rest.length := by
        rw [List.length_cons]
        omega
      rw [last_eq]
      cases removed : isRemoved count with
      | true =>
          rcases next_of_removed inSync data_eq pos_eq small with
            ⟨it', c', remove_eq, data_eq', next_eq, inSync'⟩
          have small' : c'.array.data.length < 2 ^ 64 := by
            rw [data_eq] at small
            rw [data_eq']
            simp only [List.length_append, List.length_cons] at small ⊢
            omega
          rcases @ih c' ⟨front.length, it.sync + 1⟩ front data' (count + 1) (inSync' (by simp))
            data_eq' rfl small' with ⟨ended, left, visited, left_eq, ended_iff⟩
          refine ⟨ended, left, ?_, ?_, ended_iff⟩
          · intro fuel enough
            rcases Nat.exists_eq_add_of_le' enough with ⟨more, rfl⟩
            have visited' := visited (more + rest.length + 2) (by omega)
            rw [List.length_cons, ← Nat.add_assoc, ← Nat.add_assoc, visit, removed, if_pos rfl,
              remove_eq]
            simp [next_eq, ahead, visited']
          · have kept_eq : kept isRemoved count (data :: data' :: rest) =
                kept isRemoved (count + 1) (data' :: rest) := if_pos removed
            rw [left_eq, kept_eq]
      | false =>
          have data_eq' : c.array.data = (front ++ [data]) ++ data' :: rest := by
            simpa using data_eq
          rcases @ih c ⟨(front ++ [data]).length, it.sync⟩ (front ++ [data]) data' (count + 1)
            inSync data_eq' rfl small with ⟨ended, left, visited, left_eq, ended_iff⟩
          refine ⟨ended, left, ?_, ?_, ended_iff⟩
          · intro fuel enough
            rcases Nat.exists_eq_add_of_le' enough with ⟨more, rfl⟩
            have visited' := visited (more + rest.length + 2) (by omega)
            rw [List.length_cons, ← Nat.add_assoc, ← Nat.add_assoc, visit, removed,
              if_neg (by simp)]
            simp only [Option.bind_some, next_of_kept inSync data_eq pos_eq small, ahead,
              visited', Option.map_some]
          · have kept_eq : kept isRemoved count (data :: data' :: rest) =
                data :: kept isRemoved (count + 1) (data' :: rest) := by
              rw [kept, removed]
              rfl
            rw [left_eq, kept_eq, List.append_assoc, List.singleton_append]

theorem reset_eq (qsort : List α → List α) (c : SyncedArray α) :
    reset qsort c =
      (⟨0, (SyncedArray.sortArray qsort c).sync⟩, SyncedArray.sortArray qsort c) := by
  rw [reset]
  split
  · rfl
  · rename_i clean
    have idle : ¬ c.Pending := fun pending => clean pending.2
    rw [SyncedArray.sortArray_of_not_pending idle]

/-- How a loop goes that removes some of the elements: it visits all of them in order and leaves
just the others, and its iterator is reported as out of sync exactly if the last element was
removed. -/
structure VisitsAll (qsort : List α → List α) (c : SyncedArray α) (isRemoved : Nat → Bool)
    (visited : Visited α) : Prop where
  settles : Settles (visitAll qsort c isRemoved) visited
  elements_eq : visited.elements = (BinaryArray.sortArray qsort c.array).data
  perm : visited.elements.Perm c.array.data
  left_eq : visited.left.array.data = kept isRemoved 0 visited.elements
  inSync_iff : visited.ended ≠ .outOfSync ↔
    ∀ last, last + 1 = c.array.data.length → isRemoved last = false

theorem visitAll_inSync_iff {qsort : List α → List α} (perm : ∀ list, (qsort list).Perm list)
    (c : SyncedArray α) (small : c.array.data.length < 2 ^ 64) (isRemoved : Nat → Bool) :
    ∃ visited, VisitsAll qsort c isRemoved visited := by
  have sort_perm := SyncedArray.perm_sortArray perm c
  have start (fuel : Nat) : visitAll qsort c isRemoved fuel =
      visit isRemoved fuel 0 ⟨0, (SyncedArray.sortArray qsort c).sync⟩
        (SyncedArray.sortArray qsort c)
        (ahead .empty (SyncedArray.sortArray qsort c).array.data) := by
    rw [visitAll, reset_eq]
    simp only [first]
    congr 1
    exact @position_of_inSync _ (SyncedArray.sortArray qsort c) _ [] _ rfl rfl
  have length_eq := sort_perm.length_eq
  have array_eq : (SyncedArray.sortArray qsort c).array = BinaryArray.sortArray qsort c.array := rfl
  rw [← length_eq] at small
  cases data_eq : (SyncedArray.sortArray qsort c).array.data with
  | nil =>
      refine ⟨⟨[], .empty, SyncedArray.sortArray qsort c⟩, ⟨1, ?_⟩, ?_, ?_, data_eq, ?_⟩
      · intro fuel enough
        rcases Nat.exists_eq_add_of_le' enough with ⟨more, rfl⟩
        rw [start, data_eq]
        rfl
      · rw [← array_eq, data_eq]
      · rw [← data_eq]
        exact sort_perm
      · rw [← length_eq, data_eq]
        simp
  | cons data rest =>
      rcases @visit_spec _ (SyncedArray.sortArray qsort c)
        ⟨0, (SyncedArray.sortArray qsort c).sync⟩ [] rest data isRemoved 0 rfl data_eq rfl small
        with ⟨ended, left, visited, left_eq, ended_iff⟩
      refine ⟨⟨data :: rest, ended, left⟩, ⟨rest.length + 2, ?_⟩, ?_, ?_, left_eq, ?_⟩
      · intro fuel enough
        rw [start, data_eq]
        exact visited fuel enough
      · rw [← array_eq, data_eq]
      · rw [← data_eq]
        exact sort_perm
      · rw [ended_iff, Nat.zero_add, ← length_eq, data_eq]
        constructor
        · intro stays last last_eq
          obtain rfl : last = rest.length := by simpa using last_eq
          exact stays
        · intro stays
          exact stays rest.length (List.length_cons).symm

theorem visitAll_inSync_iff_numbers :
    (∀ list, (SyncedArray.insertNumbers list).Perm list) ∧
      SyncedArray.pendingNumbers.array.data.length < 2 ^ 64 ∧
      ∃ visited, VisitsAll SyncedArray.insertNumbers SyncedArray.pendingNumbers
        (fun position => position == 0) visited :=
  ⟨fun list => List.perm_insertionSort _ list, by decide,
    visitAll_inSync_iff (fun list => List.perm_insertionSort _ list) SyncedArray.pendingNumbers
      (by decide) fun position => position == 0⟩

/-- If the last of two elements is removed the loop ends out of sync. -/
theorem not_visitAll_inSync :
    ¬ ∀ (c : SyncedArray Nat) (isRemoved : Nat → Bool), c.array.data.length < 2 ^ 64 →
      ∃ visited, Settles (visitAll SyncedArray.insertNumbers c isRemoved) visited ∧
        visited.ended ≠ .outOfSync := by
  intro all
  rcases all ⟨{ data := [1, 3] }, 0⟩ (fun position => position == 1) (by decide) with
    ⟨visited, ⟨bound, settled⟩, inSync⟩
  have ends : (visitAll SyncedArray.insertNumbers ⟨{ data := [1, 3] }, 0⟩
      (fun position => position == 1) (bound + 3)).map Visited.ended = some .outOfSync := rfl
  rw [settled (bound + 3) (by omega)] at ends
  exact inSync (Option.some.inj ends)

end ArrayIterator

end NetSnmp
