import Mathlib.Data.List.Basic
import Mathlib.Logic.Function.Basic

/-!
# Linked nodes

Nodes that are found one after the other by following a link, and loops that set one link after
the other.
-/

namespace NetSnmp

variable {Node Value : Type}

/-- From `start` the links lead through the nodes to `stop`. -/
def LinkedTo (next : Node → Option Node) (start : Option Node) (nodes : List Node)
    (stop : Option Node) : Prop :=
  match nodes with
  | [] => start = stop
  | node :: nodes => start = some node ∧ LinkedTo next (next node) nodes stop

section LinkedTo

variable {next next' : Node → Option Node} {start middle stop : Option Node}
  {front back nodes nodes' : List Node}

theorem LinkedTo.append (linked : LinkedTo next start front middle)
    (linked' : LinkedTo next middle back stop) : LinkedTo next start (front ++ back) stop := by
  induction front generalizing start with
  | nil =>
      cases linked
      exact linked'
  | cons node front ih => exact ⟨linked.1, ih linked.2⟩

theorem LinkedTo.unique (linked : LinkedTo next start nodes none)
    (linked' : LinkedTo next start nodes' none) : nodes = nodes' := by
  induction nodes generalizing start nodes' with
  | nil =>
      cases linked
      cases nodes' with
      | nil => rfl
      | cons node nodes' => cases linked'.1
  | cons node nodes ih =>
      cases linked.1
      cases nodes' with
      | nil => cases linked'
      | cons node' nodes' =>
          cases linked'.1
          rw [ih linked.2 linked'.2]

theorem linkedTo_range (node : Nat → Node) {count : Nat}
    (first : start = if 0 < count then some (node 0) else stop)
    (links : ∀ i, i < count → next (node i) = if i + 1 < count then some (node (i + 1)) else stop) :
    LinkedTo next start ((List.range count).map node) stop := by
  induction count generalizing start stop with
  | zero => exact first
  | succ count ih =>
      rw [List.range_succ, List.map_append, List.map_singleton]
      have front : LinkedTo next start ((List.range count).map node) (some (node count)) := by
        apply ih
        · rw [first, if_pos (Nat.succ_pos count)]
          split_ifs with more
          · rfl
          · rw [show count = 0 by omega]
        · intro i inside
          rw [links i (by omega), if_pos (by omega)]
          split_ifs with more
          · rfl
          · rw [show i + 1 = count by omega]
      apply front.append
      refine ⟨rfl, ?_⟩
      rw [links count (Nat.lt_succ_self count), if_neg (by omega)]
      rfl

end LinkedTo

variable [DecidableEq Node]

theorem foldl_update (value : Nat → Value) {node : Nat → Node} {count : Nat}
    (injective : ∀ i j, i < count → j < count → node i = node j → i = j) (start : Node → Value) :
    (∀ i < count, (List.range count).foldl
        (fun f i => Function.update f (node i) (value i)) start (node i) = value i) ∧
      ∀ other, (∀ i < count, other ≠ node i) → (List.range count).foldl
        (fun f i => Function.update f (node i) (value i)) start other = start other := by
  induction count with
  | zero => exact ⟨fun i inside => absurd inside (Nat.not_lt_zero i), fun _ _ => rfl⟩
  | succ count ih =>
      have ih := ih fun i j inside inside' => injective i j (by omega) (by omega)
      simp only [List.range_succ, List.foldl_append, List.foldl_cons, List.foldl_nil]
      constructor
      · intro i inside
        by_cases last : i = count
        · subst last
          exact Function.update_self _ _ _
        · have apart : node i ≠ node count := by
            intro same
            exact last (injective i count inside (Nat.lt_succ_self count) same)
          rw [Function.update_of_ne apart]
          exact ih.1 i (by omega)
      · intro other apart
        rw [Function.update_of_ne (apart count (Nat.lt_succ_self count))]
        exact ih.2 other fun i inside => apart i (by omega)

end NetSnmp
