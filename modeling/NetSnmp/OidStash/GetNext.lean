import Mathlib.Data.Finset.Lattice.Fold
import Mathlib.Data.Finset.Sort
import Mathlib.Order.Lattice.Nat
import NetSnmp.Fuel
import NetSnmp.OidStash.FiniteMap
import NetSnmp.TableWalk

/-!
# The next node of the stash

The second loop goes through the nodes behind a place of the tree in order and
stops at the first one with data.  The first loop finds this place for a name that
is a path of the tree; for other names it looks one sub-identifier too far.
-/

namespace NetSnmp

namespace OidStash

theorem concat_le_iff {path name : Oid} {least : Nat} :
    path ++ [least] ≤ name ↔
      (∃ value rest, name = path ++ value :: rest ∧ least ≤ value) ∨
        (path < name ∧ ¬ path <+: name) := by
  induction path generalizing name with
  | nil =>
      cases name with
      | nil => simp
      | cons value rest =>
          rw [List.nil_append, ← not_lt, List.cons_lt_cons_iff]
          simp
  | cons first path ih =>
      cases name with
      | nil => simp
      | cons value rest =>
          have below : (∃ value' rest', value :: rest = first :: path ++ value' :: rest' ∧
              least ≤ value') ↔
              value = first ∧ ∃ value' rest', rest = path ++ value' :: rest' ∧ least ≤ value' := by
            simp only [List.cons_append, List.cons.injEq]
            constructor
            · rintro ⟨value', rest', ⟨rfl, rfl⟩, le⟩
              exact ⟨rfl, value', rest', rfl, le⟩
            · rintro ⟨rfl, value', rest', rfl, le⟩
              exact ⟨value', rest', ⟨rfl, rfl⟩, le⟩
          have ahead := @ih rest
          rw [below, List.cons_append, ← not_lt, List.cons_lt_cons_iff, List.cons_lt_cons_iff,
            List.cons_prefix_cons]
          rw [← not_lt] at ahead
          rcases lt_trichotomy value first with less | rfl | greater
          · simp [less, less.ne, less.not_gt, less.ne']
          · simp only [lt_irrefl, true_and, false_or, ahead]
          · simp [greater, greater.ne', greater.not_gt, greater.ne]

theorem concat_zero_le_iff {path name : Oid} : path ++ [0] ≤ name ↔ path < name := by
  rw [concat_le_iff]
  constructor
  · rintro (⟨value, rest, rfl, -⟩ | ⟨behind, -⟩)
    · have behind : path ++ [] < path ++ value :: rest :=
        List.append_left_lt (List.nil_lt_cons _ _)
      rwa [List.append_nil] at behind
    · exact behind
  · intro behind
    by_cases below : path <+: name
    · rcases below with ⟨rest, rfl⟩
      cases rest with
      | nil => exact absurd behind (by simp)
      | cons value rest => exact .inl ⟨value, rest, rfl, Nat.zero_le _⟩
    · exact .inr ⟨behind, below⟩

theorem concat_succ_le_iff {path name : Oid} {value : Nat} :
    path ++ [value + 1] ≤ name ↔ path ++ [value] < name ∧ ¬ path ++ [value] <+: name := by
  rw [← concat_zero_le_iff, concat_le_iff, concat_le_iff]
  constructor
  · rintro (⟨value', rest, rfl, le⟩ | ⟨behind, notBelow⟩)
    · have notBelow : ¬ path ++ [value] <+: path ++ value' :: rest := by
        rw [List.prefix_append_right_inj]
        intro below
        have same := (List.cons_prefix_cons.mp below).1
        omega
      refine ⟨.inr ⟨?_, notBelow⟩, notBelow⟩
      have le' : path ++ [value] ≤ path ++ value' :: rest :=
        concat_le_iff.mpr (.inl ⟨value', rest, rfl, by omega⟩)
      apply lt_of_le_of_ne le'
      intro same
      exact notBelow (same ▸ List.prefix_rfl)
    · have notBelow' : ¬ path ++ [value] <+: name := fun below =>
        notBelow ((List.prefix_append _ _).trans below)
      refine ⟨.inr ⟨?_, notBelow'⟩, notBelow'⟩
      have le : path ++ [value] ≤ name := concat_le_iff.mpr (.inr ⟨behind, notBelow⟩)
      apply lt_of_le_of_ne le
      intro same
      exact notBelow' (same ▸ List.prefix_rfl)
  · rintro ⟨⟨value', rest, rfl, -⟩ | ⟨behind, -⟩, notBelow⟩
    · exact absurd (List.prefix_append _ _) notBelow
    · rcases concat_le_iff.mp behind.le with ⟨value', rest, rfl, le⟩ | above
      · refine .inl ⟨value', rest, rfl, ?_⟩
        apply Nat.lt_of_le_of_ne le
        rintro rfl
        apply notBelow
        rw [List.prefix_append_right_inj]
        exact List.cons_prefix_cons.mpr ⟨rfl, List.nil_prefix⟩
      · exact .inr above

def LeastFrom (rows : List Oid) (lower : Oid) : Option Oid → Prop
  | none => ∀ row ∈ rows, ¬ lower ≤ row
  | some least => (least ∈ rows ∧ lower ≤ least) ∧ ∀ row ∈ rows, lower ≤ row → least ≤ row

theorem leastFrom_congr {rows : List Oid} {lower lower' : Oid} {result : Option Oid}
    (same : ∀ row ∈ rows, (lower ≤ row ↔ lower' ≤ row)) (least : LeastFrom rows lower result) :
    LeastFrom rows lower' result := by
  cases result with
  | none =>
      intro row mem behind
      exact least row mem ((same row mem).mpr behind)
  | some first =>
      rcases least with ⟨⟨mem, behind⟩, first_le⟩
      refine ⟨⟨mem, (same first mem).mp behind⟩, ?_⟩
      intro row mem' behind'
      exact first_le row mem' ((same row mem').mpr behind')

theorem same_of_leastFrom {rows : List Oid} {lower lower' : Oid} {result : Option Oid}
    (least : LeastFrom rows lower result) (least' : LeastFrom rows lower' result) :
    ∀ row ∈ rows, (lower ≤ row ↔ lower' ≤ row) := by
  intro row mem
  cases result with
  | none => exact iff_of_false (least row mem) (least' row mem)
  | some first =>
      constructor
      · intro behind
        exact least'.1.2.trans (least.2 row mem behind)
      · intro behind
        exact least.1.2.trans (least'.2 row mem behind)

theorem leastFrom_unique {rows : List Oid} {lower : Oid} {result result' : Option Oid}
    (least : LeastFrom rows lower result) (least' : LeastFrom rows lower result') :
    result = result' := by
  cases result with
  | none =>
      cases result' with
      | none => rfl
      | some first => exact absurd least'.1.2 (least first least'.1.1)
  | some first =>
      cases result' with
      | none => exact absurd least.1.2 (least' first least.1.1)
      | some first' =>
          have le := least.2 first' least'.1.1 least'.1.2
          have le' := least'.2 first least.1.1 least.1.2
          rw [le_antisymm le le']

theorem isNext_iff_leastFrom {rows : List Oid} {bound : Oid} {result : Option Oid} :
    IsNext id rows bound result ↔ LeastFrom rows (bound ++ [0]) result := by
  cases result <;> simp only [IsNext, LeastFrom, concat_zero_le_iff, id]

variable {α : Type} {root : OidStash α} {ops : List (StashOp α)}

def lowest : Option Nat → Nat
  | none => 0
  | some bound => bound + 1

theorem isBigger_iff {bigger : Option Nat} {value : Nat} :
    IsBigger bigger value ↔ lowest bigger ≤ value := by
  cases bigger with
  | none => simp [IsBigger, lowest]
  | some bound => simp [IsBigger, lowest]

theorem nextChild_spec {bigger : Option Nat} {values : List Nat}
    (ordered : values.Pairwise fun value later =>
      value % oidStashChildrenSize ≤ later % oidStashChildrenSize)
    (tmpp : Option Nat) (accepted : ∀ best ∈ tmpp, IsBigger bigger best) :
    match nextChild bigger values tmpp with
    | none => tmpp = none ∧ ∀ value ∈ values, ¬ IsBigger bigger value
    | some best => IsBigger bigger best ∧ (best ∈ values ∨ best ∈ tmpp) ∧
        (∀ value ∈ values, IsBigger bigger value → best ≤ value) ∧ ∀ old ∈ tmpp, best ≤ old := by
  induction values generalizing tmpp with
  | nil =>
      cases tmpp with
      | none => simp [nextChild]
      | some best => simpa [nextChild] using accepted
  | cons value values ih =>
      rcases List.pairwise_cons.mp ordered with ⟨first, ordered⟩
      rw [nextChild]
      by_cases better : IsBigger bigger value ∧ ∀ best ∈ tmpp, value < best
      · rw [if_pos better]
        by_cases low : value ≤ oidStashChildrenSize - 1
        · rw [if_pos low]
          refine ⟨better.1, .inl List.mem_cons_self, ?_, fun old mem => (better.2 old mem).le⟩
          intro later mem _
          rcases List.mem_cons.mp mem with rfl | behind
          · exact le_rfl
          · have entry_le := first later behind
            have mod_le := Nat.mod_le later oidStashChildrenSize
            rw [Nat.mod_eq_of_lt (by unfold oidStashChildrenSize at *; omega)] at entry_le
            exact entry_le.trans mod_le
        · rw [if_neg low]
          have rest := ih ordered (some value) (by simpa using better.1)
          generalize nextChild bigger values (some value) = result at rest
          cases result with
          | none => exact absurd rest.1 (by simp)
          | some best =>
              rcases rest with ⟨big, found, least, le⟩
              have le_value : best ≤ value := le value rfl
              refine ⟨big, ?_, ?_, ?_⟩
              · rcases found with behind | here
                · exact .inl (List.mem_cons_of_mem _ behind)
                · exact .inl (by simp [Option.mem_some_iff.mp here])
              · intro later mem accepted
                rcases List.mem_cons.mp mem with rfl | behind
                · exact le_value
                · exact least later behind accepted
              · intro old mem
                exact le_value.trans (better.2 old mem).le
      · rw [if_neg better]
        have rest := ih ordered tmpp accepted
        generalize nextChild bigger values tmpp = result at rest
        cases result with
        | none =>
            rcases rest with ⟨rfl, none⟩
            refine ⟨rfl, ?_⟩
            intro later mem big
            rcases List.mem_cons.mp mem with rfl | behind
            · exact better ⟨big, by simp⟩
            · exact none later behind big
        | some best =>
            rcases rest with ⟨big, found, least, le⟩
            refine ⟨big, found.imp_left (List.mem_cons_of_mem _), ?_, le⟩
            intro later mem accepted'
            rcases List.mem_cons.mp mem with rfl | behind
            · simp only [accepted', true_and, not_forall, not_lt] at better
              rcases better with ⟨old, mem, old_le⟩
              exact (le old mem).trans old_le
            · exact least later behind accepted'

theorem IsTree.mem_childValues (tree : root.IsTree) {path : Oid} {value : Nat} :
    value ∈ root.childValues path ↔ root.HasNode (path ++ [value]) := by
  rw [childValues, List.mem_flatMap]
  constructor
  · rintro ⟨entry, -, mem⟩
    exact ((tree.siblings_iff path value entry).mp mem).2
  · intro isNode
    refine ⟨value % oidStashChildrenSize, ?_, (tree.siblings_iff path value _).mpr ⟨rfl, isNode⟩⟩
    exact List.mem_range.mpr (Nat.mod_lt _ (by decide))

theorem IsTree.ordered_childValues (tree : root.IsTree) (path : Oid) :
    (root.childValues path).Pairwise fun value later =>
      value % oidStashChildrenSize ≤ later % oidStashChildrenSize := by
  rw [childValues, List.pairwise_flatMap]
  constructor
  · intro entry _
    rw [List.pairwise_iff_forall_sublist]
    intro value later sublist
    have first := ((tree.siblings_iff path value entry).mp (sublist.subset (by simp))).1
    have second := ((tree.siblings_iff path later entry).mp (sublist.subset (by simp))).1
    rw [← first, ← second]
  · apply List.pairwise_lt_range.imp
    intro entry entry' lt value mem later mem'
    rw [← ((tree.siblings_iff path value entry).mp mem).1,
      ← ((tree.siblings_iff path later entry').mp mem').1]
    exact lt.le

theorem nextChild_eq_none (tree : root.IsTree) {path : Oid} {bigger : Option Nat}
    (none : nextChild bigger (root.childValues path) Option.none = Option.none) :
    ∀ value, root.HasNode (path ++ [value]) → ¬ lowest bigger ≤ value := by
  have found := @nextChild_spec bigger _ (tree.ordered_childValues path) Option.none (by simp)
  rw [none] at found
  intro value isNode
  rw [← isBigger_iff]
  exact found.2 value (tree.mem_childValues.mpr isNode)

theorem nextChild_eq_some (tree : root.IsTree) {path : Oid} {bigger : Option Nat} {value : Nat}
    (some : nextChild bigger (root.childValues path) none = Option.some value) :
    root.HasNode (path ++ [value]) ∧ lowest bigger ≤ value ∧
      ∀ other, root.HasNode (path ++ [other]) → lowest bigger ≤ other → value ≤ other := by
  have found := @nextChild_spec bigger _ (tree.ordered_childValues path) none (by simp)
  rw [some] at found
  rcases found with ⟨big, mem, least, -⟩
  refine ⟨tree.mem_childValues.mp (by simpa using mem), isBigger_iff.mp big, ?_⟩
  intro other isNode accepted
  exact least other (tree.mem_childValues.mpr isNode) (isBigger_iff.mpr accepted)

theorem concat_le_iff_of_child (tree : root.IsTree) {path : Oid} {least value : Nat}
    (le : least ≤ value)
    (first : ∀ other, root.HasNode (path ++ [other]) → least ≤ other → value ≤ other) :
    ∀ name, root.HasNode name → (path ++ [least] ≤ name ↔ path ++ [value] ≤ name) := by
  intro name isNode
  rw [concat_le_iff, concat_le_iff]
  constructor
  · rintro (⟨other, rest, rfl, accepted⟩ | above)
    · have isChild : root.HasNode (path ++ [other]) := by
        have split : path ++ other :: rest = path ++ [other] ++ rest := by simp
        rw [split] at isNode
        exact tree.of_append isNode
      exact .inl ⟨other, rest, rfl, first other isChild accepted⟩
    · exact .inr above
  · rintro (⟨other, rest, rfl, accepted⟩ | above)
    · exact .inl ⟨other, rest, rfl, le.trans accepted⟩
    · exact .inr above

theorem concat_le_iff_of_none (tree : root.IsTree) {path : Oid} {least : Nat}
    (none : ∀ other, root.HasNode (path ++ [other]) → ¬ least ≤ other) :
    ∀ name, root.HasNode name →
      (path ++ [least] ≤ name ↔ path < name ∧ ¬ path <+: name) := by
  intro name isNode
  rw [concat_le_iff]
  constructor
  · rintro (⟨other, rest, rfl, accepted⟩ | above)
    · have split : path ++ other :: rest = path ++ [other] ++ rest := by simp
      rw [split] at isNode
      exact absurd accepted (none other (tree.of_append isNode))
    · exact above
  · exact .inr

def nodesFrom (nodes : Finset Oid) (lower : Oid) : Finset Oid := nodes.filter (lower ≤ ·)

theorem mem_nodesFrom {nodes : Finset Oid} {lower path : Oid} :
    path ∈ nodesFrom nodes lower ↔ path ∈ nodes ∧ lower ≤ path := Finset.mem_filter

section Loop

variable (tree : root.IsTree) {rows : List Oid}
  (rows_iff : ∀ name, name ∈ rows ↔ (root.thedata name).isSome)
  {nodes : Finset Oid} (nodes_iff : ∀ path, path ∈ nodes ↔ root.HasNode path)
  (subids : ∀ path ∈ nodes, ∀ subid ∈ path, subid < 2 ^ 32)

include rows_iff

theorem hasNode_of_mem_rows {name : Oid} (mem : name ∈ rows) : root.HasNode name := by
  by_contra none
  have data := (rows_iff name).mp mem
  rw [thedata_of_not_hasNode none] at data
  exact absurd data (by simp)

include tree

include nodes_iff subids

theorem getnextLoop_spec {fuel : Nat} {curnode : Oid} {bigger : Option Nat}
    (isNode : root.HasNode curnode)
    (enough : 2 * (nodesFrom nodes (curnode ++ [lowest bigger])).card + curnode.length < fuel) :
    ∃ result, root.getnextLoop fuel curnode bigger = some result ∧
      LeastFrom rows (curnode ++ [lowest bigger]) result := by
  induction fuel generalizing curnode bigger with
  | zero => exact absurd enough (Nat.not_lt_zero _)
  | succ fuel ih =>
      rw [getnextLoop]
      cases found : nextChild bigger (root.childValues curnode) none with
      | some value =>
          rcases nextChild_eq_some tree found with ⟨isChild, le, first⟩
          have same := concat_le_iff_of_child tree le first
          by_cases data : (root.thedata (curnode ++ [value])).isSome
          · refine ⟨some (curnode ++ [value]), if_pos data, ⟨?_, ?_⟩, ?_⟩
            · exact (rows_iff _).mpr data
            · exact (same _ isChild).mpr le_rfl
            · intro row mem behind
              exact (same row (hasNode_of_mem_rows rows_iff mem)).mp behind
          · -- the child itself is passed
            have smaller : (nodesFrom nodes (curnode ++ [value] ++ [lowest none])).card <
                (nodesFrom nodes (curnode ++ [lowest bigger])).card := by
              apply Finset.card_lt_card
              rw [Finset.ssubset_iff_of_subset]
              · refine ⟨curnode ++ [value], ?_, ?_⟩
                · rw [mem_nodesFrom, nodes_iff]
                  exact ⟨isChild, (same _ isChild).mpr le_rfl⟩
                · rw [mem_nodesFrom]
                  rintro ⟨-, behind⟩
                  exact absurd (concat_zero_le_iff.mp behind) (lt_irrefl _)
              · intro name mem
                rw [mem_nodesFrom] at mem ⊢
                refine ⟨mem.1, (same name ((nodes_iff name).mp mem.1)).mpr ?_⟩
                exact (concat_zero_le_iff.mp mem.2).le
            rcases @ih (curnode ++ [value]) none isChild (by
              rw [List.length_append, List.length_singleton]
              omega) with ⟨result, returned, least⟩
            refine ⟨result, ?_, leastFrom_congr ?_ least⟩
            · rw [← returned]
              exact if_neg data
            · intro row mem
              rw [same row (hasNode_of_mem_rows rows_iff mem)]
              change curnode ++ [value] ++ [0] ≤ row ↔ _
              rw [concat_zero_le_iff, lt_iff_le_and_ne]
              constructor
              · exact And.left
              · intro behind
                refine ⟨behind, ?_⟩
                rintro rfl
                exact data ((rows_iff _).mp mem)
      | none =>
          have behind := concat_le_iff_of_none tree (nextChild_eq_none tree found)
          rcases List.eq_nil_or_concat' curnode with rfl | ⟨path, value, rfl⟩
          · refine ⟨none, rfl, ?_⟩
            intro row mem from_
            have above := (behind row (hasNode_of_mem_rows rows_iff mem)).mp from_
            exact above.2 List.nil_prefix
          · have small : value < 2 ^ 32 :=
              subids _ ((nodes_iff _).mpr isNode) value (by simp)
            have same (name : Oid) (isNode : root.HasNode name) :
                path ++ [value] ++ [lowest bigger] ≤ name ↔ path ++ [value + 1] ≤ name := by
              rw [behind name isNode, concat_succ_le_iff]
            have kept : nodesFrom nodes (path ++ [lowest (some value)]) =
                nodesFrom nodes (path ++ [value] ++ [lowest bigger]) := by
              apply Finset.filter_congr
              intro name mem
              exact (same name ((nodes_iff name).mp mem)).symm
            rcases @ih path (some value) (tree.parent isNode) (by
              rw [List.length_append, List.length_singleton] at enough
              rw [kept]
              omega) with ⟨result, returned, least⟩
            refine ⟨result, ?_, leastFrom_congr ?_ least⟩
            · rw [List.getLast?_concat, List.dropLast_concat]
              simpa only [Nat.mod_eq_of_lt small] using returned
            · intro row mem
              exact (same row (hasNode_of_mem_rows rows_iff mem)).symm

end Loop

theorem closest_spec (tree : root.IsTree) {curnode : Oid} (isNode : root.HasNode curnode)
    (lookup : List Nat) :
    ∃ front rest, lookup = front ++ rest ∧ root.closest curnode lookup = (curnode ++ front, rest) ∧
      root.HasNode (curnode ++ front) ∧
      ∀ first ∈ rest.head?, ¬ root.HasNode (curnode ++ front ++ [first]) := by
  induction lookup generalizing curnode with
  | nil => exact ⟨[], [], rfl, by simp [closest], by simpa using isNode, by simp⟩
  | cons value lookup ih =>
      rw [closest]
      by_cases known : root.HasChild curnode value
      · rcases ih (tree.hasChild_iff.mp known) with ⟨front, rest, rfl, stops, isNode', missing⟩
        rw [if_pos known]
        refine ⟨value :: front, rest, rfl, ?_, ?_, ?_⟩
        · simpa using stops
        · simpa using isNode'
        · simpa using missing
      · rw [if_neg known]
        refine ⟨[], value :: lookup, rfl, by simp, by simpa using isNode, ?_⟩
        rintro first first_eq
        obtain rfl : value = first := by simpa using first_eq
        rw [List.append_nil]
        exact fun isChild => known (tree.hasChild_iff.mpr isChild)

theorem append_lt_iff {path name : Oid} (rest : List Nat) (notBelow : ¬ path <+: name) :
    path ++ rest < name ↔ path < name := by
  induction path generalizing name with
  | nil => exact absurd List.nil_prefix notBelow
  | cons first path ih =>
      cases name with
      | nil => simp
      | cons value name =>
          rw [List.cons_append, List.cons_lt_cons_iff, List.cons_lt_cons_iff]
          by_cases same : first = value
          · subst same
            have shorter : ¬ path <+: name := fun below =>
              notBelow (List.cons_prefix_cons.mpr ⟨rfl, below⟩)
            rw [ih shorter]
          · simp [same]

/-- Where a name leaves the tree, its next sub-identifier has the same children behind it as the one
that does. -/
def TurnsRight (ops : List (StashOp α)) (name : Oid) : Prop :=
  ∀ path first rest, name = path ++ first :: rest → IsPath ops path →
    ¬ IsPath ops (path ++ [first]) → ∀ value more, (added ops (path ++ value :: more)).isSome →
      (first < value ↔ ∀ next ∈ rest.head?, next < value)

theorem IsPath.of_append {path rest : Oid} (isPath : IsPath ops (path ++ rest)) :
    IsPath ops path := by
  rcases isPath with ⟨op, mem, some, below⟩
  exact ⟨op, mem, some, (List.prefix_append _ _).trans below⟩

theorem turnsRight_of_isPath {name : Oid} (isPath : IsPath ops name) : TurnsRight ops name := by
  rintro path first rest rfl - missing
  rw [← List.singleton_append, ← List.append_assoc] at isPath
  exact absurd isPath.of_append missing

theorem turnsRight_nil : TurnsRight ops [] := by
  intro path first rest absurdity
  exact absurd absurdity (by simp)

theorem isPath_of_added {name : Oid} (data : (added ops name).isSome) : IsPath ops name := by
  have holds := holds_addAll ops
  rw [← holds.thedata_eq] at data
  rw [← holds.hasNode_iff]
  by_contra none
  rw [thedata_of_not_hasNode none] at data
  exact absurd data (by simp)

theorem behind_iff_turnsRight {path : Oid} {first : Nat} {rest : List Nat}
    (subids : ∀ subid ∈ rest, subid < 2 ^ 32) (isPath : IsPath ops path)
    (missing : ¬ IsPath ops (path ++ [first])) :
    (∀ row, (added ops row).isSome → (path ++ [lowest (firstBigger (first :: rest))] ≤ row ↔
      path ++ first :: rest ++ [0] ≤ row)) ↔ TurnsRight ops (path ++ first :: rest) := by
  have bigger_iff (value : Nat) : lowest (firstBigger (first :: rest)) ≤ value ↔
      ∀ next ∈ rest.head?, next < value := by
    rw [← isBigger_iff]
    cases rest with
    | nil => simp [firstBigger, IsBigger]
    | cons next rest =>
        have small := subids next List.mem_cons_self
        simp only [firstBigger, IsBigger, Option.mem_some_iff, List.head?_cons, forall_eq',
          Nat.mod_eq_of_lt small]
  have behind_iff (row : Oid) (data : (added ops row).isSome) :
      path ++ first :: rest ++ [0] ≤ row ↔ path ++ [first + 1] ≤ row := by
    have notBelow : ¬ path ++ [first] <+: row := by
      rintro ⟨more, rfl⟩
      exact missing (isPath_of_added data).of_append
    have split : path ++ first :: rest = path ++ [first] ++ rest := by simp
    rw [concat_zero_le_iff, concat_succ_le_iff, split, append_lt_iff rest notBelow]
    exact (and_iff_left notBelow).symm
  constructor
  · rintro same path' first' rest' name_eq isPath' missing' value more data
    obtain ⟨rfl, tail_eq⟩ : path' = path ∧ first' :: rest' = first :: rest := by
      -- the name leaves the tree only once
      rcases List.append_eq_append_iff.mp name_eq with ⟨gap, rfl, tail_eq⟩ | ⟨gap, rfl, tail_eq⟩
      · cases gap with
        | nil => exact ⟨(List.append_nil _), by simpa using tail_eq.symm⟩
        | cons value gap =>
            obtain ⟨rfl, -⟩ := List.cons.inj tail_eq
            rw [← List.singleton_append, ← List.append_assoc] at isPath'
            exact absurd isPath'.of_append missing
      · cases gap with
        | nil => exact ⟨(List.append_nil _).symm, by simpa using tail_eq⟩
        | cons value gap =>
            obtain ⟨rfl, -⟩ := List.cons.inj tail_eq
            rw [← List.singleton_append, ← List.append_assoc] at isPath
            exact absurd isPath.of_append missing'
    obtain ⟨rfl, rfl⟩ := List.cons.inj tail_eq
    have place := same _ data
    rw [behind_iff _ data, concat_le_iff, concat_le_iff] at place
    have above : ¬ (path' < path' ++ value :: more ∧ ¬ path' <+: path' ++ value :: more) :=
      fun both => both.2 (List.prefix_append _ _)
    simp only [or_iff_left above, List.append_cancel_left_eq, List.cons.injEq] at place
    rw [← bigger_iff]
    constructor
    · intro lt
      rcases place.mpr ⟨value, more, ⟨rfl, rfl⟩, lt⟩ with ⟨_, _, ⟨rfl, -⟩, le⟩
      exact le
    · intro le
      rcases place.mp ⟨value, more, ⟨rfl, rfl⟩, le⟩ with ⟨_, _, ⟨rfl, -⟩, lt⟩
      exact lt
  · intro right row data
    rw [behind_iff row data, concat_le_iff, concat_le_iff]
    apply or_congr_left
    constructor
    · rintro ⟨value, more, rfl, le⟩
      have turns := right path first rest rfl isPath missing value more data
      exact ⟨value, more, rfl, turns.mpr ((bigger_iff value).mp le)⟩
    · rintro ⟨value, more, rfl, lt⟩
      have turns := right path first rest rfl isPath missing value more data
      exact ⟨value, more, rfl, (bigger_iff value).mpr (turns.mp lt)⟩

def sortedRows (ops : List (StashOp α)) : List Oid :=
  (((ops.map Prod.fst).toFinset.filter fun name => (added ops name).isSome).sort)

theorem mem_sortedRows {name : Oid} : name ∈ sortedRows ops ↔ (added ops name).isSome := by
  rw [sortedRows, Finset.mem_sort, Finset.mem_filter, List.mem_toFinset, and_iff_right_iff_imp]
  intro data
  unfold added at data
  by_cases isRoot : name = []
  · simp [isRoot] at data
  · rw [if_neg isRoot, List.findSome?_isSome_iff] at data
    rcases data with ⟨op, mem, some⟩
    apply List.mem_map.mpr
    refine ⟨op, mem, ?_⟩
    by_contra other
    simp [other] at some

def paths (ops : List (StashOp α)) : Finset Oid :=
  (ops.flatMap fun op => if op.1 = [] then [] else op.1.inits).toFinset

theorem mem_paths {path : Oid} : path ∈ paths ops ↔ IsPath ops path := by
  rw [paths, List.mem_toFinset, List.mem_flatMap]
  constructor
  · rintro ⟨op, mem, isPath⟩
    by_cases isRoot : op.1 = []
    · simp [isRoot] at isPath
    · rw [if_neg isRoot] at isPath
      exact ⟨op, mem, isRoot, (List.mem_inits _ _).mp isPath⟩
  · rintro ⟨op, mem, isRoot, below⟩
    refine ⟨op, mem, ?_⟩
    rw [if_neg isRoot]
    exact (List.mem_inits _ _).mpr below

def enoughPasses (ops : List (StashOp α)) : Nat :=
  2 * (paths ops).card + (paths ops).sup List.length + 1

/-- The nodes that calls of `netsnmp_oid_stash_getnext_node` return, where the second loop may pass
`bound` times and the stored names are `rows`. -/
structure StepsThrough (ops : List (StashOp α)) (rows : List Oid) (bound : Nat) : Prop where
  increasing : rows.Pairwise (· < ·)
  mem_iff : ∀ name, name ∈ rows ↔ (added ops name).isSome
  next_iff : ∀ name, (∀ subid ∈ name, subid < 2 ^ 32) → ∃ result,
    (∀ fuel, bound ≤ fuel → (addAll empty ops).getnextNode fuel name = some result) ∧
      (IsNext id rows name result ↔ TurnsRight ops name)
  walk_eq : ∀ fuel steps, bound ≤ fuel → rows.length < steps →
    walk (fun name => ((addAll empty ops).getnextNode fuel name).join.map fun next => (next, next))
      steps [] = rows.map fun row => (row, row)

theorem getnextNode_spec (subids : ∀ op ∈ ops, ∀ subid ∈ op.1, subid < 2 ^ 32) {name : Oid}
    (small : ∀ subid ∈ name, subid < 2 ^ 32) :
    ∃ result, (∀ fuel, enoughPasses ops ≤ fuel →
        (addAll empty ops).getnextNode fuel name = some result) ∧
      (IsNext id (sortedRows ops) name result ↔ TurnsRight ops name) := by
  have holds := holds_addAll ops
  simp only [getnextNode]
  by_cases hasRoot : (addAll empty ops).HasNode []
  · rcases closest_spec holds.tree hasRoot name with ⟨path, rest, rfl, stops, isNode, missing⟩
    rw [List.nil_append] at stops isNode missing
    simp only [if_pos hasRoot, stops]
    have rows_iff (row : Oid) :
        row ∈ sortedRows ops ↔ ((addAll empty ops).thedata row).isSome := by
      rw [mem_sortedRows, holds.thedata_eq]
    have nodes_iff (path : Oid) : path ∈ paths ops ↔ (addAll empty ops).HasNode path := by
      rw [mem_paths, holds.hasNode_iff]
    have smallNodes : ∀ path ∈ paths ops, ∀ subid ∈ path, subid < 2 ^ 32 := by
      intro path mem subid mem'
      rcases mem_paths.mp mem with ⟨op, opMem, -, below⟩
      exact subids op opMem subid (below.subset mem')
    have passes : 2 * (nodesFrom (paths ops) (path ++ [lowest (firstBigger rest)])).card +
        path.length < enoughPasses ops := by
      have fewer := Finset.card_filter_le (paths ops) (path ++ [lowest (firstBigger rest)] ≤ ·)
      have short := @Finset.le_sup _ _ _ _ (paths ops) List.length _ ((nodes_iff path).mpr isNode)
      rw [nodesFrom, enoughPasses]
      omega
    rcases getnextLoop_spec holds.tree rows_iff nodes_iff smallNodes isNode passes with
      ⟨result, -, least⟩
    refine ⟨result, ?_, ?_⟩
    · intro fuel enough
      rcases getnextLoop_spec holds.tree rows_iff nodes_iff smallNodes isNode
        (lt_of_lt_of_le passes enough) with ⟨result', returned, least'⟩
      rw [returned, leastFrom_unique least least']
    · rw [isNext_iff_leastFrom]
      have isPath := (holds.hasNode_iff path).mp isNode
      cases rest with
      | nil =>
          rw [List.append_nil]
          exact iff_of_true least (turnsRight_of_isPath isPath)
      | cons first rest =>
          have outside : ¬ IsPath ops (path ++ [first]) := by
            rw [← holds.hasNode_iff]
            exact missing first rfl
          have smallRest : ∀ subid ∈ rest, subid < 2 ^ 32 := by
            intro subid mem
            exact small subid (by simp [mem])
          rw [← behind_iff_turnsRight smallRest isPath outside]
          simp only [← mem_sortedRows]
          constructor
          · exact same_of_leastFrom least
          · intro same
            exact leastFrom_congr same least
  · have none (path : Oid) : ¬ IsPath ops path := by
      rw [← holds.hasNode_iff]
      exact fun isNode => hasRoot (holds.tree.of_append isNode)
    refine ⟨Option.none, fun _ _ => if_neg hasRoot, iff_of_true ?_ ?_⟩
    · intro row mem
      exact absurd (isPath_of_added (mem_sortedRows.mp mem)) (none row)
    · intro path first rest _ isPath
      exact absurd isPath (none path)

/-- The next node is the one with the least name behind that of the call exactly for the names that
turn right where they leave the tree; stored names do, and so from the empty name on all of them are
enumerated in order. -/
theorem getnextNode_isNext_iff (ops : List (StashOp α))
    (subids : ∀ op ∈ ops, ∀ subid ∈ op.1, subid < 2 ^ 32) :
    ∃ rows bound, StepsThrough ops rows bound := by
  have increasing : (sortedRows ops).Pairwise (· < ·) := (Finset.sortedLT_sort _).pairwise
  have smallRow {row : Oid} (mem : row ∈ sortedRows ops) : ∀ subid ∈ row, subid < 2 ^ 32 := by
    rcases isPath_of_added (mem_sortedRows.mp mem) with ⟨op, opMem, -, below⟩
    exact fun subid mem' => subids op opMem subid (below.subset mem')
  refine ⟨sortedRows ops, enoughPasses ops, increasing, fun name => mem_sortedRows, ?_, ?_⟩
  · intro name small
    exact getnextNode_spec subids small
  · intro fuel steps enough long
    have isNext {name : Oid} (small : ∀ subid ∈ name, subid < 2 ^ 32)
        (turns : TurnsRight ops name) :
        IsNext id (sortedRows ops) name ((addAll empty ops).getnextNode fuel name).join := by
      rcases getnextNode_spec subids small with ⟨result, returned, right⟩
      rw [returned fuel enough]
      exact right.mpr turns
    apply @walk_eq_map Oid Oid _ id _ steps [] (sortedRows ops) [] increasing
    · intro from' isFrom
      simp only [Option.map_map, Function.comp_def, Option.map_id', List.nil_append]
      rcases isFrom with rfl | isRow
      · exact isNext (by simp) turnsRight_nil
      · rw [List.map_id] at isRow
        have isPath := isPath_of_added (mem_sortedRows.mp isRow)
        exact isNext (smallRow isRow) (turnsRight_of_isPath isPath)
    · intro from' row name found _
      rcases Option.map_eq_some_iff.mp found with ⟨next, -, both⟩
      rw [← (Prod.mk.inj both).1, ← (Prod.mk.inj both).2]
      rfl
    · simp
    · intro row mem
      cases row with
      | nil => exact absurd (mem_sortedRows.mp mem) (by simp [added])
      | cons subid row => exact List.nil_lt_cons _ _
    · exact long

theorem getnextNode_isNext_iff_two :
    (∀ op ∈ [([1, 5], some 1), ([1, 7], some 2)], ∀ subid ∈ op.1, subid < 2 ^ 32) ∧
      ∃ rows bound, StepsThrough [([1, 5], some 1), ([1, 7], some 2)] rows bound :=
  ⟨by decide, getnextNode_isNext_iff [([1, 5], some 1), ([1, 7], some 2)] (by decide)⟩

/-- With 1.5 alone the next node of 1.7 is the one of 1.5: the first loop stops in front of 7, and
what follows 7 is missing. -/
theorem not_getnextNode_isNext :
    ¬ ∀ (ops : List (StashOp Unit)) (name : Oid), (∀ op ∈ ops, ∀ subid ∈ op.1, subid < 2 ^ 32) →
      (∀ subid ∈ name, subid < 2 ^ 32) →
        ∃ result, Settles (fun fuel => (addAll empty ops).getnextNode fuel name) result ∧
          ∀ rows, (∀ row, row ∈ rows ↔ (added ops row).isSome) → IsNext id rows name result := by
  intro all
  rcases all [([1, 5], some ())] [1, 7] (by decide) (by decide) with
    ⟨result, ⟨bound, settled⟩, next⟩
  have returned : (addAll (empty : OidStash Unit) [([1, 5], some ())]).getnextNode (bound + 1)
      [1, 7] = some (some [1, 5]) := rfl
  obtain rfl : some [1, 5] = result :=
    Option.some.inj (returned.symm.trans (settled (bound + 1) (Nat.le_succ bound)))
  have wrong := next (sortedRows [([1, 5], some ())]) (fun row => mem_sortedRows)
  exact absurd wrong.1.2 (by decide)

end OidStash

end NetSnmp
