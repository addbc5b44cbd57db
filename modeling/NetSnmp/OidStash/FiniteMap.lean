import Mathlib.Data.List.Induction
import NetSnmp.OidStash.Stash

/-!
# The stash as a map

The data that calls have stored, and how the nodes of the tree keep it.
-/

namespace NetSnmp

namespace OidStash

variable {α : Type}

/-- A call of `netsnmp_oid_stash_add_data`. -/
abbrev StashOp (α : Type) := Oid × Option α

def addAll (root : OidStash α) (ops : List (StashOp α)) : OidStash α :=
  ops.foldl (fun root op => (root.addData op.1 op.2).2) root

/-- The data of an OID: that of the first call for it that had some. -/
def added (ops : List (StashOp α)) (name : Oid) : Option α :=
  if name = [] then none
  else ops.findSome? fun op => if op.1 = name then op.2 else none

def IsPath (ops : List (StashOp α)) (path : Oid) : Prop := ∃ op ∈ ops, op.1 ≠ [] ∧ path <+: op.1

/-- The children of a node are just those that its chains list, and a node has a parent. -/
structure IsTree (root : OidStash α) : Prop where
  siblings_iff : ∀ path value entry, value ∈ root.siblings path entry ↔
    entry = value % oidStashChildrenSize ∧ root.HasNode (path ++ [value])
  parent : ∀ {path value}, root.HasNode (path ++ [value]) → root.HasNode path

structure Extends (root root' : OidStash α) (isNew : Oid → Prop) : Prop where
  tree : root'.IsTree
  hasNode_iff : ∀ path, root'.HasNode path ↔ root.HasNode path ∨ isNew path
  thedata_eq : ∀ path, root'.thedata path = root.thedata path

variable {root : OidStash α} {ops : List (StashOp α)} {path curnode : Oid} {value : Nat}

theorem IsTree.hasChild_iff (tree : root.IsTree) :
    root.HasChild curnode value ↔ root.HasNode (curnode ++ [value]) := by
  rw [HasChild, tree.siblings_iff curnode value]
  exact ⟨fun both => both.2, fun isNode => ⟨rfl, isNode⟩⟩

theorem IsTree.of_append (tree : root.IsTree) {rest : List Nat}
    (isNode : root.HasNode (path ++ rest)) : root.HasNode path := by
  induction rest using List.reverseRecOn with
  | nil => rwa [List.append_nil] at isNode
  | append_singleton rest value ih =>
      rw [← List.append_assoc] at isNode
      exact ih (tree.parent isNode)

theorem siblings_of_not_hasNode (none : ¬ root.HasNode path) (entry : Nat) :
    root.siblings path entry = [] := by
  have node_eq : root.node path = Option.none := by simpa [HasNode] using none
  rw [siblings, node_eq]

theorem thedata_of_not_hasNode (none : ¬ root.HasNode path) : root.thedata path = Option.none := by
  have node_eq : root.node path = Option.none := by simpa [HasNode] using none
  rw [thedata, node_eq]
  rfl

theorem extends_refl (tree : root.IsTree) {isNew : Oid → Prop}
    (old : ∀ path, isNew path → root.HasNode path) : Extends root root isNew :=
  ⟨tree, fun path => ⟨.inl, fun either => either.elim id (old path)⟩, fun _ => rfl⟩

theorem extends_createRoot (tree : root.IsTree) : Extends root root.createRoot (· = []) := by
  by_cases isNode : root.HasNode []
  · rw [createRoot, if_pos isNode]
    apply extends_refl tree
    rintro path rfl
    exact isNode
  · have none (path : Oid) : ¬ root.HasNode path := fun some => isNode (tree.of_append some)
    have hasNode_iff (path : Oid) :
        root.createRoot.HasNode path ↔ root.HasNode path ∨ path = [] := by
      rw [createRoot, if_neg isNode]
      by_cases isRoot : path = []
      · simp [HasNode, isRoot]
      · simp [HasNode, isRoot]
    refine ⟨⟨?_, ?_⟩, hasNode_iff, ?_⟩
    · intro path value entry
      have empty : root.createRoot.siblings path entry = [] := by
        have siblings_eq := siblings_of_not_hasNode (none path) entry
        rw [createRoot, if_neg isNode]
        by_cases isRoot : path = []
        · simp [siblings, isRoot]
        · simpa [siblings, isRoot] using siblings_eq
      rw [empty, hasNode_iff]
      simp [none]
    · intro path value some
      rcases (hasNode_iff _).mp some with old | new
      · exact absurd old (none _)
      · exact absurd new (by simp)
    · intro path
      have thedata_eq := thedata_of_not_hasNode (none path)
      rw [createRoot, if_neg isNode]
      by_cases isRoot : path = []
      · subst isRoot
        rw [thedata_eq]
        simp [thedata]
      · simp [thedata, isRoot]

theorem siblings_createChild (isNode : root.HasNode curnode)
    (fresh : ¬ root.HasNode (curnode ++ [value])) (path : Oid) (entry : Nat) :
    (root.createChild curnode value).siblings path entry =
      if path = curnode ∧ entry = value % oidStashChildrenSize then
        value :: root.siblings path entry
      else root.siblings path entry := by
  rcases Option.isSome_iff_exists.mp isNode with ⟨node, node_eq⟩
  by_cases isChild : path = curnode ++ [value]
  · subst isChild
    rw [siblings_of_not_hasNode fresh, if_neg (by simp)]
    simp [siblings, createChild]
  · by_cases isParent : path = curnode
    · subst isParent
      by_cases here : entry = value % oidStashChildrenSize
      · subst here
        simp [siblings, createChild, node_eq]
      · simp [siblings, createChild, node_eq, here]
    · simp [siblings, createChild, isChild, isParent]

theorem extends_createChild (tree : root.IsTree) (isNode : root.HasNode curnode)
    (fresh : ¬ root.HasNode (curnode ++ [value])) :
    Extends root (root.createChild curnode value) (· = curnode ++ [value]) := by
  rcases Option.isSome_iff_exists.mp isNode with ⟨node, node_eq⟩
  have hasNode_iff (path : Oid) : (root.createChild curnode value).HasNode path ↔
      root.HasNode path ∨ path = curnode ++ [value] := by
    by_cases isChild : path = curnode ++ [value]
    · simp [HasNode, createChild, isChild]
    · by_cases isParent : path = curnode
      · subst isParent
        simp [HasNode, createChild, node_eq]
      · simp [HasNode, createChild, isChild, isParent]
  refine ⟨⟨?_, ?_⟩, hasNode_iff, ?_⟩
  · intro path other entry
    have same := tree.siblings_iff path other entry
    rw [siblings_createChild isNode fresh, hasNode_iff]
    by_cases here : path = curnode ∧ entry = value % oidStashChildrenSize
    · rcases here with ⟨rfl, rfl⟩
      rw [if_pos ⟨rfl, rfl⟩, List.mem_cons, same]
      constructor
      · rintro (rfl | ⟨entry_eq, old⟩)
        · exact ⟨rfl, .inr rfl⟩
        · exact ⟨entry_eq, .inl old⟩
      · rintro ⟨entry_eq, old | new⟩
        · exact .inr ⟨entry_eq, old⟩
        · exact .inl (by simpa using new)
    · rw [if_neg here, same]
      constructor
      · rintro ⟨entry_eq, old⟩
        exact ⟨entry_eq, .inl old⟩
      · rintro ⟨entry_eq, old | new⟩
        · exact ⟨entry_eq, old⟩
        · rcases List.append_inj' new rfl with ⟨rfl, value_eq⟩
          obtain rfl : other = value := by simpa using value_eq
          exact absurd ⟨rfl, entry_eq⟩ here
  · intro path other some
    apply (hasNode_iff path).mpr
    rcases (hasNode_iff _).mp some with old | new
    · exact .inl (tree.parent old)
    · rcases List.append_inj' new rfl with ⟨rfl, -⟩
      exact .inl isNode
  · intro path
    by_cases isChild : path = curnode ++ [value]
    · subst isChild
      rw [thedata_of_not_hasNode fresh]
      simp [thedata, createChild]
    · by_cases isParent : path = curnode
      · subst isParent
        simp [thedata, createChild, node_eq]
      · simp [thedata, createChild, isChild, isParent]

theorem Extends.trans {root' root'' : OidStash α} {isNew isNew' isNew'' : Oid → Prop}
    (first : Extends root root' isNew) (second : Extends root' root'' isNew')
    (new_iff : ∀ path, root.HasNode path ∨ isNew'' path ↔
      root.HasNode path ∨ isNew path ∨ isNew' path) :
    Extends root root'' isNew'' := by
  refine ⟨second.tree, ?_, ?_⟩
  · intro path
    rw [second.hasNode_iff, first.hasNode_iff, new_iff, or_assoc]
  · intro path
    rw [second.thedata_eq, first.thedata_eq]

theorem extends_addLoop (tree : root.IsTree) (isNode : root.HasNode curnode) (lookup : List Nat) :
    (root.addLoop curnode lookup).2 = curnode ++ lookup ∧
      Extends root (root.addLoop curnode lookup).1
        (fun path => ∃ front, front <+: lookup ∧ path = curnode ++ front) := by
  induction lookup generalizing root curnode with
  | nil =>
      refine ⟨(List.append_nil curnode).symm, extends_refl tree ?_⟩
      rintro path ⟨front, isPrefix, rfl⟩
      rw [List.prefix_nil.mp isPrefix, List.append_nil]
      exact isNode
  | cons value lookup ih =>
      have front_iff (path : Oid) :
          (∃ front, front <+: value :: lookup ∧ path = curnode ++ front) ↔
            path = curnode ∨ ∃ front, front <+: lookup ∧ path = curnode ++ [value] ++ front := by
        constructor
        · rintro ⟨front, isPrefix, rfl⟩
          cases front with
          | nil => exact .inl (List.append_nil curnode)
          | cons first front =>
              rcases List.cons_prefix_cons.mp isPrefix with ⟨rfl, shorter⟩
              exact .inr ⟨front, shorter, by simp⟩
        · rintro (rfl | ⟨front, isPrefix, rfl⟩)
          · exact ⟨[], List.nil_prefix, (List.append_nil path).symm⟩
          · exact ⟨value :: front, List.cons_prefix_cons.mpr ⟨rfl, isPrefix⟩, by simp⟩
      rw [addLoop]
      by_cases known : root.HasChild curnode value
      · have isChild := tree.hasChild_iff.mp known
        rw [if_pos known]
        rcases ih tree isChild with ⟨ends, grown⟩
        have unchanged : Extends root root (· = curnode) := by
          apply extends_refl tree
          rintro path rfl
          exact isNode
        refine ⟨by rw [ends]; simp, unchanged.trans grown ?_⟩
        intro path
        rw [front_iff]
      · have fresh : ¬ root.HasNode (curnode ++ [value]) := fun old =>
          known (tree.hasChild_iff.mpr old)
        have created := extends_createChild tree isNode fresh
        have isChild : (root.createChild curnode value).HasNode (curnode ++ [value]) :=
          (created.hasNode_iff _).mpr (.inr rfl)
        rw [if_neg known]
        rcases ih created.tree isChild with ⟨ends, grown⟩
        refine ⟨by rw [ends]; simp, created.trans grown ?_⟩
        intro path
        rw [front_iff]
        constructor
        · rintro (old | rfl | new)
          · exact .inl old
          · exact .inl isNode
          · exact .inr (.inr new)
        · rintro (old | rfl | new)
          · exact .inl old
          · exact .inr (.inr ⟨[], List.nil_prefix, (List.append_nil _).symm⟩)
          · exact .inr (.inr new)

theorem hasNode_setData (mydata : Option α) (other : Oid) :
    (root.setData path mydata).HasNode other ↔ root.HasNode other := by
  by_cases here : other = path
  · subst here
    simp [HasNode, setData]
  · simp [HasNode, setData, here]

theorem siblings_setData (mydata : Option α) (other : Oid) (entry : Nat) :
    (root.setData path mydata).siblings other entry = root.siblings other entry := by
  by_cases here : other = path
  · subst here
    cases node_eq : root.node other with
    | none => simp [siblings, setData, node_eq]
    | some node => simp [siblings, setData, node_eq]
  · simp [siblings, setData, here]

theorem thedata_setData (isNode : root.HasNode path) (mydata : Option α) (other : Oid) :
    (root.setData path mydata).thedata other =
      if other = path then mydata else root.thedata other := by
  rcases Option.isSome_iff_exists.mp isNode with ⟨node, node_eq⟩
  by_cases here : other = path
  · subst here
    simp [thedata, setData, node_eq]
  · simp [thedata, setData, here]

structure Holds (root : OidStash α) (ops : List (StashOp α)) : Prop where
  tree : root.IsTree
  hasNode_iff : ∀ path, root.HasNode path ↔ IsPath ops path
  thedata_eq : ∀ path, root.thedata path = added ops path

theorem holds_empty : Holds (empty : OidStash α) [] := by
  refine ⟨⟨?_, ?_⟩, ?_, ?_⟩
  · intro path value entry
    simp [siblings, HasNode, empty]
  · intro path value absurdity
    exact absurd absurdity (by simp [HasNode, empty])
  · intro path
    simp [HasNode, empty, IsPath]
  · intro path
    simp [thedata, empty, added]

theorem isPath_append_iff {op : StashOp α} :
    IsPath (ops ++ [op]) path ↔ IsPath ops path ∨ (op.1 ≠ [] ∧ path <+: op.1) := by
  unfold IsPath
  constructor
  · rintro ⟨op', mem, some⟩
    rcases List.mem_append.mp mem with old | new
    · exact .inl ⟨op', old, some⟩
    · rw [List.mem_singleton.mp new] at some
      exact .inr some
  · rintro (⟨op', mem, some⟩ | some)
    · exact ⟨op', List.mem_append_left _ mem, some⟩
    · exact ⟨op, by simp, some⟩

theorem added_append (op : StashOp α) (name : Oid) :
    added (ops ++ [op]) name =
      (added ops name).or (if name ≠ [] ∧ op.1 = name then op.2 else none) := by
  unfold added
  by_cases isRoot : name = []
  · simp [isRoot]
  · simp [isRoot, List.findSome?_append]

theorem Holds.addData (holds : Holds root ops) (lookup : Oid) (mydata : Option α) :
    (root.addData lookup mydata).1 =
        (if lookup = [] ∨ (added ops lookup).isSome then snmperrGenerr else snmperrSuccess) ∧
      Holds (root.addData lookup mydata).2 (ops ++ [(lookup, mydata)]) := by
  by_cases isRoot : lookup = []
  · subst isRoot
    have unchanged : root.addData [] mydata = (snmperrGenerr, root) := if_pos rfl
    rw [unchanged]
    refine ⟨(if_pos (.inl rfl)).symm, holds.tree, ?_, ?_⟩
    · intro path
      rw [isPath_append_iff, holds.hasNode_iff]
      simp
    · intro path
      rw [added_append, holds.thedata_eq]
      by_cases isRoot : path = []
      · simp [isRoot]
      · simp [isRoot, Ne.symm isRoot]
  · have rooted := extends_createRoot holds.tree
    have hasRoot : root.createRoot.HasNode [] := (rooted.hasNode_iff []).mpr (.inr rfl)
    rcases extends_addLoop rooted.tree hasRoot lookup with ⟨ends, grown⟩
    rw [List.nil_append] at ends
    unfold OidStash.addData
    rw [if_neg isRoot]
    generalize root.createRoot.addLoop [] lookup = made at ends grown
    rcases made with ⟨root', curnode⟩
    obtain rfl : curnode = lookup := ends
    have hasNode_iff (path : Oid) :
        root'.HasNode path ↔ IsPath (ops ++ [(curnode, mydata)]) path := by
      rw [isPath_append_iff, grown.hasNode_iff, rooted.hasNode_iff, holds.hasNode_iff]
      simp only [List.nil_append, exists_eq_right', ne_eq, isRoot, not_false_eq_true, true_and]
      constructor
      · rintro ((old | rfl) | new)
        · exact .inl old
        · exact .inr List.nil_prefix
        · exact .inr new
      · rintro (old | new)
        · exact .inl (.inl old)
        · exact .inr new
    have thedata_eq (path : Oid) : root'.thedata path = added ops path := by
      rw [grown.thedata_eq, rooted.thedata_eq, holds.thedata_eq]
    have isNode : root'.HasNode curnode := by
      apply (hasNode_iff curnode).mpr
      exact isPath_append_iff.mpr (.inr ⟨isRoot, List.prefix_rfl⟩)
    simp only [thedata_eq, isRoot, false_or]
    by_cases known : (added ops curnode).isSome
    · rw [if_pos known, if_pos known]
      refine ⟨rfl, grown.tree, hasNode_iff, ?_⟩
      intro path
      rw [thedata_eq, added_append]
      by_cases here : curnode = path
      · subst here
        rw [Option.or_of_isSome known]
      · simp [here]
    · rw [if_neg known, if_neg known]
      refine ⟨rfl, ⟨?_, ?_⟩, ?_, ?_⟩
      · intro path value entry
        rw [siblings_setData, hasNode_setData]
        exact grown.tree.siblings_iff path value entry
      · intro path value some
        rw [hasNode_setData] at some ⊢
        exact grown.tree.parent some
      · intro path
        rw [hasNode_setData]
        exact hasNode_iff path
      · intro path
        rw [thedata_setData isNode, thedata_eq, added_append]
        by_cases here : path = curnode
        · subst here
          rw [if_pos rfl, if_pos ⟨isRoot, rfl⟩, Option.not_isSome_iff_eq_none.mp known,
            Option.none_or]
        · simp [here, Ne.symm here]

theorem holds_addAll (ops : List (StashOp α)) : Holds (addAll empty ops) ops := by
  induction ops using List.reverseRecOn with
  | nil => exact holds_empty
  | append_singleton ops op ih =>
      have after := (ih.addData op.1 op.2).2
      unfold addAll at ih after ⊢
      rwa [List.foldl_append]

theorem getLoop_eq (tree : root.IsTree) (tmpp : Option Oid) (lookup : List Nat) :
    root.getLoop curnode tmpp lookup =
      if lookup = [] then tmpp
      else if root.HasNode (curnode ++ lookup) then some (curnode ++ lookup) else none := by
  induction lookup generalizing curnode tmpp with
  | nil => rfl
  | cons value lookup ih =>
      have path_eq : curnode ++ value :: lookup = curnode ++ [value] ++ lookup := by simp
      rw [getLoop, if_neg (List.cons_ne_nil _ _), path_eq]
      by_cases known : root.HasChild curnode value
      · rw [if_pos known, ih]
        by_cases last : lookup = []
        · subst last
          rw [if_pos rfl, List.append_nil, if_pos (tree.hasChild_iff.mp known)]
        · rw [if_neg last]
      · have none : ¬ root.HasNode (curnode ++ [value] ++ lookup) := fun some =>
          known (tree.hasChild_iff.mpr (tree.of_append some))
        rw [if_neg known, if_neg none]

theorem Holds.getData_eq (holds : Holds root ops) (name : Oid) :
    root.getData name = added ops name := by
  rw [← holds.thedata_eq, getData, getNode]
  by_cases hasRoot : root.HasNode []
  · rw [if_pos hasRoot, getLoop_eq holds.tree, List.nil_append]
    by_cases isRoot : name = []
    · subst isRoot
      rw [if_pos rfl, holds.thedata_eq]
      simp [added]
    · rw [if_neg isRoot]
      by_cases isNode : root.HasNode name
      · rw [if_pos isNode]
        rfl
      · rw [if_neg isNode, thedata_of_not_hasNode isNode]
        rfl
  · have none : ¬ root.HasNode name := fun some => hasRoot (holds.tree.of_append some)
    rw [if_neg hasRoot, thedata_of_not_hasNode none]
    rfl

/-- After any calls an OID is looked up with the data of the first call for it, and a call for an
OID that has data fails and changes no data. -/
theorem stash_isMap (ops : List (Oid × α)) :
    let root := addAll empty (ops.map fun op => (op.1, some op.2))
    let stored (name : Oid) : Option α :=
      if name = [] then none else (ops.find? fun op => op.1 = name).map Prod.snd
    (∀ name, root.getData name = stored name) ∧
      ∀ name mydata,
        (root.addData name (some mydata)).1 =
            (if name = [] ∨ (stored name).isSome then snmperrGenerr else snmperrSuccess) ∧
          ∀ other, (root.addData name (some mydata)).2.getData other =
            if other = name ∧ name ≠ [] ∧ stored name = none then some mydata else stored other := by
  intro root stored
  have holds : Holds root (ops.map fun op => (op.1, some op.2)) := holds_addAll _
  have stored_eq (name : Oid) : added (ops.map fun op => (op.1, some op.2)) name = stored name := by
    unfold added stored
    by_cases isRoot : name = []
    · simp [isRoot]
    · simp only [isRoot, if_false]
      clear holds stored root
      induction ops with
      | nil => rfl
      | cons op ops ih =>
          rw [List.map_cons, List.findSome?_cons, List.find?_cons]
          by_cases here : op.1 = name
          · simp [here]
          · simp [here, ih]
  refine ⟨fun name => (holds.getData_eq name).trans (stored_eq name), ?_⟩
  intro name mydata
  rcases holds.addData name (some mydata) with ⟨rc, after⟩
  refine ⟨by rw [rc, stored_eq], ?_⟩
  intro other
  rw [after.getData_eq, added_append, stored_eq]
  by_cases here : other = name
  · subst here
    by_cases isRoot : other = []
    · subst isRoot
      have none : stored [] = none := if_pos rfl
      simp [none]
    · cases known : stored other with
      | none => simp [isRoot]
      | some old => simp
  · simp [here, Ne.symm here]

end OidStash

end NetSnmp
