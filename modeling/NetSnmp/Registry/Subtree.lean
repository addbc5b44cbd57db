import NetSnmp.LinkedColumns
import NetSnmp.Machine
import NetSnmp.OidCompare

/-!
# The registry of subtrees

The subtrees that are registered in a context, as `agent_registry.c` links them: each
column is a part of the object tree, and its cells are the registrations for this
part, the one that answers first.  The routines here change and search this list.
-/

namespace NetSnmp

/-- `struct variable`, as far as the registry reads it -/
structure RegistryVariable where
  type : Byte
  name : Oid
  deriving DecidableEq, Repr

def asnPrivDelegated : Byte := 0xc5

/-- `netsnmp_handler_registration` -/
structure HandlerRegistration where
  handlerName : List Byte
  rootoid : Oid
  deriving DecidableEq, Repr

/-- `netsnmp_subtree`, less its links; its `oid_off` is the number of the cell. -/
structure Subtree where
  nameA : Oid
  startA : Oid
  endA : Oid
  vars : Option (List RegistryVariable)
  /-- A `u_char`. -/
  priority : Nat
  reginfo : HandlerRegistration
  deriving DecidableEq, Repr

abbrev SubtreeHeap := ColumnHeap Subtree

/-- `subtree_context_cache`: the list of a context, and the cells that it is made of -/
structure ContextSubtrees where
  firstSubtree : Option Addr
  heap : SubtreeHeap
  /-- Where the next cell is allocated; no cell was at this address or behind it. -/
  fresh : Addr

/-- The offset of `netsnmp_oid_compare_ll`: the place where the names differ, from one, and one more
than the length of the shorter name if they do not differ there. -/
def oidCompareOff : Oid → Oid → Nat
  | first :: name1, second :: name2 =>
      if first ≠ second then 1 else oidCompareOff name1 name2 + 1
  | _, _ => 1

def compareOff (prev subtree : Subtree) : Nat := oidCompareOff prev.startA subtree.startA

namespace ContextSubtrees

open ColumnHeap

/-- `netsnmp_subtree_change_next` -/
def subtreeChangeNext (thenext : Option Addr) (heap : SubtreeHeap) (ptr : Addr) :
    Option SubtreeHeap := do
  let cell ← heap ptr
  let heap := heap.put ptr { cell with next := thenext }
  match thenext with
  | none => some heap
  | some thenext =>
      let nextCell ← heap thenext
      some (heap.put thenext { nextCell with off := compareOff cell.content nextCell.content })

/-- `netsnmp_subtree_change_prev` -/
def subtreeChangePrev (theprev : Option Addr) (heap : SubtreeHeap) (ptr : Addr) :
    Option SubtreeHeap := do
  let cell ← heap ptr
  let heap := heap.put ptr { cell with prev := theprev }
  match theprev with
  | none => some heap
  | some theprev =>
      let cell ← heap ptr
      let prevCell ← heap theprev
      some (heap.put ptr { cell with off := compareOff prevCell.content cell.content })

/-- `netsnmp_remove_subtree` -/
def removeSubtree (subtrees : ContextSubtrees) (tree : Addr) : Option ContextSubtrees := do
  let cell ← subtrees.heap tree
  let subtrees ← match cell.prev with
    | none =>
        some (if subtrees.firstSubtree = some tree then { subtrees with firstSubtree := cell.next }
          else subtrees)
    | some prev => do
        let prevCell ← subtrees.heap prev
        some { subtrees with heap := subtrees.heap.put prev { prevCell with next := cell.next } }
  match cell.next with
  | none => some subtrees
  | some next => do
      let nextCell ← subtrees.heap next
      some { subtrees with heap := subtrees.heap.put next { nextCell with prev := cell.prev } }

/-- `netsnmp_subtree_free` -/
def subtreeFree (subtrees : ContextSubtrees) (a : Addr) : ContextSubtrees :=
  { subtrees with heap := subtrees.heap.free a }

def alloc (subtrees : ContextSubtrees) (cell : ColumnCell Subtree) : ContextSubtrees :=
  { subtrees with heap := subtrees.heap.put subtrees.fresh cell, fresh := subtrees.fresh + 1 }

/-- The loop of `netsnmp_subtree_find_prev`: the subtree before the one where it stops, and this
one. -/
def findPrevLoop (heap : SubtreeHeap) (name : Oid) :
    Nat → (previous myptr : Option Addr) → (llOff : Nat) → Option (Option Addr × Option Addr)
  | _, previous, none, _ => some (previous, none)
  | 0, _, some _, _ => none
  | fuel + 1, previous, some myptr, llOff => do
      let cell ← heap myptr
      if llOff ≠ 0 ∧ cell.off ≠ 0 ∧ llOff < cell.off then
        findPrevLoop heap name fuel (some myptr) cell.next llOff
      else if snmpOidCompare name cell.content.startA < 0 then
        some (previous, some myptr)
      else
        findPrevLoop heap name fuel (some myptr) cell.next
          (oidCompareOff name cell.content.startA)

/-- `netsnmp_subtree_find_prev` while the lookup cache is off -/
def subtreeFindPrev (subtrees : ContextSubtrees) (name : Oid) : Option (Option Addr) :=
  (findPrevLoop subtrees.heap name subtrees.fresh none subtrees.firstSubtree 0).map Prod.fst

/-- The walk of `netsnmp_subtree_find_next` to a subtree with variables. -/
def skipBare (heap : SubtreeHeap) : Nat → Option Addr → Option (Option Addr)
  | _, none => some none
  | 0, some _ => none
  | fuel + 1, some myptr => do
      let cell ← heap myptr
      if cell.content.vars.getD [] = [] then skipBare heap fuel cell.next
      else some (some myptr)

/-- `netsnmp_subtree_find_next` from the result of `netsnmp_subtree_find_prev` -/
def nextOfPrev (subtrees : ContextSubtrees) : Option Addr → Option (Option Addr)
  | none => some none
  | some myptr => do
      let cell ← subtrees.heap myptr
      skipBare subtrees.heap subtrees.fresh cell.next

/-- `netsnmp_subtree_find` from the result of `netsnmp_subtree_find_prev` -/
def coveringOfPrev (subtrees : ContextSubtrees) (name : Oid) : Option Addr → Option (Option Addr)
  | none => some none
  | some myptr => do
      let cell ← subtrees.heap myptr
      some (if snmpOidCompare name cell.content.endA < 0 then some myptr else none)

/-- `netsnmp_subtree_find_next` while the lookup cache is off -/
def subtreeFindNext (subtrees : ContextSubtrees) (name : Oid) : Option (Option Addr) :=
  (subtrees.subtreeFindPrev name).bind subtrees.nextOfPrev

/-- `netsnmp_subtree_find` while the lookup cache is off -/
def subtreeFind (subtrees : ContextSubtrees) (name : Oid) : Option (Option Addr) :=
  (subtrees.subtreeFindPrev name).bind (subtrees.coveringOfPrev name)

/-- The loop of `netsnmp_subtree_split` over the variables: how many stay with the first subtree,
and those of the second one. -/
def splitVariablesLoop (split : Oid) :
    List RegistryVariable → (kept : Nat) → (moved : List RegistryVariable) →
      Nat × List RegistryVariable
  | [], kept, moved => (kept, moved)
  | vp :: rest, kept, moved =>
      if 0 ≤ snmpOidCompare vp.name split then (kept, moved)
      else
        let commonLen := min vp.name.length split.length
        splitVariablesLoop split rest (kept + 1)
          (if snmpOidCompare (vp.name.take commonLen) (split.take commonLen) < 0 then moved.tail
          else moved)

/-- The variables of the two subtrees into which `netsnmp_subtree_split` splits one. -/
def splitVariables (subtree : Subtree) (name : Oid) :
    Option (List RegistryVariable) × Option (List RegistryVariable) :=
  match subtree.vars with
  | none => (none, none)
  | some vars =>
      let (kept, moved) := splitVariablesLoop (name.drop subtree.nameA.length) vars 0 vars
      match vars.take kept with
      | first :: rest =>
          if first.type = asnPrivDelegated then (some (first :: rest), some [first])
          else (some (first :: rest), some moved)
      | [] => (some [], some moved)

/-- `netsnmp_subtree_split` -/
def subtreeSplit : Nat → ContextSubtrees → Addr → Oid → Option (Option Addr × ContextSubtrees)
  | 0, _, _, _ => none
  | fuel + 1, subtrees, current, name => do
      let cell ← subtrees.heap current
      if 0 < snmpOidCompare name cell.content.endA then some (none, subtrees)
      else
        let (kept, moved) := splitVariables cell.content name
        let newSub := subtrees.fresh
        let subtrees := subtrees.alloc { cell with content := { cell.content with
          startA := name, vars := moved } }
        let subtrees := { subtrees with heap := subtrees.heap.put current { cell with
          content := { cell.content with endA := name, vars := kept } } }
        let subtrees ← match cell.children with
          | none => some subtrees
          | some children => do
              let (newChildren, subtrees) ← subtreeSplit fuel subtrees children name
              let newCell ← subtrees.heap newSub
              let heap := subtrees.heap.put newSub { newCell with children := newChildren }
              some { subtrees with heap }
        let heap ← eachCell (subtreeChangeNext (some newSub)) subtrees.fresh subtrees.heap
          (some current)
        let heap ← eachCell (subtreeChangePrev (some current)) subtrees.fresh heap (some newSub)
        let newCell ← heap newSub
        let heap ← eachCell (subtreeChangePrev (some newSub)) subtrees.fresh heap newCell.next
        some (some newSub, { subtrees with heap })

end ContextSubtrees

end NetSnmp
