import Mathlib.Data.List.Lex
import NetSnmp.Asn.Types

/-!
# The OID stash

A tree that stores data by OIDs.  Every node keeps its children in an array, by
their sub-identifiers modulo the size of the array; children that fall together
are linked as siblings.  A node is named by the sub-identifiers on the way to it,
so that its value is the last of them and its parent the OID without it.
-/

namespace NetSnmp

def oidStashChildrenSize : Nat := 31

def snmperrSuccess : Int := 0

def snmperrGenerr : Int := -1

structure StashNode (α : Type) where
  /-- The values of the children in each entry of the array, as the siblings are linked. -/
  children : Nat → List Nat := fun _ => []
  thedata : Option α := none

/-- A stash; there is no root as long as nothing was stored. -/
structure OidStash (α : Type) where
  node : Oid → Option (StashNode α)

namespace OidStash

variable {α : Type} (root : OidStash α)

def empty : OidStash α := ⟨fun _ => none⟩

def HasNode (path : Oid) : Prop := (root.node path).isSome

instance (path : Oid) : Decidable (root.HasNode path) :=
  inferInstanceAs (Decidable ((root.node path).isSome = true))

def siblings (path : Oid) (entry : Nat) : List Nat :=
  match root.node path with
  | some node => node.children entry
  | none => []

def thedata (path : Oid) : Option α := (root.node path).bind StashNode.thedata

def HasChild (curnode : Oid) (value : Nat) : Prop :=
  value ∈ root.siblings curnode (value % oidStashChildrenSize)

instance (curnode : Oid) (value : Nat) : Decidable (root.HasChild curnode value) :=
  inferInstanceAs (Decidable (value ∈ _))

def createRoot : OidStash α :=
  if root.HasNode [] then root else ⟨fun path => if path = [] then some {} else root.node path⟩

def createChild (curnode : Oid) (value : Nat) : OidStash α where
  node path :=
    if path = curnode ++ [value] then some {}
    else if path = curnode then
      (root.node curnode).map fun node =>
        { node with
          children := Function.update node.children (value % oidStashChildrenSize)
            (value :: node.children (value % oidStashChildrenSize)) }
    else root.node path

/-- The loop of `netsnmp_oid_stash_add_data`. -/
def addLoop (root : OidStash α) (curnode : Oid) : (lookup : List Nat) → OidStash α × Oid
  | [] => (root, curnode)
  | value :: lookup =>
      if root.HasChild curnode value then addLoop root (curnode ++ [value]) lookup
      else addLoop (root.createChild curnode value) (curnode ++ [value]) lookup

def setData (path : Oid) (mydata : Option α) : OidStash α where
  node other :=
    if other = path then (root.node path).map fun node => { node with thedata := mydata }
    else root.node other

/-- `netsnmp_oid_stash_add_data`, with no data for a null pointer. -/
def addData (lookup : Oid) (mydata : Option α) : Int × OidStash α :=
  if lookup = [] then (snmperrGenerr, root)
  else
    let (root, curnode) := addLoop root.createRoot [] lookup
    if (root.thedata curnode).isSome then (snmperrGenerr, root)
    else (snmperrSuccess, root.setData curnode mydata)

/-- The loop of `netsnmp_oid_stash_get_node`. -/
def getLoop (curnode : Oid) (tmpp : Option Oid) : (lookup : List Nat) → Option Oid
  | [] => tmpp
  | value :: lookup =>
      if root.HasChild curnode value then
        getLoop (curnode ++ [value]) (some (curnode ++ [value])) lookup
      else none

/-- `netsnmp_oid_stash_get_node` -/
def getNode (lookup : Oid) : Option Oid :=
  if root.HasNode [] then root.getLoop [] none lookup else none

/-- `netsnmp_oid_stash_get_data` -/
def getData (lookup : Oid) : Option α := (root.getNode lookup).bind root.thedata

/-- The first loop of `netsnmp_oid_stash_getnext_node`: the node at which it stops, and the
sub-identifiers from there on. -/
def closest (curnode : Oid) : (lookup : List Nat) → Oid × List Nat
  | [] => (curnode, [])
  | value :: lookup =>
      if root.HasChild curnode value then closest (curnode ++ [value]) lookup
      else (curnode, value :: lookup)

/-- `bigger_than` at first, if `do_bigger` is set: the sub-identifier behind the one at which the
loop stopped, as an `unsigned int`. -/
def firstBigger : List Nat → Option Nat
  | _ :: next :: _ => some (next % 2 ^ 32)
  | _ => none

/-- The value is greater than `bigger_than`, if it has to be. -/
def IsBigger (bigger : Option Nat) (value : Nat) : Prop := ∀ bound ∈ bigger, bound < value

instance (bigger : Option Nat) (value : Nat) : Decidable (IsBigger bigger value) :=
  inferInstanceAs (Decidable (∀ bound ∈ bigger, bound < value))

/-- The search for the next child, which stops at a value below the size of the array. -/
def nextChild (bigger : Option Nat) : (values : List Nat) → (tmpp : Option Nat) → Option Nat
  | [], tmpp => tmpp
  | value :: values, tmpp =>
      if IsBigger bigger value ∧ (∀ best ∈ tmpp, value < best) then
        if value ≤ oidStashChildrenSize - 1 then some value
        else nextChild bigger values (some value)
      else nextChild bigger values tmpp

def childValues (path : Oid) : List Nat :=
  (List.range oidStashChildrenSize).flatMap (root.siblings path)

/-- The second loop of `netsnmp_oid_stash_getnext_node`, which may pass `fuel` times. -/
def getnextLoop : (fuel : Nat) → (curnode : Oid) → (bigger : Option Nat) → Option (Option Oid)
  | 0, _, _ => none
  | fuel + 1, curnode, bigger =>
      match nextChild bigger (root.childValues curnode) none with
      | some value =>
          if (root.thedata (curnode ++ [value])).isSome then some (some (curnode ++ [value]))
          else getnextLoop fuel (curnode ++ [value]) none
      | none =>
          match curnode.getLast? with
          | none => some none
          | some value => getnextLoop fuel curnode.dropLast (some (value % 2 ^ 32))

/-- `netsnmp_oid_stash_getnext_node` -/
def getnextNode (fuel : Nat) (lookup : Oid) : Option (Option Oid) :=
  if root.HasNode [] then
    let (curnode, rest) := root.closest [] lookup
    root.getnextLoop fuel curnode (firstBigger rest)
  else some none

end OidStash

end NetSnmp
