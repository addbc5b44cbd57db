import NetSnmp.CString
import NetSnmp.OidCompare

/-!
# The view list of the access control model

`netsnmp_view_get`, `netsnmp_view_subtree_check` and the routines that keep the
list of `vacm_viewEntry` structures in order.
-/

namespace NetSnmp

def vacmMaxString : Nat := 32

/-- A string in a row of one of the tables: at most `VACM_MAX_STRING` characters. -/
structure VacmString where
  str : CString
  short : str.strlen ≤ vacmMaxString
  deriving DecidableEq, Repr

namespace VacmString

def stored (name : VacmString) : List Byte := UInt8.ofNat name.str.strlen :: name.str.chars

theorem str_inj {name name' : VacmString} : name.str = name'.str ↔ name = name' := by
  cases name
  cases name'
  simp

end VacmString

/-- The copy of an argument in the form in which strings are stored, if it is not too long. -/
def vacmString (str : CString) : Option VacmString :=
  if short : str.strlen ≤ vacmMaxString then some ⟨str, short⟩ else none

abbrev snmpViewIncluded : Int := 1
abbrev snmpViewExcluded : Int := 2

/-- `vacm_viewEntry`.  The length in front of `viewSubtree` and the lengths of `viewName` and
`viewMask` are those of the lists. -/
structure VacmViewEntry where
  viewName : VacmString
  viewSubtree : Oid
  viewMask : List Byte := []
  viewType : Int := 0
  viewStorageType : Int := 0
  viewStatus : Int := 0
  deriving DecidableEq, Repr

/-- The `mode` of `netsnmp_view_get`. -/
inductive VacmMode where
  /-- `VACM_MODE_FIND` -/
  | find
  /-- `VACM_MODE_IGNORE_MASK` -/
  | ignoreMask
  /-- `VACM_MODE_CHECK_SUBTREE` -/
  | checkSubtree
  deriving DecidableEq, Repr

/-- The answers of `netsnmp_view_subtree_check`. -/
inductive VacmAnswer where
  /-- `VACM_SUCCESS` -/
  | success
  /-- `VACM_NOTINVIEW` -/
  | notInView
  /-- `VACM_SUBTREE_UNKNOWN` -/
  | subtreeUnknown
  deriving DecidableEq, Repr

def viewMask (vp : VacmViewEntry) (maskpos : Nat) (mask : Byte) : Byte :=
  if vp.viewMask.length ≤ maskpos then mask else vp.viewMask.getD maskpos 0 &&& mask

/-- The loops over the subidentifiers of a view entry and of an argument, up to the end of the
shorter one. -/
def checkMask (vp : VacmViewEntry) (ignoreMask : Bool) : (mask : Byte) → (maskpos : Nat) →
    (viewSubtree entrySubtree : Oid) → Bool
  | mask, maskpos, subid :: viewSubtree, subid' :: entrySubtree =>
      if (ignoreMask ∨ viewMask vp maskpos mask ≠ 0) ∧ subid ≠ subid' then false
      else if mask = 1 then checkMask vp ignoreMask 0x80 (maskpos + 1) viewSubtree entrySubtree
      else checkMask vp ignoreMask (mask >>> 1) maskpos viewSubtree entrySubtree
  | _, _, _, _ => true

/-- An entry replaces the best one so far when it is longer, or as long and lexicographically
greater. -/
def keepLonger (best : Option VacmViewEntry) (vp : VacmViewEntry) : Option VacmViewEntry :=
  match best with
  | none => some vp
  | some vpret =>
      if vpret.viewSubtree.length < vp.viewSubtree.length ∨
          (vp.viewSubtree.length = vpret.viewSubtree.length ∧
            0 < snmpOidCompare vp.viewSubtree vpret.viewSubtree) then some vp
      else some vpret

def nameMatches (view : VacmString) (vp : VacmViewEntry) : Bool :=
  memcmp view.stored vp.viewName.stored (view.str.strlen + 1) = 0

/-- The entry is for this name and for a subtree that `viewSubtree` is in. -/
def viewMatches (view : VacmString) (viewSubtree : Oid) (mode : VacmMode) (vp : VacmViewEntry) :
    Bool :=
  nameMatches view vp && decide (vp.viewSubtree.length ≤ viewSubtree.length) &&
    checkMask vp (mode = .ignoreMask) 0x80 0 viewSubtree vp.viewSubtree

/-- The loop of `netsnmp_view_get`: `vpret` and `count`. -/
def viewGetLoop (view : VacmString) (viewSubtree : Oid) (mode : VacmMode) :
    List VacmViewEntry → (vpret : Option VacmViewEntry) → (count : Nat) →
    Option VacmViewEntry × Nat
  | [], vpret, count => (vpret, count)
  | vp :: rest, vpret, count =>
      if viewMatches view viewSubtree mode vp then
        viewGetLoop view viewSubtree mode rest
          (if mode = .checkSubtree then some vp else keepLonger vpret vp) (count + 1)
      else viewGetLoop view viewSubtree mode rest vpret count

def netsnmpViewGet (head : List VacmViewEntry) (viewName : CString) (viewSubtree : Oid)
    (mode : VacmMode) : Option VacmViewEntry :=
  match vacmString viewName with
  | none => none
  | some view =>
      let (vpret, count) := viewGetLoop view viewSubtree mode head none 0
      if mode = .checkSubtree ∧ 1 < count then none else vpret

/-- The loop of `netsnmp_view_subtree_check`, which gives up as soon as two longer entries do
not agree. -/
def subtreeCheckLoop (view : VacmString) (viewSubtree : Oid) : List VacmViewEntry →
    (vpShorter vpLonger : Option VacmViewEntry) →
    Option (Option VacmViewEntry × Option VacmViewEntry)
  | [], vpShorter, vpLonger => some (vpShorter, vpLonger)
  | vp :: rest, vpShorter, vpLonger =>
      if nameMatches view vp then
        if vp.viewSubtree.length ≤ viewSubtree.length then
          if checkMask vp false 0x80 0 viewSubtree vp.viewSubtree then
            subtreeCheckLoop view viewSubtree rest (keepLonger vpShorter vp) vpLonger
          else subtreeCheckLoop view viewSubtree rest vpShorter vpLonger
        else if checkMask vp false 0x80 0 viewSubtree vp.viewSubtree then
          if ∃ longer ∈ vpLonger, longer.viewType ≠ vp.viewType then none
          else subtreeCheckLoop view viewSubtree rest vpShorter (some (vpLonger.getD vp))
        else subtreeCheckLoop view viewSubtree rest vpShorter vpLonger
      else subtreeCheckLoop view viewSubtree rest vpShorter vpLonger

/-- The entry is there and not of type `SNMP_VIEW_EXCLUDED`. -/
def isIncluded (vp : Option VacmViewEntry) : Bool :=
  match vp with
  | none => false
  | some vp => vp.viewType ≠ snmpViewExcluded

def longerContradicts (vpShorter vpLonger : Option VacmViewEntry) : Bool :=
  match vpLonger, vpShorter with
  | none, _ => false
  | some longer, none => longer.viewType ≠ snmpViewExcluded
  | some longer, some shorter => longer.viewType ≠ shorter.viewType

def netsnmpViewSubtreeCheck (head : List VacmViewEntry) (viewName : CString)
    (viewSubtree : Oid) : VacmAnswer :=
  match vacmString viewName with
  | none => .notInView
  | some view =>
      match subtreeCheckLoop view viewSubtree head none none with
      | none => .subtreeUnknown
      | some (vpShorter, vpLonger) =>
          if longerContradicts vpShorter vpLonger then .subtreeUnknown
          else if isIncluded vpShorter then .success
          else .notInView

def storedSubtree (viewSubtree : Oid) : Oid := viewSubtree.length :: viewSubtree

/-- The search of `netsnmp_view_create` for the place of a new entry. -/
def insertView (vp : VacmViewEntry) : List VacmViewEntry → List VacmViewEntry
  | [] => [vp]
  | lp :: rest =>
      let cmp := memcmp lp.viewName.stored vp.viewName.stored (vp.viewName.str.strlen + 1)
      let cmp2 := snmpOidCompare (storedSubtree lp.viewSubtree) (storedSubtree vp.viewSubtree)
      if (cmp = 0 ∧ 0 < cmp2) ∨ 0 < cmp then vp :: lp :: rest
      else lp :: insertView vp rest

/-- `netsnmp_view_create`: the list with the new entry, and the entry. -/
def netsnmpViewCreate (head : List VacmViewEntry) (viewName : CString) (viewSubtree : Oid) :
    Option (List VacmViewEntry × VacmViewEntry) :=
  match vacmString viewName with
  | none => none
  | some view =>
      if maxOidLen < viewSubtree.length then none
      else
        let vp : VacmViewEntry := { viewName := view, viewSubtree }
        some (insertView vp head, vp)

end NetSnmp
