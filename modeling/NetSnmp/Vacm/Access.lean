import NetSnmp.SortedInsert
import NetSnmp.Vacm.View

/-!
# The access list of the access control model

`vacm_getAccessEntry` with `_vacm_choose_best`, and the routines that keep the
list of `vacm_accessEntry` structures in order.
-/

namespace NetSnmp

abbrev snmpSecModelAny : Int := 0
abbrev contextMatchExact : Int := 1
abbrev contextMatchPrefix : Int := 2

abbrev vacmStringLen : Nat := 34

/-- An array of `VACMSTRINGLEN` characters that is used without a length in front. -/
abbrev VacmBuffer := Vector Byte vacmStringLen

structure VacmAccessEntry where
  groupName : VacmString
  contextPrefix : VacmString
  securityModel : Int
  securityLevel : Int
  contextMatch : Int := 0
  views : Vector VacmBuffer 8 := Vector.replicate 8 (Vector.replicate vacmStringLen 0)
  storageType : Int := 0
  status : Int := 0
  deriving DecidableEq, Repr

/-- The test under which `_vacm_choose_best` gives up the current row for a candidate. -/
def replacesCurrent (current candidate : VacmAccessEntry) : Bool :=
  (current.securityModel = snmpSecModelAny && candidate.securityModel ≠ snmpSecModelAny) ||
    (current.contextMatch = contextMatchPrefix && candidate.contextMatch = contextMatchExact) ||
    (current.contextMatch = contextMatchPrefix &&
      decide (current.contextPrefix.str.strlen < candidate.contextPrefix.str.strlen)) ||
    decide (current.securityLevel < candidate.securityLevel)

def vacmChooseBest (current : Option VacmAccessEntry) (candidate : VacmAccessEntry) :
    Option VacmAccessEntry :=
  match current with
  | none => some candidate
  | some current => if replacesCurrent current candidate then some candidate else some current

/-- The condition on a row in the loop of `vacm_getAccessEntry`. -/
def accessMatches (group context : VacmString) (securityModel securityLevel : Int)
    (vp : VacmAccessEntry) : Bool :=
  let clen := context.str.strlen
  let plen := vp.contextPrefix.str.strlen
  (securityModel = vp.securityModel || vp.securityModel = snmpSecModelAny) &&
    decide (vp.securityLevel ≤ securityLevel) &&
    memcmp vp.groupName.stored group.stored (group.str.strlen + 1) = 0 &&
    ((vp.contextMatch = contextMatchExact && clen = plen &&
        memcmp vp.contextPrefix.stored context.stored (clen + 1) = 0) ||
      (vp.contextMatch = contextMatchPrefix && decide (plen ≤ clen) &&
        memcmp vp.contextPrefix.str.chars context.str.chars plen = 0))

/-- The loop of `vacm_getAccessEntry`. -/
def getAccessLoop (group context : VacmString) (securityModel securityLevel : Int) :
    List VacmAccessEntry → (best : Option VacmAccessEntry) → Option VacmAccessEntry
  | [], best => best
  | vp :: rest, best =>
      if accessMatches group context securityModel securityLevel vp then
        getAccessLoop group context securityModel securityLevel rest (vacmChooseBest best vp)
      else getAccessLoop group context securityModel securityLevel rest best

def vacmGetAccessEntry (accessList : List VacmAccessEntry) (groupName contextPrefix : CString)
    (securityModel securityLevel : Int) : Option VacmAccessEntry :=
  match vacmString groupName, vacmString contextPrefix with
  | some group, some context =>
      getAccessLoop group context securityModel securityLevel accessList none
  | _, _ => none

/-- The walk of `vacm_createAccessEntry` stops in front of this row. -/
def accessBehind (vp lp : VacmAccessEntry) : Bool :=
  let cmp := memcmp lp.groupName.stored vp.groupName.stored (vp.groupName.str.strlen + 1)
  let cmp' := memcmp lp.contextPrefix.stored vp.contextPrefix.stored
    (vp.contextPrefix.str.strlen + 1)
  if 0 < cmp then true
  else if cmp < 0 then false
  else if 0 < cmp' then true
  else if cmp' < 0 then false
  else if vp.securityModel < lp.securityModel then true
  else if lp.securityModel < vp.securityModel then false
  else vp.securityLevel < lp.securityLevel

/-- `vacm_createAccessEntry`: the list with the new row, and the row. -/
def vacmCreateAccessEntry (accessList : List VacmAccessEntry) (groupName contextPrefix : CString)
    (securityModel securityLevel : Int) : Option (List VacmAccessEntry × VacmAccessEntry) :=
  match vacmString groupName, vacmString contextPrefix with
  | some group, some context =>
      let vp : VacmAccessEntry :=
        { groupName := group, contextPrefix := context, securityModel, securityLevel }
      some (insertBefore (accessBehind vp) vp accessList, vp)
  | _, _ => none

/-- `vacm_destroyAccessEntry`: the first row with this index is taken out. -/
def vacmDestroyAccessEntry (accessList : List VacmAccessEntry) (groupName contextPrefix : CString)
    (securityModel securityLevel : Int) : List VacmAccessEntry :=
  accessList.eraseP fun vp =>
    vp.securityModel = securityModel && vp.securityLevel = securityLevel &&
      strcmp vp.groupName.str groupName = 0 && strcmp vp.contextPrefix.str contextPrefix = 0

end NetSnmp
