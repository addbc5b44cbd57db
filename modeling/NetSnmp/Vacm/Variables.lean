import NetSnmp.Machine
import NetSnmp.Vacm.Tables

/-!
# The variables of the access control tables

`var_vacm_sec2group`, `var_vacm_access` and `var_vacm_view`: how a requested name
is taken apart, which row is found for it, and the name that is returned with it.
-/

namespace NetSnmp

/-- The test at the start of the routines: a name of another column becomes the name of this one. -/
def columnName (vpName name : Oid) : Oid := if vpName <+: name then name else vpName

/-- The loop that fills `secname`, of which `count` characters are there already. -/
def copySecname (count : Nat) : Oid → Option (List Byte)
  | [] => some []
  | subid :: rest =>
      if 255 < subid then none
      else if vacmMaxString < count then none
      else (copySecname (count + 1) rest).map (UInt8.ofNat subid :: ·)

/-- A string of the index for an exact request: its length and as many characters.  Behind the end
of the name there are zeros; a string that runs into them ends behind the end, where the name is
refused. -/
def takeString : Oid → Option (List Byte × Oid)
  | [] => none
  | len :: op =>
      if vacmMaxString < len then none
      else if op.length < len then none
      else if (op.take len).any (255 < ·) then none
      else some ((op.take len).map UInt8.ofNat, op.drop len)

def clampSubid (subid : Nat) : Byte := if 255 < subid then 255 else UInt8.ofNat subid

/-- A string of the index for a request for the next row, as far as it is there: its length and the
characters, as the bytes that are copied. -/
def readString : Oid → Option (List Byte × Oid)
  | [] => some ([], [])
  | len :: op =>
      if vacmMaxString < len then none
      else some (((len :: op).take (len + 1)).map clampSubid, (len :: op).drop (len + 1))

def readSubid : Oid → Nat × Oid
  | [] => (0, [])
  | subid :: op => (subid, op)

/-- A `char`, which is a signed type, as a subidentifier. -/
def subidOfChar (char : Byte) : Nat := toSizeT (signedOfBits 8 char.toNat)

/-- The loop that appends the characters of a string up to the first zero. -/
def whileChars (cp : List Byte) : Oid := (cp.takeWhile (· ≠ 0)).map subidOfChar

/-- The loop that appends one character, and then the others up to the first zero. -/
def doWhileChars : List Byte → Oid
  | [] => []
  | char :: cp => subidOfChar char :: whileChars cp

def sec2groupExact (groupList : List VacmGroupEntry) : (index : Oid) → Option VacmGroupEntry
  | secmodel :: len :: groupSubtree =>
      if len ≠ groupSubtree.length then none
      else
        match copySecname 0 groupSubtree with
        | none => none
        | some secname => vacmGetGroupEntry groupList (toCInt secmodel) (.ofBuffer secname)
  | _ => none

def sec2groupBehind (secmodel : Nat) (secname : CString) (gp : VacmGroupEntry) : Bool :=
  decide (secmodel < toSizeT gp.securityModel) ||
    (toSizeT gp.securityModel = secmodel &&
      decide (0 < strcmp (.ofBuffer gp.securityName.stored) secname))

def sec2groupNext (groupList : List VacmGroupEntry) (index : Oid) : Option VacmGroupEntry :=
  let (secmodel, groupSubtree) := readSubid index
  match copySecname 0 groupSubtree with
  | none => none
  | some secname => groupList.find? (sec2groupBehind secmodel (.ofBuffer secname))

def sec2groupName (gp : VacmGroupEntry) : Oid :=
  toSizeT gp.securityModel :: whileChars gp.securityName.stored

/-- `var_vacm_sec2group`: the row, and the name that is returned for it. -/
def varVacmSec2group (groupList : List VacmGroupEntry) (vpName name : Oid) (exact : Bool) :
    Option (VacmGroupEntry × Oid) :=
  let name := columnName vpName name
  let index := name.drop vpName.length
  if exact then (sec2groupExact groupList index).map (·, name)
  else (sec2groupNext groupList index).map fun gp => (gp, vpName ++ sec2groupName gp)

def accessExact (accessList : List VacmAccessEntry) (index : Oid) : Option VacmAccessEntry := do
  let (groupName, op) ← takeString index
  let (contextPrefix, op) ← takeString op
  match op with
  | [secmodel, seclevel] =>
      let gp ← vacmGetAccessEntry accessList (.ofBuffer groupName) (.ofBuffer contextPrefix)
        (toCInt secmodel) (toCInt seclevel)
      if toSizeT gp.securityLevel ≠ seclevel then none else some gp
  | _ => none

def accessBehindIndex (groupName contextPrefix : CString) (secmodel seclevel : Nat)
    (gp : VacmAccessEntry) : Bool :=
  let cmp := strcmp (.ofBuffer gp.groupName.stored) groupName
  let cmp' := strcmp (.ofBuffer gp.contextPrefix.stored) contextPrefix
  if 0 < cmp then true
  else if cmp < 0 then false
  else if 0 < cmp' then true
  else if cmp' < 0 then false
  else if secmodel < toSizeT gp.securityModel then true
  else if toSizeT gp.securityModel < secmodel then false
  else seclevel < toSizeT gp.securityLevel

def accessNext (accessList : List VacmAccessEntry) (index : Oid) : Option VacmAccessEntry := do
  let (groupName, op) ← readString index
  let (contextPrefix, op) ← readString op
  let (secmodel, op) := readSubid op
  let (seclevel, _) := readSubid op
  accessList.find?
    (accessBehindIndex (.ofBuffer groupName) (.ofBuffer contextPrefix) secmodel seclevel)

def accessName (gp : VacmAccessEntry) : Oid :=
  doWhileChars gp.groupName.stored ++ doWhileChars gp.contextPrefix.stored ++
    [toSizeT gp.securityModel, toSizeT gp.securityLevel]

/-- `var_vacm_access`: the row, and the name that is returned for it. -/
def varVacmAccess (accessList : List VacmAccessEntry) (vpName name : Oid) (exact : Bool) :
    Option (VacmAccessEntry × Oid) :=
  let name := columnName vpName name
  let index := name.drop vpName.length
  if exact then (accessExact accessList index).map (·, name)
  else (accessNext accessList index).map fun gp => (gp, vpName ++ accessName gp)

def vacmViewRead : Fin 8 := 0
def vacmViewWrite : Fin 8 := 1
def vacmViewNotify : Fin 8 := 2

def viewExact (viewList : List VacmViewEntry) (index : Oid) : Option VacmViewEntry :=
  if index.length < 3 then none
  else do
    let (viewName, op) ← takeString index
    match op with
    | [] => none
    | len :: op =>
        if maxOidLen < len then none
        else if op.length ≠ len then none
        else
          let gp ← netsnmpViewGet viewList (.ofBuffer viewName) op .ignoreMask
          if (storedSubtree gp.viewSubtree).length ≠ len + 1 then none else some gp

/-- The length and the subtree of a request, as far as they are there; one subidentifier more than
the length says is read. -/
def readSubtree : Oid → Oid
  | [] => []
  | len :: op => len :: op.take (len + 1)

def viewBehindIndex (viewName : CString) (subtree : Oid) (gp : VacmViewEntry) : Bool :=
  let cmp := strcmp (.ofBuffer gp.viewName.stored) viewName
  let cmp2 := snmpOidCompare (storedSubtree gp.viewSubtree) subtree
  (cmp = 0 && decide (0 < cmp2)) || decide (0 < cmp)

def viewNext (viewList : List VacmViewEntry) (index : Oid) : Option VacmViewEntry := do
  let (viewName, op) ← readString index
  viewList.find? (viewBehindIndex (.ofBuffer viewName) (readSubtree op))

def viewEntryName (gp : VacmViewEntry) : Oid :=
  doWhileChars gp.viewName.stored ++ storedSubtree gp.viewSubtree

/-- `var_vacm_view`, for a column of the table: the row, and the name that is returned for it. -/
def varVacmView (viewList : List VacmViewEntry) (vpName name : Oid) (exact : Bool) :
    Option (VacmViewEntry × Oid) :=
  let name := columnName vpName name
  let index := name.drop vpName.length
  if exact then (viewExact viewList index).map (·, name)
  else (viewNext viewList index).map fun gp => (gp, vpName ++ viewEntryName gp)

end NetSnmp
