import NetSnmp.Vacm.Variables

/-!
# The write methods of the access control tables

Each write method is called in every phase of a SET request.  It looks up the row
that the name of its variable is for, checks or changes this row, and keeps in
static variables what it needs in a later phase.  What it does is given here for
the row that it has found; the lists are changed accordingly afterwards.
-/

set_option linter.constructorNameAsVariable false

namespace NetSnmp

inductive SetAction where
  | reserve1 | reserve2 | action | commit | free | undo
  deriving DecidableEq, Repr

/-- `var_val_type`, `var_val` and `var_val_len`.  An `ASN_INTEGER` always has the length of a
`long`. -/
inductive SetValue where
  | integer (longRet : Int)
  | octets (string : List Byte)
  | other
  deriving DecidableEq, Repr

namespace SetValue

/-- The octets at `var_val`, of a value that is an octet string. -/
def string : SetValue → List Byte
  | .octets string => string
  | _ => []

/-- The number at `var_val`, of a value that is an integer. -/
def longRet : SetValue → Int
  | .integer longRet => longRet
  | _ => 0

end SetValue

/-- The error codes, `SNMP_ERR_NOERROR` and so on. -/
inductive SetError where
  | noError | noSuchName | genErr | wrongType | wrongLength | wrongValue | noCreation
  | inconsistentValue | inconsistentName
  deriving DecidableEq, Repr

abbrev rsActive : Int := 1
abbrev rsNotinservice : Int := 2
abbrev rsNotready : Int := 3
abbrev rsCreateandgo : Int := 4
abbrev rsCreateandwait : Int := 5
abbrev rsDestroy : Int := 6

abbrev stVolatile : Int := 2
abbrev stNonvolatile : Int := 3
abbrev stPermanent : Int := 4

/-- The three views of an access row that can be written. -/
inductive AccessView where
  | read | write | notify
  deriving DecidableEq, Repr

def AccessView.number : AccessView → Fin 8
  | .read => vacmViewRead
  | .write => vacmViewWrite
  | .notify => vacmViewNotify

/-- `string` and `resetOnFail` of a write method. -/
structure SavedString where
  string : VacmBuffer
  resetOnFail : Bool
  deriving DecidableEq, Repr

structure WriteStatics where
  /-- of `write_vacmGroupName` -/
  groupName : SavedString
  /-- `long_ret` of `write_vacmSecurityToGroupStatus` -/
  groupStatus : Int
  /-- of `write_vacmAccessReadViewName` and the others -/
  accessViewName : AccessView → SavedString
  /-- `long_ret` of `write_vacmAccessStatus` -/
  accessStatus : Int
  /-- `long_ret` of `write_vacmViewStatus` -/
  viewStatus : Int
  /-- `oldValue` of `write_vacmViewStorageType` -/
  viewStorageType : Int
  /-- `string` of `write_vacmViewMask`, up to `length` -/
  viewMask : List Byte
  /-- `oldValue` of `write_vacmViewType` -/
  viewType : Int

/-- What is done to the row that was found, or with a new one. -/
inductive RowChange (α : Type) where
  | keep
  | assign (row : α)
  | create
  | destroy
  deriving DecidableEq, Repr

structure Written (α : Type) where
  err : SetError
  change : RowChange α
  statics : WriteStatics

/-- `memcpy` to the start of a buffer. -/
def copyTo (dest : VacmBuffer) (src : List Byte) : VacmBuffer :=
  Vector.ofFn fun i => src.getD i (dest.get i)

def isCreate (longRet : Int) : Bool := longRet = rsCreateandgo || longRet = rsCreateandwait

def isWrongStatus (longRet : Int) : Bool :=
  longRet = rsNotready || decide (longRet < 1) || decide (6 < longRet)

/-- `sec2group_parse_oid`: the security model, the name, and the length of the name. -/
def sec2groupParseOid : (oidIndex : Oid) → Option (Int × CString × Nat)
  | model :: nameL :: name =>
      if name.length ≠ nameL then none
      else if name.any (255 < ·) then none
      else some (toCInt model, .ofBuffer (name.map UInt8.ofNat), nameL)
  | _ => none

def sec2groupParseGroupEntry (groupList : List VacmGroupEntry) (index : Oid) :
    Option VacmGroupEntry :=
  (sec2groupParseOid index).bind fun (model, name, _) => vacmGetGroupEntry groupList model name

def writeVacmGroupName (action : SetAction) (value : SetValue) (geptr : Option VacmGroupEntry)
    (statics : WriteStatics) : Written VacmGroupEntry :=
  match action with
  | .reserve1 =>
      let statics :=
        { statics with groupName := { statics.groupName with resetOnFail := false } }
      match value with
      | .octets string =>
          if string.length < 1 ∨ 32 < string.length then ⟨.wrongLength, .keep, statics⟩
          else ⟨.noError, .keep, statics⟩
      | _ => ⟨.wrongType, .keep, statics⟩
  | .reserve2 =>
      match geptr with
      | none => ⟨.inconsistentName, .keep, statics⟩
      | some gp =>
          ⟨.noError,
            .assign { gp with
              groupName := copyTo gp.groupName (value.string ++ [0])
              status := if gp.status = rsNotready then rsNotinservice else gp.status },
            { statics with groupName := ⟨gp.groupName, true⟩ }⟩
  | .free =>
      match geptr with
      | some gp =>
          if statics.groupName.resetOnFail then
            ⟨.noError, .assign { gp with groupName := statics.groupName.string }, statics⟩
          else ⟨.noError, .keep, statics⟩
      | none => ⟨.noError, .keep, statics⟩
  | _ => ⟨.noError, .keep, statics⟩

def writeVacmSecurityToGroupStorageType (action : SetAction) (value : SetValue)
    (geptr : Option VacmGroupEntry) (statics : WriteStatics) : Written VacmGroupEntry :=
  match value with
  | .integer longRet =>
      match action with
      | .commit =>
          match geptr with
          | none => ⟨.noSuchName, .keep, statics⟩
          | some gp =>
              if (longRet = stVolatile ∨ longRet = stNonvolatile) ∧
                  (gp.storageType = stVolatile ∨ gp.storageType = stNonvolatile) then
                ⟨.noError, .assign { gp with storageType := longRet }, statics⟩
              else if longRet = gp.storageType then ⟨.noError, .keep, statics⟩
              else ⟨.inconsistentValue, .keep, statics⟩
      | _ => ⟨.noError, .keep, statics⟩
  | _ => ⟨.wrongType, .keep, statics⟩

def writeVacmSecurityToGroupStatus (action : SetAction) (value : SetValue)
    (parsed : Option (Int × CString × Nat)) (geptr : Option VacmGroupEntry)
    (statics : WriteStatics) : Written VacmGroupEntry :=
  match action with
  | .reserve1 =>
      match value with
      | .integer longRet =>
          let statics := { statics with groupStatus := longRet }
          if isWrongStatus longRet then ⟨.wrongValue, .keep, statics⟩
          else
            match parsed with
            | none => ⟨.inconsistentName, .keep, statics⟩
            | some (model, _, nameLen) =>
                if model < 1 ∨ nameLen < 1 ∨ 32 < nameLen then ⟨.noCreation, .keep, statics⟩
                else
                  match geptr with
                  | some gp =>
                      if isCreate longRet then
                        ⟨.inconsistentValue, .keep, { statics with groupStatus := rsNotready }⟩
                      else if longRet = rsDestroy ∧ gp.storageType = stPermanent then
                        ⟨.wrongValue, .keep, statics⟩
                      else ⟨.noError, .keep, statics⟩
                  | none =>
                      if longRet = rsActive ∨ longRet = rsNotinservice then
                        ⟨.inconsistentValue, .keep, statics⟩
                      else if isCreate longRet then ⟨.noError, .create, statics⟩
                      else ⟨.noError, .keep, statics⟩
      | _ => ⟨.wrongType, .keep, statics⟩
  | .action =>
      match geptr with
      | none => ⟨.noError, .keep, statics⟩
      | some gp =>
          let longRet := statics.groupStatus
          if longRet = rsCreateandgo ∨ longRet = rsActive then
            if gp.groupName.get 0 = 0 then ⟨.inconsistentValue, .keep, statics⟩
            else ⟨.noError, .assign { gp with status := rsActive }, statics⟩
          else if longRet = rsCreateandwait then
            if gp.groupName.get 0 ≠ 0 then
              ⟨.noError, .assign { gp with status := rsNotinservice }, statics⟩
            else ⟨.noError, .keep, statics⟩
          else if longRet = rsNotinservice then
            if gp.status = rsActive then
              ⟨.noError, .assign { gp with status := rsNotinservice }, statics⟩
            else if gp.status = rsNotready then ⟨.inconsistentValue, .keep, statics⟩
            else ⟨.noError, .keep, statics⟩
          else ⟨.noError, .keep, statics⟩
  | .commit =>
      if geptr.isSome ∧ statics.groupStatus = rsDestroy then ⟨.noError, .destroy, statics⟩
      else ⟨.noError, .keep, statics⟩
  | .undo =>
      if isCreate statics.groupStatus ∧ geptr.isSome then ⟨.noError, .destroy, statics⟩
      else ⟨.noError, .keep, statics⟩
  | _ => ⟨.noError, .keep, statics⟩

/-- `access_parse_oid`: the strings with their lengths, the security model and the level. -/
def accessParseOid : (oidIndex : Oid) → Option ((CString × Nat) × (CString × Nat) × Int × Int)
  | groupNameL :: rest =>
      if rest.length < groupNameL + 3 then none
      else
        match rest.drop groupNameL with
        | contextPrefixL :: rest' =>
            if rest'.length ≠ contextPrefixL + 2 then none
            else if (rest.take groupNameL).any (255 < ·) then none
            else if (rest'.take contextPrefixL).any (255 < ·) then none
            else
              match rest'.drop contextPrefixL with
              | [model, level] =>
                  some ((.ofBuffer ((rest.take groupNameL).map UInt8.ofNat), groupNameL),
                    (.ofBuffer ((rest'.take contextPrefixL).map UInt8.ofNat), contextPrefixL),
                    toCInt model, toCInt level)
              | _ => none
        | [] => none
  | [] => none

def accessParseAccessEntry (accessList : List VacmAccessEntry) (index : Oid) :
    Option VacmAccessEntry :=
  (accessParseOid index).bind fun ((groupName, _), (contextPrefix, _), model, level) =>
    vacmGetAccessEntry accessList groupName contextPrefix model level

def writeVacmAccessStatus (action : SetAction) (value : SetValue)
    (parsed : Option ((CString × Nat) × (CString × Nat) × Int × Int))
    (aptr : Option VacmAccessEntry) (statics : WriteStatics) : Written VacmAccessEntry :=
  match action with
  | .reserve1 =>
      match value with
      | .integer longRet =>
          let statics := { statics with accessStatus := longRet }
          if isWrongStatus longRet then ⟨.wrongValue, .keep, statics⟩
          else
            match parsed with
            | none => ⟨.inconsistentName, .keep, statics⟩
            | some ((_, groupNameLen), (_, contextPrefixLen), model, _) =>
                if model < 0 ∨ groupNameLen < 1 ∨ 32 < groupNameLen ∨ 32 < contextPrefixLen then
                  ⟨.noCreation, .keep, statics⟩
                else
                  match aptr with
                  | some ap =>
                      if isCreate longRet then ⟨.inconsistentValue, .keep, statics⟩
                      else if longRet = rsDestroy ∧ ap.storageType = stPermanent then
                        ⟨.wrongValue, .keep, statics⟩
                      else ⟨.noError, .keep, statics⟩
                  | none =>
                      if longRet = rsActive ∨ longRet = rsNotinservice then
                        ⟨.inconsistentValue, .keep, statics⟩
                      else if isCreate longRet then ⟨.noError, .create, statics⟩
                      else ⟨.noError, .keep, statics⟩
      | _ => ⟨.wrongType, .keep, statics⟩
  | .action =>
      if parsed.isNone then ⟨.inconsistentName, .keep, statics⟩
      else
        match aptr with
        | none => ⟨.noError, .keep, statics⟩
        | some ap =>
            let longRet := statics.accessStatus
            if longRet = rsCreateandgo ∨ longRet = rsActive then
              ⟨.noError, .assign { ap with status := rsActive }, statics⟩
            else if longRet = rsCreateandwait then
              ⟨.noError, .assign { ap with status := rsNotinservice }, statics⟩
            else if longRet = rsNotinservice then
              if ap.status = rsActive then
                ⟨.noError, .assign { ap with status := rsNotinservice }, statics⟩
              else if ap.status = rsNotready then ⟨.inconsistentValue, .keep, statics⟩
              else ⟨.noError, .keep, statics⟩
            else ⟨.noError, .keep, statics⟩
  | .commit =>
      if parsed.isNone then ⟨.inconsistentName, .keep, statics⟩
      else if aptr.isSome ∧ statics.accessStatus = rsDestroy then ⟨.noError, .destroy, statics⟩
      else ⟨.noError, .keep, statics⟩
  | .undo =>
      if isCreate statics.accessStatus then
        if parsed.isNone then ⟨.inconsistentName, .keep, statics⟩
        else if aptr.isSome then ⟨.noError, .destroy, statics⟩
        else ⟨.noError, .keep, statics⟩
      else ⟨.noError, .keep, statics⟩
  | _ => ⟨.noError, .keep, statics⟩

def writeVacmAccessStorageType (action : SetAction) (value : SetValue)
    (aptr : Option VacmAccessEntry) (statics : WriteStatics) : Written VacmAccessEntry :=
  match value with
  | .integer longRet =>
      match action with
      | .commit =>
          match aptr with
          | none => ⟨.noSuchName, .keep, statics⟩
          | some ap =>
              if longRet = ap.storageType then ⟨.noError, .keep, statics⟩
              else ⟨.inconsistentValue, .keep, statics⟩
      | _ => ⟨.noError, .keep, statics⟩
  | _ => ⟨.wrongType, .keep, statics⟩

def writeVacmAccessContextMatch (action : SetAction) (value : SetValue)
    (aptr : Option VacmAccessEntry) (statics : WriteStatics) : Written VacmAccessEntry :=
  match value with
  | .integer longRet =>
      match action with
      | .commit =>
          match aptr with
          | none => ⟨.noSuchName, .keep, statics⟩
          | some ap =>
              if longRet = contextMatchExact ∨ longRet = contextMatchPrefix then
                ⟨.noError, .assign { ap with contextMatch := longRet }, statics⟩
              else ⟨.wrongValue, .keep, statics⟩
      | _ => ⟨.noError, .keep, statics⟩
  | _ => ⟨.wrongType, .keep, statics⟩

/-- `write_vacmAccessReadViewName`, `write_vacmAccessWriteViewName` and
`write_vacmAccessNotifyViewName`, which only differ in the view.  Of the saved string as many
octets are put back as the value has. -/
def writeVacmAccessViewName (view : AccessView) (action : SetAction) (value : SetValue)
    (aptr : Option VacmAccessEntry) (statics : WriteStatics) : Written VacmAccessEntry :=
  let saved := statics.accessViewName view
  let save (saved : SavedString) : WriteStatics :=
    { statics with
      accessViewName := fun other => if other = view then saved else statics.accessViewName other }
  match action with
  | .reserve1 =>
      match value with
      | .octets string =>
          if 32 < string.length then
            ⟨.wrongLength, .keep, save { saved with resetOnFail := false }⟩
          else ⟨.noError, .keep, save { saved with resetOnFail := false }⟩
      | _ => ⟨.wrongType, .keep, save { saved with resetOnFail := false }⟩
  | .reserve2 =>
      match aptr with
      | none => ⟨.inconsistentName, .keep, statics⟩
      | some ap =>
          ⟨.noError,
            .assign { ap with
              views := ap.views.set view.number
                (copyTo (ap.views.get view.number) (value.string ++ [0])) },
            save ⟨ap.views.get view.number, true⟩⟩
  | .free =>
      match aptr with
      | some ap =>
          if saved.resetOnFail then
            ⟨.noError,
              .assign { ap with
                views := ap.views.set view.number
                  (copyTo (ap.views.get view.number)
                    (saved.string.toList.take value.string.length)) },
              statics⟩
          else ⟨.noError, .keep, statics⟩
      | none => ⟨.noError, .keep, statics⟩
  | _ => ⟨.noError, .keep, statics⟩

def writeVacmAccessReadViewName := writeVacmAccessViewName .read
def writeVacmAccessWriteViewName := writeVacmAccessViewName .write
def writeVacmAccessNotifyViewName := writeVacmAccessViewName .notify

/-- `view_parse_oid`: the name with its length, and all that is behind it. -/
def viewParseOid : (oidIndex : Oid) → Option ((CString × Nat) × Oid)
  | viewNameL :: rest =>
      if rest.length < viewNameL then none
      else if (rest.take viewNameL).any (255 < ·) then none
      else
        some ((.ofBuffer ((rest.take viewNameL).map UInt8.ofNat), viewNameL), rest.drop viewNameL)
  | [] => none

/-- `vacm_getViewEntry` for what follows the length in front of a subtree.  If not even the length
is there, the length of the subtree wraps around, and the comparison with an entry of this name
reads what is behind the copy of the index: the result is not defined then. -/
def getParsedViewEntry (viewList : List VacmViewEntry) (viewName : CString) :
    (newViewSubtree : Oid) → Option (Option VacmViewEntry)
  | _ :: subtree => some (netsnmpViewGet viewList viewName subtree .ignoreMask)
  | [] =>
      if viewList.any fun vp => strcmp vp.viewName.str viewName = 0 && vp.viewSubtree ≠ [] then none
      else some (netsnmpViewGet viewList viewName [] .ignoreMask)

def viewParseViewEntry (viewList : List VacmViewEntry) (index : Oid) :
    Option (Option VacmViewEntry) :=
  match viewParseOid index with
  | none => some none
  | some ((viewName, _), newViewSubtree) => getParsedViewEntry viewList viewName newViewSubtree

def writeVacmViewStatus (action : SetAction) (value : SetValue)
    (parsed : Option ((CString × Nat) × Oid)) (vptr : Option (Option VacmViewEntry))
    (statics : WriteStatics) : Option (Written VacmViewEntry) :=
  match action with
  | .reserve1 =>
      match value with
      | .integer longRet =>
          let statics := { statics with viewStatus := longRet }
          if isWrongStatus longRet then some ⟨.wrongValue, .keep, statics⟩
          else
            match parsed with
            | none => some ⟨.inconsistentName, .keep, statics⟩
            | some ((_, viewNameLen), newViewSubtree) =>
                if viewNameLen < 1 ∨ 32 < viewNameLen then some ⟨.noCreation, .keep, statics⟩
                else
                  -- an entry for a larger subtree is none for this one
                  vptr.map fun vptr =>
                    match vptr.filter fun vp => newViewSubtree.drop 1 = vp.viewSubtree ∧
                        newViewSubtree ≠ [] with
                    | some vp =>
                        if isCreate longRet then
                          ⟨.inconsistentValue, .keep, { statics with viewStatus := rsNotready }⟩
                        else if longRet = rsDestroy ∧ vp.viewStorageType = stPermanent then
                          ⟨.wrongValue, .keep, statics⟩
                        else ⟨.noError, .keep, statics⟩
                    | none =>
                        if longRet = rsActive ∨ longRet = rsNotinservice then
                          ⟨.inconsistentValue, .keep, statics⟩
                        else if isCreate longRet then ⟨.noError, .create, statics⟩
                        else ⟨.noError, .keep, statics⟩
      | _ => some ⟨.wrongType, .keep, statics⟩
  | .action =>
      vptr.map fun vptr =>
        match vptr with
        | none => ⟨.noError, .keep, statics⟩
        | some vp =>
            let longRet := statics.viewStatus
            if longRet = rsCreateandgo ∨ longRet = rsActive then
              ⟨.noError, .assign { vp with viewStatus := rsActive }, statics⟩
            else if longRet = rsCreateandwait then
              ⟨.noError, .assign { vp with viewStatus := rsNotinservice }, statics⟩
            else if longRet = rsNotinservice then
              if vp.viewStatus = rsActive then
                ⟨.noError, .assign { vp with viewStatus := rsNotinservice }, statics⟩
              else if vp.viewStatus = rsNotready then ⟨.inconsistentValue, .keep, statics⟩
              else ⟨.noError, .keep, statics⟩
            else ⟨.noError, .keep, statics⟩
  | .commit =>
      vptr.map fun vptr =>
        if vptr.isSome ∧ statics.viewStatus = rsDestroy then ⟨.noError, .destroy, statics⟩
        else ⟨.noError, .keep, statics⟩
  | .undo =>
      if isCreate statics.viewStatus then
        vptr.map fun vptr =>
          if vptr.isSome then ⟨.noError, .destroy, statics⟩ else ⟨.noError, .keep, statics⟩
      else some ⟨.noError, .keep, statics⟩
  | _ => some ⟨.noError, .keep, statics⟩

def writeVacmViewStorageType (action : SetAction) (value : SetValue)
    (vptr : Option (Option VacmViewEntry)) (statics : WriteStatics) :
    Option (Written VacmViewEntry) :=
  match action with
  | .reserve1 =>
      match value with
      | .integer _ => some ⟨.noError, .keep, statics⟩
      | _ => some ⟨.wrongType, .keep, statics⟩
  | .reserve2 =>
      vptr.map fun vptr =>
        match vptr with
        | none => ⟨.inconsistentName, .keep, statics⟩
        | some vp =>
            let newValue := value.longRet
            if (newValue = stVolatile ∨ newValue = stNonvolatile) ∧
                (vp.viewStorageType = stVolatile ∨ vp.viewStorageType = stNonvolatile) then
              ⟨.noError, .assign { vp with viewStorageType := newValue },
                { statics with viewStorageType := vp.viewStorageType }⟩
            else if newValue = vp.viewStorageType then ⟨.noError, .keep, statics⟩
            else ⟨.inconsistentValue, .keep, statics⟩
  | .undo =>
      vptr.map fun vptr =>
        match vptr with
        | none => ⟨.noError, .keep, statics⟩
        | some vp =>
            ⟨.noError, .assign { vp with viewStorageType := statics.viewStorageType }, statics⟩
  | _ => some ⟨.noError, .keep, statics⟩

def writeVacmViewMask (action : SetAction) (value : SetValue)
    (vptr : Option (Option VacmViewEntry)) (statics : WriteStatics) :
    Option (Written VacmViewEntry) :=
  match action with
  | .reserve1 =>
      match value with
      | .octets string =>
          if 16 < string.length then some ⟨.wrongLength, .keep, statics⟩
          else some ⟨.noError, .keep, statics⟩
      | _ => some ⟨.wrongType, .keep, statics⟩
  | .reserve2 =>
      vptr.map fun vptr =>
        match vptr with
        | none => ⟨.inconsistentName, .keep, statics⟩
        | some vp =>
            ⟨.noError, .assign { vp with viewMask := value.string },
              { statics with viewMask := vp.viewMask }⟩
  | .free =>
      vptr.map fun vptr =>
        match vptr with
        | none => ⟨.noError, .keep, statics⟩
        | some vp => ⟨.noError, .assign { vp with viewMask := statics.viewMask }, statics⟩
  | _ => some ⟨.noError, .keep, statics⟩

def writeVacmViewType (action : SetAction) (value : SetValue)
    (vptr : Option (Option VacmViewEntry)) (statics : WriteStatics) :
    Option (Written VacmViewEntry) :=
  match action with
  | .reserve1 =>
      match value with
      | .integer newValue =>
          if newValue < 1 ∨ 2 < newValue then some ⟨.wrongValue, .keep, statics⟩
          else some ⟨.noError, .keep, statics⟩
      | _ => some ⟨.wrongType, .keep, statics⟩
  | .reserve2 =>
      vptr.map fun vptr =>
        match vptr with
        | none => ⟨.inconsistentName, .keep, statics⟩
        | some vp =>
            ⟨.noError, .assign { vp with viewType := value.longRet },
              { statics with viewType := vp.viewType }⟩
  | .undo =>
      vptr.map fun vptr =>
        match vptr with
        | none => ⟨.noError, .keep, statics⟩
        | some vp => ⟨.noError, .assign { vp with viewType := statics.viewType }, statics⟩
  | _ => some ⟨.noError, .keep, statics⟩

end NetSnmp
