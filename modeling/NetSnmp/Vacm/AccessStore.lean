import NetSnmp.Config.Line
import NetSnmp.Vacm.WriteMethods

/-!
# The access list in the persistent file

A row of the access list is saved as a line of the persistent file, and the
parser of such a line looks for a row before it creates one.
-/

namespace NetSnmp

/-- The token in front of the lines: `vacm`. -/
def vacmToken : List Byte := [0x76, 0x61, 0x63, 0x6d]

/-- `Access` -/
def accessToken : List Byte := [0x41, 0x63, 0x63, 0x65, 0x73, 0x73]

namespace VacmAccessEntry

/-- The name of a view, as the string that it is. -/
def viewName (vp : VacmAccessEntry) (number : Fin 8) : CString :=
  CString.ofBuffer (vp.views.get number).toList

def savedStrings (vp : VacmAccessEntry) : List Byte :=
  saveString vp.groupName.str ++ 0x20 :: (saveString vp.contextPrefix.str ++ 0x20 ::
    (saveString (vp.viewName vacmViewRead) ++ 0x20 ::
      (saveString (vp.viewName vacmViewWrite) ++ 0x20 ::
        saveString (vp.viewName vacmViewNotify))))

def savedFields (vp : VacmAccessEntry) : List Byte :=
  formatD vp.status ++ 0x20 :: (formatD vp.storageType ++ 0x20 ::
    (formatD vp.securityModel ++ 0x20 :: (formatD vp.securityLevel ++ 0x20 ::
      (formatD vp.contextMatch ++ 0x20 :: vp.savedStrings))))

end VacmAccessEntry

/-- `vacm_save_access`: the line that is stored. -/
def vacmSaveAccess (accessEntry : VacmAccessEntry) (token : List Byte) : List Byte :=
  token ++ accessToken ++ 0x20 :: accessEntry.savedFields

/-- The numbers that `_vacm_parse_config_access_common` reads into its own row. -/
structure AccessNumbers where
  status : Int
  storageType : Int
  securityModel : Int
  securityLevel : Int
  contextMatch : Int
  deriving DecidableEq, Repr

/-- The numbers at the start of a line, unless it is incomplete, and what is left of it. -/
def parseAccessNumbers (line : List Byte) : Option (AccessNumbers × Option (List Byte)) := do
  let status := atoi line
  let line ← skipToken line
  let storageType := atoi line
  let line ← skipToken line
  let securityModel := atoi line
  let line ← skipToken line
  let securityLevel := atoi line
  let line ← skipToken line
  let contextMatch := atoi line
  pure (⟨status, storageType, securityModel, securityLevel, contextMatch⟩, skipToken line)

structure AccessPtr where
  front : List VacmAccessEntry
  row : VacmAccessEntry
  back : List VacmAccessEntry
  deriving DecidableEq, Repr

namespace AccessPtr

def toList (aptr : AccessPtr) : List VacmAccessEntry := aptr.front ++ aptr.row :: aptr.back

def find (accessList : List VacmAccessEntry) (vp : VacmAccessEntry) : AccessPtr where
  front := accessList.takeWhile fun lp => lp ≠ vp
  row := vp
  back := (accessList.dropWhile fun lp => lp ≠ vp).tail

def insert (accessList : List VacmAccessEntry) (vp : VacmAccessEntry) : AccessPtr where
  front := accessList.takeWhile fun lp => !accessBehind vp lp
  row := vp
  back := accessList.dropWhile fun lp => !accessBehind vp lp

/-- The row that `vacm_getAccessEntry` finds, or else the one that `vacm_createAccessEntry`
makes. -/
def getOrCreate (accessList : List VacmAccessEntry) (groupName contextPrefix : CString)
    (securityModel securityLevel : Int) : Option AccessPtr :=
  match vacmGetAccessEntry accessList groupName contextPrefix securityModel securityLevel with
  | some vp => some (find accessList vp)
  | none =>
      (vacmCreateAccessEntry accessList groupName contextPrefix securityModel securityLevel).map
        fun created => insert accessList created.2

def assign (aptr : AccessPtr) (access : AccessNumbers) : AccessPtr :=
  { aptr with
    row :=
      { aptr.row with
        status := access.status
        storageType := access.storageType
        securityModel := access.securityModel
        securityLevel := access.securityLevel
        contextMatch := access.contextMatch } }

def setView (aptr : AccessPtr) (number : Fin 8) (bytes : Option (List Byte)) : AccessPtr :=
  match bytes with
  | none => aptr
  | some bytes =>
      { aptr with
        row :=
          { aptr.row with
            views := aptr.row.views.set number
              (copyTo (aptr.row.views.get number) (bytes ++ [0])) number.isLt } }

end AccessPtr

/-- `_vacm_parse_config_access_common`: the row, and what is left of the line; or that there is no
row.  There is no result where a name is used that has not been read. -/
def vacmParseConfigAccessCommon (accessList : List VacmAccessEntry) (line : List Byte) :
    Option (Option (AccessPtr × Option (List Byte))) :=
  match parseAccessNumbers line with
  | none => some none
  | some (access, line) => do
      let groupName ← readConfigReadOctetString line (some vacmStringLen)
      let contextPrefix ← readConfigReadOctetString groupName.rest (some vacmStringLen)
      let gName ← groupName.bytes
      let cPrefix ← contextPrefix.bytes
      let aptr := AccessPtr.getOrCreate accessList (CString.ofBuffer gName)
        (CString.ofBuffer cPrefix) access.securityModel access.securityLevel
      pure (aptr.map fun aptr => (aptr.assign access, contextPrefix.rest))

/-- `vacm_parse_config_access`: the list with the row that the line is for.  Nothing is read of the
views behind the end of the line. -/
def vacmParseConfigAccess (accessList : List VacmAccessEntry) (line : List Byte) :
    Option (List VacmAccessEntry) := do
  let common ← vacmParseConfigAccessCommon accessList line
  match common with
  | none => pure accessList
  | some (aptr, line) => do
      let readView ← readConfigReadOctetString line (some vacmStringLen)
      let writeView ← readConfigReadOctetString readView.rest (some vacmStringLen)
      let notifyView ← readConfigReadOctetString writeView.rest (some vacmStringLen)
      let aptr := aptr.setView vacmViewRead readView.bytes
      let aptr := aptr.setView vacmViewWrite writeView.bytes
      pure (aptr.setView vacmViewNotify notifyView.bytes).toList

/-- A line of the persistent file: the parser is called for the token it is registered for. -/
def readAccessLine (accessList : List VacmAccessEntry) (line : List Byte) :
    Option (List VacmAccessEntry) :=
  match configLine line with
  | none => some accessList
  | some (token, line) =>
      if sameWord token (vacmToken ++ accessToken) then vacmParseConfigAccess accessList line
      else some accessList

/-- The rows of a list are saved, and their lines read again, one after the other. -/
def reloadAccess (rows accessList : List VacmAccessEntry) : Option (List VacmAccessEntry) :=
  rows.foldlM (fun accessList row => readAccessLine accessList (vacmSaveAccess row vacmToken))
    accessList

end NetSnmp
