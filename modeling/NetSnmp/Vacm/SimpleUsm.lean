import NetSnmp.Config.Text
import NetSnmp.Vacm.SetRequest
import NetSnmp.Vacm.ViewLookup

/-!
# Access for one user

`netsnmp_vacm_simple_usm_add` creates the rows that give a user access, and
`netsnmp_vacm_simple_usm_del` is to destroy them again.
-/

namespace NetSnmp

/-- `SNMP_SEC_MODEL_USM` -/
abbrev vacmSecModelUsm : Int := 3

abbrev snmpSecLevelNoauth : Int := 1

abbrev snmpSecLevelAuthpriv : Int := 3

/-- `isalnum` in the C locale. -/
def isalnum (c : Byte) : Bool := isalpha c || isdigit c

def netsnmpViewExists (head : List VacmViewEntry) (viewName : CString) : Nat :=
  match vacmString viewName with
  | none => 0
  | some view => head.countP (nameMatches view)

/-- The object identifier of a new view, by the pointer and the length that are passed. -/
inductive OidView where
  | null (oidViewLen : Nat)
  | array (oidView : Oid)
  deriving DecidableEq, Repr

def OidView.isGiven : OidView → Bool
  | .null oidViewLen => 0 < oidViewLen
  | .array _ => true

def OidView.subids : OidView → Option Oid
  | .null _ => none
  | .array [] => none
  | .array (subid :: subids) => some (subid :: subids)

/-- The arguments of both functions; `rw` is for the first one only. -/
structure SimpleUsm where
  user : Option CString
  rw : Bool
  authLevel : Int
  view : Option CString
  oidView : OidView
  context : Option CString
  deriving DecidableEq, Repr

/-- `_all_` -/
def allView : CString := ⟨[0x5f, 0x61, 0x6c, 0x6c, 0x5f], by decide⟩

/-- `none` -/
def noneView : CString := ⟨[0x6e, 0x6f, 0x6e, 0x65], by decide⟩

/-- `grp` -/
def groupPrefix : List Byte := [0x67, 0x72, 0x70]

/-- `"grp%.28s"` -/
def userGroup (user : CString) : CString where
  chars := groupPrefix ++ user.chars.take 28
  noNul := by
    intro mem
    rcases List.mem_append.mp mem with mem | mem
    · exact absurd mem (by decide)
    · exact user.noNul (List.mem_of_mem_take mem)

/-- `_` for a character that is neither a letter nor a digit. -/
def groupChar (c : Byte) : Byte := if isalnum c then c else 0x5f

theorem groupChar_ne_zero {c : Byte} (ne : c ≠ 0) : groupChar c ≠ 0 := by
  unfold groupChar
  split
  · exact ne
  · decide

def simpleGroup (user : CString) : CString where
  chars := (userGroup user).chars.map groupChar
  noNul := by
    intro mem
    rcases List.mem_map.mp mem with ⟨c, mem', eq⟩
    exact groupChar_ne_zero (ne_of_mem_of_not_mem mem' (userGroup user).noNul) eq

/-- The context that rows are created for, and the kind of match: a `*` at the end is cut off, in an
array of `VACMSTRINGLEN` characters.  There is no result where memory is used outside of a string or
of the array. -/
def simpleContext (context : Option CString) : Option (CString × Int) :=
  match context with
  | none => some (⟨[], CString.noNul_nil⟩, contextMatchExact)
  | some context =>
      match context.chars.getLast? with
      | none => none
      | some last =>
          if last = 0x2a then
            if vacmStringLen < context.strlen then none
            else some (⟨context.chars.dropLast, fun mem => context.noNul
              (List.dropLast_subset _ mem)⟩, contextMatchPrefix)
          else some (context, contextMatchExact)

/-- `strlcpy` into an array of a row. -/
def strlcpyTo (dest : VacmBuffer) (src : CString) : VacmBuffer :=
  copyTo dest (src.chars.take (vacmStringLen - 1) ++ [0])

/-- The view that the rows are to refer to, and the list of views with a new one that was made for
it.  There is no result where the arguments are refused. -/
def simpleView (viewList : List VacmViewEntry) (view : Option CString) (oidView : OidView) :
    Option (CString × List VacmViewEntry × Option VacmViewEntry) :=
  match view with
  | some view =>
      if netsnmpViewExists viewList view ≠ 0 then
        if oidView.isGiven then none else some (view, viewList, none)
      else
        match oidView.subids with
        | none => none
        | some subids =>
            (netsnmpViewCreate viewList view subids).map fun (viewList, vacmEntry) =>
              (view, viewList, some vacmEntry)
  | none => if oidView.subids = none then some (allView, viewList, none) else none

def bailView (viewList : List VacmViewEntry) (vacmEntry : Option VacmViewEntry) :
    List VacmViewEntry :=
  match vacmEntry with
  | none => viewList
  | some vp => vacmDestroyViewEntry viewList vp.viewName.str (storedSubtree vp.viewSubtree)

def simpleGroupEntry (gp : VacmGroupEntry) (user : CString) : VacmGroupEntry :=
  { gp with
    groupName := copyTo gp.groupName ((simpleGroup user).chars ++ [0])
    storageType := stPermanent
    status := rsActive }

def simpleAccessEntry (vp : VacmAccessEntry) (rw : Bool) (view : CString) (contextMatch : Int) :
    VacmAccessEntry :=
  let others := if rw then view else noneView
  let views := vp.views.set vacmViewRead (strlcpyTo (vp.views.get vacmViewRead) view)
  let views := views.set vacmViewWrite (strlcpyTo (views.get vacmViewWrite) others)
  let views := views.set vacmViewNotify (strlcpyTo (views.get vacmViewNotify) others)
  { vp with
    views := views
    contextMatch := contextMatch
    storageType := stPermanent
    status := rsActive }

/-- `netsnmp_vacm_simple_usm_add`: whether it succeeds, and the lists.  A new row is in its place,
with its fields assigned. -/
def netsnmpVacmSimpleUsmAdd (s : VacmState) (args : SimpleUsm) : Option (Bool × VacmState) :=
  match args.user with
  | none => some (false, s)
  | some user =>
      if args.authLevel < snmpSecLevelNoauth ∨ snmpSecLevelAuthpriv < args.authLevel then
        some (false, s)
      else
        match simpleView s.viewList args.view args.oidView with
        | none => some (false, s)
        | some (view, viewList, vacmEntry) =>
            match vacmCreateGroupEntry s.groupList vacmSecModelUsm user with
            | none => some (false, { s with viewList := bailView viewList vacmEntry })
            | some (_, gp) => do
                let groupList := insertBefore (groupBehind gp) (simpleGroupEntry gp user)
                  s.groupList
                let (context, contextMatch) ← simpleContext args.context
                match vacmCreateAccessEntry s.accessList (simpleGroup user) context
                  vacmSecModelUsm args.authLevel with
                | none =>
                    pure (false,
                      { s with
                        groupList := vacmDestroyGroupEntry groupList vacmSecModelUsm user
                        viewList := bailView viewList vacmEntry })
                | some (_, vp) =>
                    pure (true,
                      { s with
                        viewList := viewList
                        groupList := groupList
                        accessList := insertBefore (accessBehind vp)
                          (simpleAccessEntry vp args.rw view contextMatch) s.accessList })

def delView (viewList : List VacmViewEntry) (view : Option CString) (oidView : OidView) :
    List VacmViewEntry :=
  match view, oidView.subids with
  | some view, some subids =>
      if strcmp view allView ≠ 0 ∧ netsnmpViewExists viewList view = 1 then
        vacmDestroyViewEntry viewList view subids
      else viewList
  | _, _ => viewList

/-- `netsnmp_vacm_simple_usm_del`, for a user that is not null. -/
def netsnmpVacmSimpleUsmDel (s : VacmState) (user : CString) (args : SimpleUsm) :
    Option VacmState := do
  let (context, _) ← simpleContext args.context
  pure
    { s with
      viewList := delView s.viewList args.view args.oidView
      groupList := vacmDestroyGroupEntry s.groupList vacmSecModelUsm user
      accessList := vacmDestroyAccessEntry s.accessList (userGroup user) context vacmSecModelUsm
        args.authLevel }

end NetSnmp
