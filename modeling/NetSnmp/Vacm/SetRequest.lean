import NetSnmp.KeyedRows
import NetSnmp.Vacm.WriteMethods

/-!
# SET requests on the access control tables

The write methods on the lists, and the phases of a request, in each of which the
write method of every variable is called.
-/

set_option linter.constructorNameAsVariable false

namespace NetSnmp

/-- The lists, and the static variables of the write methods. -/
structure VacmState where
  groupList : List VacmGroupEntry
  accessList : List VacmAccessEntry
  viewList : List VacmViewEntry
  statics : WriteStatics

def emptyVacm : VacmState where
  groupList := []
  accessList := []
  viewList := []
  statics :=
    { groupName := ⟨Vector.replicate vacmStringLen 0, false⟩
      groupStatus := 0
      accessViewName := fun _ => ⟨Vector.replicate vacmStringLen 0, false⟩
      accessStatus := 0
      viewStatus := 0
      viewStorageType := 0
      viewMask := []
      viewType := 0 }

namespace VacmState

variable (s : VacmState)

def applyGroup (index : Oid) (geptr : Option VacmGroupEntry) (written : Written VacmGroupEntry) :
    SetError × VacmState :=
  let s := { s with statics := written.statics }
  match written.change, geptr, sec2groupParseOid index with
  | .assign row, some found, _ =>
      (written.err, { s with groupList := assignRow found row s.groupList })
  | .create, _, some (model, newName, _) =>
      match vacmCreateGroupEntry s.groupList model newName with
      | none => (.genErr, s)
      | some (groupList, gp) =>
          (written.err, { s with
            groupList := assignRow gp { gp with storageType := stNonvolatile, status := rsNotready }
              groupList })
  | .destroy, _, some (model, newName, _) =>
      (written.err, { s with groupList := vacmDestroyGroupEntry s.groupList model newName })
  | _, _, _ => (written.err, s)

def applyAccess (index : Oid) (aptr : Option VacmAccessEntry) (written : Written VacmAccessEntry) :
    SetError × VacmState :=
  let s := { s with statics := written.statics }
  match written.change, aptr, accessParseOid index with
  | .assign row, some found, _ =>
      (written.err, { s with accessList := assignRow found row s.accessList })
  | .create, _, some ((newGroupName, _), (newContextPrefix, _), model, level) =>
      match vacmCreateAccessEntry s.accessList newGroupName newContextPrefix model level with
      | none => (.genErr, s)
      | some (accessList, ap) =>
          (written.err, { s with
            accessList := assignRow ap
              { ap with
                contextMatch := contextMatchExact
                storageType := stNonvolatile
                status := rsNotready }
              accessList })
  | .destroy, _, some ((newGroupName, _), (newContextPrefix, _), model, level) =>
      (written.err, { s with
        accessList := vacmDestroyAccessEntry s.accessList newGroupName newContextPrefix
          model level })
  | _, _, _ => (written.err, s)

def applyView (index : Oid) (vptr : Option VacmViewEntry) (written : Written VacmViewEntry) :
    SetError × VacmState :=
  let s := { s with statics := written.statics }
  match written.change, vptr, viewParseOid index with
  | .assign row, some found, _ =>
      (written.err, { s with viewList := assignRow found row s.viewList })
  | .create, _, some ((newViewName, _), newViewSubtree) =>
      match newViewSubtree with
      -- the length that is missing wraps around and is too large
      | [] => (.genErr, s)
      | _ :: subtree =>
          match netsnmpViewCreate s.viewList newViewName subtree with
          | none => (.genErr, s)
          | some (viewList, vp) =>
              (written.err, { s with
                viewList := assignRow vp
                  { vp with
                    viewStorageType := stNonvolatile
                    viewStatus := rsNotready
                    viewType := snmpViewIncluded }
                  viewList })
  | .destroy, _, some ((newViewName, _), newViewSubtree) =>
      (written.err,
        { s with viewList := vacmDestroyViewEntry s.viewList newViewName newViewSubtree })
  | _, _, _ => (written.err, s)

end VacmState

inductive VacmColumn where
  | groupName | groupStorageType | groupStatus
  | accessContextMatch | accessViewName (view : AccessView) | accessStorageType | accessStatus
  | viewMask | viewType | viewStorageType | viewStatus
  deriving DecidableEq, Repr

/-- A variable of a request: its column, the index behind the column, and its value. -/
structure SetVar where
  column : VacmColumn
  index : Oid
  value : SetValue
  deriving DecidableEq, Repr

def writeMethod (action : SetAction) (var : SetVar) (s : VacmState) :
    Option (SetError × VacmState) :=
  let geptr := sec2groupParseGroupEntry s.groupList var.index
  let aptr := accessParseAccessEntry s.accessList var.index
  let vptr := viewParseViewEntry s.viewList var.index
  let group (written : Written VacmGroupEntry) := some (s.applyGroup var.index geptr written)
  let access (written : Written VacmAccessEntry) := some (s.applyAccess var.index aptr written)
  let view (written : Option (Written VacmViewEntry)) :=
    written.map (s.applyView var.index (vptr.bind id))
  match var.column with
  | .groupName => group (writeVacmGroupName action var.value geptr s.statics)
  | .groupStorageType =>
      group (writeVacmSecurityToGroupStorageType action var.value geptr s.statics)
  | .groupStatus =>
      group (writeVacmSecurityToGroupStatus action var.value (sec2groupParseOid var.index) geptr
        s.statics)
  | .accessContextMatch => access (writeVacmAccessContextMatch action var.value aptr s.statics)
  | .accessViewName .read => access (writeVacmAccessReadViewName action var.value aptr s.statics)
  | .accessViewName .write => access (writeVacmAccessWriteViewName action var.value aptr s.statics)
  | .accessViewName .notify =>
      access (writeVacmAccessNotifyViewName action var.value aptr s.statics)
  | .accessStorageType => access (writeVacmAccessStorageType action var.value aptr s.statics)
  | .accessStatus =>
      access (writeVacmAccessStatus action var.value (accessParseOid var.index) aptr s.statics)
  | .viewMask => view (writeVacmViewMask action var.value vptr s.statics)
  | .viewType => view (writeVacmViewType action var.value vptr s.statics)
  | .viewStorageType => view (writeVacmViewStorageType action var.value vptr s.statics)
  | .viewStatus =>
      view (writeVacmViewStatus action var.value (viewParseOid var.index) vptr s.statics)

def runPhase (action : SetAction) : List SetVar → VacmState → Option (Bool × VacmState)
  | [], s => some (false, s)
  | var :: vars, s =>
      (writeMethod action var s).bind fun (err, s) =>
        (runPhase action vars s).map fun (failed, s) => (decide (err ≠ .noError) || failed, s)

/-- The last phase of a request before the one that ends it. -/
inductive SetOutcome where
  | freed
  | undone
  /-- The last phase was carried out, with an error or not. -/
  | committed (failed : Bool)
  deriving DecidableEq, Repr

def runSet (vars : List SetVar) (s : VacmState) : Option (SetOutcome × VacmState) :=
  (runPhase .reserve1 vars s).bind fun (failed, s) =>
    if failed then (runPhase .free vars s).map fun (_, s) => (.freed, s)
    else
      (runPhase .reserve2 vars s).bind fun (failed, s) =>
        if failed then (runPhase .free vars s).map fun (_, s) => (.freed, s)
        else
          (runPhase .action vars s).bind fun (failed, s) =>
            if failed then (runPhase .undo vars s).map fun (_, s) => (.undone, s)
            else (runPhase .commit vars s).map fun (failed, s) => (.committed failed, s)

end NetSnmp
