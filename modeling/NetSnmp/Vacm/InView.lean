import NetSnmp.Snmp.Message
import NetSnmp.Vacm.AccessStore
import NetSnmp.Vacm.Tables
import NetSnmp.Vacm.ViewLookup

/-!
# Access to a variable

`vacm_check_view_contents`, and the three checks that the agent makes with it: of a request, of a
subtree and of a variable.
-/

namespace NetSnmp

def ucdMsgFlagAlwaysInView : UInt64 := 0x800

/-- The answers of `vacm_check_view_contents`. -/
inductive AcmAnswer where
  | success
  | noSecName
  | noGroup
  | noAccess
  | noView
  | notInView
  | noSuchContext
  | subtreeUnknown
  deriving DecidableEq, Repr

/-- The fields of a PDU that matter for the access to a variable. -/
structure AcmPdu where
  version : Int
  command : Int
  flags : UInt64 := 0
  securityModel : Int
  securityLevel : Int
  securityName : Option CString := none
  community : List Byte := []
  tDomain : Oid := []
  transportData : List Byte := []
  contextName : List Byte := []

structure AcmTables where
  groupList : List VacmGroupEntry
  accessList : List VacmAccessEntry
  viewList : List VacmViewEntry
  /-- The names for which `netsnmp_subtree_find_first` finds a subtree. -/
  contexts : List CString
  library : Library
  /-- The lookup for a transport domain, if it has one: the security name and the context name, if
  these are set. -/
  getSecName : (tDomain : Oid) → (transportData community : List Byte) →
    Option (Option (CString × CString))

/-- `vacm_checkSubtree`, as an answer. -/
def VacmAnswer.toAcm : VacmAnswer → AcmAnswer
  | .success => .success
  | .notInView => .notInView
  | .subtreeUnknown => .subtreeUnknown

namespace AcmTables

variable (t : AcmTables) (pdu : AcmPdu)

/-- `sn`, and the context name of the PDU, which a lookup sets. -/
def securityNameOf : Option CString × List Byte :=
  if pdu.version = snmpVersion1 ∨ pdu.version = snmpVersion2c then
    match t.getSecName pdu.tDomain pdu.transportData pdu.community with
    | none => (none, pdu.contextName)
    | some none => (none, [])
    | some (some (secName, contextName)) => (some secName, contextName.chars)
  else if (t.library.findSecMod pdu.securityModel).isSome then (pdu.securityName, pdu.contextName)
  else (none, pdu.contextName)

/-- What `vacm_getAccessEntry` is asked for, behind the group. -/
def requestOf (gp : VacmGroupEntry) (contextName : List Byte) : AccessRequest :=
  ⟨.ofBuffer gp.groupName.toList, .ofBuffer contextName, pdu.securityModel, pdu.securityLevel⟩

/-- The part of `vacm_check_view_contents` in front of the view: the row of the access list. -/
def findAccess (sn : Option CString) (contextName : List Byte) :
    Except AcmAnswer VacmAccessEntry :=
  match sn with
  | none => .error .noSecName
  | some sn =>
      if 32 < contextName.length then .error .noSuchContext
      else if CString.ofBuffer contextName ∉ t.contexts then .error .noSuchContext
      else
        match vacmGetGroupEntry t.groupList pdu.securityModel sn with
        | none => .error .noGroup
        | some gp =>
            let request := requestOf pdu gp contextName
            match vacmGetAccessEntry t.accessList request.groupName request.contextName
              request.securityModel request.securityLevel with
            | none => .error .noAccess
            | some ap => .ok ap

def checkName (vn : CString) (name : Oid) (checkSubtree : Bool) : AcmAnswer :=
  if checkSubtree then (netsnmpViewSubtreeCheck t.viewList vn name).toAcm
  else
    match netsnmpViewGet t.viewList vn name .find with
    | none => .noView
    | some vp => if vp.viewType = snmpViewExcluded then .notInView else .success

/-- `vacm_check_view_contents` without flags: the answer, and the PDU with its context name. -/
def vacmCheckView (name : Option Oid) (checkSubtree : Bool) (viewtype : Fin 8) :
    AcmAnswer × AcmPdu :=
  let (sn, contextName) := t.securityNameOf pdu
  let answer :=
    match t.findAccess pdu sn contextName with
    | .error answer => answer
    | .ok ap => name.elim .success fun name => t.checkName (ap.viewName viewtype) name checkSubtree
  (answer, { pdu with contextName })

def viewtypeOf (command : Int) : Fin 8 :=
  if command = snmpMsgSet then vacmViewWrite
  else if command = snmpMsgTrap ∨ command = snmpMsgTrap2 ∨ command = snmpMsgInform then
    vacmViewNotify
  else vacmViewRead

def vacmInView (name : Option Oid) (checkSubtree : Bool) : AcmAnswer × AcmPdu :=
  t.vacmCheckView pdu name checkSubtree (viewtypeOf pdu.command)

def alwaysInView : Bool := pdu.flags &&& ucdMsgFlagAlwaysInView ≠ 0

def isControlled : Bool :=
  pdu.version ∈ [snmpVersion1, snmpVersion2c, snmpVersion3] &&
    !runtimeProtocolSkip t.library pdu.version

def callAcm (name : Option Oid) (checkSubtree : Bool) : AcmAnswer × AcmPdu :=
  if alwaysInView pdu then (.success, pdu)
  else if t.isControlled pdu then t.vacmInView pdu name checkSubtree
  else (.noSecName, pdu)

def checkAccess : AcmAnswer × AcmPdu := t.callAcm pdu none false

def netsnmpAcmCheckSubtree (name : Oid) : AcmAnswer × AcmPdu := t.callAcm pdu (some name) true

/-- SNMPv1 does not have `Counter64`. -/
def isUnsupported (type : Byte) : Bool := pdu.version = snmpVersion1 && type = asnCounter64

def inAView (name : Oid) (type : Byte) : AcmAnswer × AcmPdu :=
  if !alwaysInView pdu && isUnsupported pdu type then (.notInView, pdu)
  else t.callAcm pdu (some name) false

end AcmTables

/-- A row of the group list for a security model and a security name. -/
structure GroupFor (securityModel : Int) (sn : CString) (gp : VacmGroupEntry) : Prop where
  securityName : gp.securityName.str = sn
  securityModel : gp.securityModel = securityModel ∨ gp.securityModel = snmpSecModelAny

/-- An entry of a view for a name, with a subtree that is not shorter than those of the others. -/
structure DecidesOn (viewList : List VacmViewEntry) (vn : CString) (name : Oid)
    (vp : VacmViewEntry) : Prop where
  mem : vp ∈ viewList
  viewName : vp.viewName.str = vn
  family : InFamily vp name
  longest : ∀ other ∈ viewList, other.viewName.str = vn → InFamily other name →
    other.viewSubtree.length ≤ vp.viewSubtree.length

namespace AcmTables

def KnowsContext (t : AcmTables) (contextName : List Byte) : Prop :=
  contextName.length ≤ 32 ∧ CString.ofBuffer contextName ∈ t.contexts

/-- Why the access list is used with this answer, or this row of it. -/
inductive FindsAccess (t : AcmTables) (pdu : AcmPdu) (contextName : List Byte) :
    Option CString → Except AcmAnswer VacmAccessEntry → Prop
  | noSecName : FindsAccess t pdu contextName none (.error .noSecName)
  | noSuchContext {sn : CString} (unknown : ¬ t.KnowsContext contextName) :
      FindsAccess t pdu contextName (some sn) (.error .noSuchContext)
  | noGroup {sn : CString} (known : t.KnowsContext contextName)
      (missing : ∀ gp ∈ t.groupList, ¬ GroupFor pdu.securityModel sn gp) :
      FindsAccess t pdu contextName (some sn) (.error .noGroup)
  | noAccess {sn : CString} {gp : VacmGroupEntry} (known : t.KnowsContext contextName)
      (group : gp ∈ t.groupList) (groupFor : GroupFor pdu.securityModel sn gp)
      (missing : ∀ ap ∈ t.accessList, ¬ AccessMatches (requestOf pdu gp contextName) ap) :
      FindsAccess t pdu contextName (some sn) (.error .noAccess)
  | row {sn : CString} {gp : VacmGroupEntry} {ap : VacmAccessEntry}
      (known : t.KnowsContext contextName) (group : gp ∈ t.groupList)
      (groupFor : GroupFor pdu.securityModel sn gp) (access : ap ∈ t.accessList)
      (accessFor : AccessMatches (requestOf pdu gp contextName) ap) :
      FindsAccess t pdu contextName (some sn) (.ok ap)

inductive ChecksName (viewList : List VacmViewEntry) (vn : CString) (name : Oid) :
    AcmAnswer → Prop
  | noView (missing : ∀ vp ∈ viewList, vp.viewName.str = vn → ¬ InFamily vp name) :
      ChecksName viewList vn name .noView
  | notInView {vp : VacmViewEntry} (decides : DecidesOn viewList vn name vp)
      (excluded : vp.viewType = snmpViewExcluded) : ChecksName viewList vn name .notInView
  | success {vp : VacmViewEntry} (decides : DecidesOn viewList vn name vp)
      (included : vp.viewType ≠ snmpViewExcluded) : ChecksName viewList vn name .success

section Rows

variable {t : AcmTables} {pdu : AcmPdu}

theorem vacmGetGroupEntry_eq_none {groupList : List VacmGroupEntry} {securityModel : Int}
    {sn : CString} (missing : vacmGetGroupEntry groupList securityModel sn = none) :
    ∀ gp ∈ groupList, ¬ GroupFor securityModel sn gp := by
  intro gp mem groupFor
  rw [vacmGetGroupEntry_eq] at missing
  apply List.find?_eq_none.mp missing gp mem
  simp only [decide_eq_true_eq]
  exact ⟨groupFor.securityModel, groupFor.securityName⟩

theorem vacmGetGroupEntry_eq_some {groupList : List VacmGroupEntry} {securityModel : Int}
    {sn : CString} {gp : VacmGroupEntry}
    (found : vacmGetGroupEntry groupList securityModel sn = some gp) :
    gp ∈ groupList ∧ GroupFor securityModel sn gp := by
  rw [vacmGetGroupEntry_eq] at found
  have accepted := List.find?_some found
  simp only [decide_eq_true_eq] at accepted
  exact ⟨List.mem_of_find?_eq_some found, accepted.2, accepted.1⟩

theorem vacmGetAccessEntry_cases {accessList : List VacmAccessEntry} {request : AccessRequest}
    (short : request.contextName.strlen ≤ vacmMaxString) :
    match vacmGetAccessEntry accessList request.groupName request.contextName
      request.securityModel request.securityLevel with
    | none => ∀ ap ∈ accessList, ¬ AccessMatches request ap
    | some ap => ap ∈ accessList ∧ AccessMatches request ap := by
  cases copied : vacmString request.groupName with
  | none =>
      rw [vacmGetAccessEntry, copied]
      intro ap _ matched
      have short := ap.groupName.short
      rw [matched.groupName] at short
      exact absurd (vacmString_eq_none_iff.mp copied) (not_lt.mpr short)
  | some group =>
      cases copied' : vacmString request.contextName with
      | none => exact absurd (vacmString_eq_none_iff.mp copied') (not_lt.mpr short)
      | some context =>
          have mem_iff (ap : VacmAccessEntry) : ap ∈ accessList.filter (accessMatches group context
              request.securityModel request.securityLevel) ↔
                ap ∈ accessList ∧ AccessMatches request ap := by
            rw [List.mem_filter, accessMatches_iff, vacmString_eq_some_iff.mp copied,
              vacmString_eq_some_iff.mp copied']
          rw [vacmGetAccessEntry, copied, copied']
          simp only [getAccessLoop_eq]
          cases rows : accessList.filter (accessMatches group context request.securityModel
            request.securityLevel) with
          | nil =>
              intro ap mem matched
              exact List.ne_nil_of_mem ((mem_iff ap).mpr ⟨mem, matched⟩) rows
          | cons first rest =>
              rcases foldl_keepBest_mem replacesCurrent first rest with ⟨ap, mem, best⟩
              rw [List.foldl_cons, show keepBest replacesCurrent none first = some first from rfl,
                best]
              rw [← rows] at mem
              exact (mem_iff ap).mp mem

theorem findsAccess (sn : Option CString) (contextName : List Byte) :
    FindsAccess t pdu contextName sn (t.findAccess pdu sn contextName) := by
  cases sn with
  | none => exact .noSecName
  | some sn =>
      rw [findAccess]
      split
      · rename_i long
        exact .noSuchContext fun known => absurd long (not_lt.mpr known.1)
      split
      · rename_i unknown
        exact .noSuchContext fun known => unknown known.2
      · rename_i short notUnknown
        have known : t.KnowsContext contextName := ⟨not_lt.mp short, not_not.mp notUnknown⟩
        split
        · rename_i missing
          exact .noGroup known (vacmGetGroupEntry_eq_none missing)
        · rename_i gp found
          rcases vacmGetGroupEntry_eq_some found with ⟨group, groupFor⟩
          have strlen_le : (CString.ofBuffer contextName).strlen ≤ contextName.length :=
            (List.takeWhile_prefix _).length_le
          have cases_ := @vacmGetAccessEntry_cases t.accessList (requestOf pdu gp contextName)
            (strlen_le.trans known.1)
          dsimp only
          split
          · rename_i missing
            rw [missing] at cases_
            exact .noAccess known group groupFor cases_
          · rename_i ap row
            rw [row] at cases_
            exact .row known group groupFor cases_.1 cases_.2

theorem checksName (vn : CString) (name : Oid) :
    ChecksName t.viewList vn name (t.checkName vn name false) := by
  rw [checkName, if_neg Bool.false_ne_true]
  cases copied : vacmString vn with
  | none =>
      rw [netsnmpViewGet, copied]
      refine .noView fun vp _ viewName _ => ?_
      have short := vp.viewName.short
      rw [viewName] at short
      exact absurd (vacmString_eq_none_iff.mp copied) (not_lt.mpr short)
  | some view =>
      obtain rfl := vacmString_eq_some_iff.mp copied
      have best := isBest_netsnmpViewGet (show VacmMode.find ≠ .checkSubtree by simp) t.viewList
        view name
      have matches_iff (vp : VacmViewEntry) : viewMatches view name .find vp = true ↔
          vp.viewName.str = view.str ∧ InFamily vp name := by
        rw [viewMatches_find_iff_inFamily, VacmString.str_inj]
      split
      · rename_i missing
        rw [missing] at best
        exact .noView fun vp mem viewName family =>
          List.filter_eq_nil_iff.mp best vp mem ((matches_iff vp).mpr ⟨viewName, family⟩)
      · rename_i vp found
        rw [found] at best
        rcases best with ⟨mem, greatest⟩
        rw [List.mem_filter, matches_iff] at mem
        have decides : DecidesOn t.viewList view.str name vp := by
          refine ⟨mem.1, mem.2.1, mem.2.2, fun other otherMem viewName family => ?_⟩
          have le := greatest other (List.mem_filter.mpr ⟨otherMem,
            (matches_iff other).mpr ⟨viewName, family⟩⟩)
          exact (Prod.Lex.toLex_le_toLex.mp le).elim le_of_lt fun same => same.1.le
        split
        · exact .notInView decides ‹_›
        · exact .success decides ‹_›

theorem isIncluded_of_agrees {viewSubtree : Oid} {vpShorter vpLonger vpret : Option VacmViewEntry}
    (agrees : Agrees viewSubtree vpShorter vpLonger vpret)
    (consistent : longerContradicts vpShorter vpLonger = false) :
    isIncluded vpret = isIncluded vpShorter := by
  rcases agrees.decided with rfl | ⟨entry, longer, rfl, -, rfl, type_eq⟩
  · rfl
  · cases vpShorter with
    | none => simpa [longerContradicts, isIncluded, ← type_eq] using consistent
    | some shorter =>
        have type_eq' : longer.viewType = shorter.viewType := by
          simpa [longerContradicts] using consistent
        rw [isIncluded, isIncluded, ← type_eq, type_eq']

theorem checkName_eq_success_iff {vn : CString} {name : Oid} :
    t.checkName vn name false = .success ↔
      isIncluded (netsnmpViewGet t.viewList vn name .find) = true := by
  rw [checkName, if_neg Bool.false_ne_true]
  cases netsnmpViewGet t.viewList vn name .find with
  | none => simp [isIncluded]
  | some vp => simp [isIncluded]

theorem checkName_append (vn : CString) (name more : Oid) :
    (t.checkName vn name true = .success → t.checkName vn (name ++ more) false = .success) ∧
      (t.checkName vn name true = .notInView → t.checkName vn (name ++ more) false ≠ .success) := by
  rw [ne_eq, checkName_eq_success_iff, checkName, if_pos rfl]
  cases copied : vacmString vn with
  | none => simp [netsnmpViewSubtreeCheck, netsnmpViewGet, copied, isIncluded, VacmAnswer.toAcm]
  | some view =>
      rw [netsnmpViewGet_find copied]
      simp only [netsnmpViewSubtreeCheck, copied]
      cases checked : subtreeCheckLoop view name t.viewList none none with
      | none => simp [VacmAnswer.toAcm]
      | some ending =>
          have agrees : Agrees name ending.1 ending.2
              (viewGetLoop view (name ++ more) .find t.viewList none 0).1 :=
            agrees_loops t.viewList ⟨by simp, .inl rfl⟩ 0 checked
          cases contradicts : longerContradicts ending.1 ending.2 with
          | true => simp [contradicts, VacmAnswer.toAcm]
          | false =>
              rw [isIncluded_of_agrees agrees contradicts]
              cases included : isIncluded ending.1 <;>
                simp [contradicts, included, VacmAnswer.toAcm]

end Rows

inductive Answers (t : AcmTables) (pdu : AcmPdu) (name : Oid) (type : Byte) : AcmAnswer → Prop
  | unsupported (unsupported : isUnsupported pdu type = true) : Answers t pdu name type .notInView
  | uncontrolled (uncontrolled : t.isControlled pdu = false) : Answers t pdu name type .noSecName
  | refused {answer : AcmAnswer} (supported : isUnsupported pdu type = false)
      (controlled : t.isControlled pdu = true) (finds : t.FindsAccess pdu (t.securityNameOf pdu).2
        (t.securityNameOf pdu).1 (.error answer)) : Answers t pdu name type answer
  | checked {ap : VacmAccessEntry} {answer : AcmAnswer}
      (supported : isUnsupported pdu type = false) (controlled : t.isControlled pdu = true)
      (finds : t.FindsAccess pdu (t.securityNameOf pdu).2 (t.securityNameOf pdu).1 (.ok ap))
      (checks : ChecksName t.viewList (ap.viewName (viewtypeOf pdu.command)) name answer) :
      Answers t pdu name type answer

/-- The checks of a request, of subtrees and of variables. -/
structure ControlsAccess (t : AcmTables) (pdu : AcmPdu) : Prop where
  answers : alwaysInView pdu = false → ∀ name type,
    Answers t pdu name type (t.inAView pdu name type).1
  /-- What the check of the request refuses is refused for every variable, for the same reason. -/
  initially : (t.checkAccess pdu).1 ≠ .success → ∀ name type, isUnsupported pdu type = false →
    (t.inAView pdu name type).1 = (t.checkAccess pdu).1
  inside : ∀ name, (t.netsnmpAcmCheckSubtree pdu name).1 = .success → ∀ more type,
    isUnsupported pdu type = false → (t.inAView pdu (name ++ more) type).1 = .success
  outside : ∀ name, (t.netsnmpAcmCheckSubtree pdu name).1 = .notInView → ∀ more type,
    (t.inAView pdu (name ++ more) type).1 ≠ .success
  /-- A check does not change what the later ones answer. -/
  again : ∀ name type name' type', (t.inAView (t.inAView pdu name type).2 name' type').1 =
    (t.inAView pdu name' type').1

section Checks

variable {t : AcmTables} {pdu : AcmPdu}

theorem securityNameOf_again : t.securityNameOf { pdu with contextName :=
    (t.securityNameOf pdu).2 } = t.securityNameOf pdu := by
  unfold securityNameOf
  split
  · cases t.getSecName pdu.tDomain pdu.transportData pdu.community with
    | none => rfl
    | some names => cases names <;> rfl
  · split <;> rfl

theorem inAView_of_supported {name : Oid} {type : Byte}
    (supported : isUnsupported pdu type = false) :
    t.inAView pdu name type = t.callAcm pdu (some name) false := by
  simp [inAView, supported]

theorem callAcm_again (name : Option Oid) (checkSubtree : Bool) : ∃ contextName,
    (t.callAcm pdu name checkSubtree).2 = { pdu with contextName } ∧
      ∀ name' checkSubtree', (t.callAcm { pdu with contextName } name' checkSubtree').1 =
        (t.callAcm pdu name' checkSubtree').1 := by
  cases always : alwaysInView pdu with
  | true => exact ⟨pdu.contextName, by simp [callAcm, always], fun _ _ => rfl⟩
  | false =>
      cases controlled : t.isControlled pdu with
      | false => exact ⟨pdu.contextName, by simp [callAcm, always, controlled], fun _ _ => rfl⟩
      | true =>
          refine ⟨(t.securityNameOf pdu).2, ?_, fun name' checkSubtree' => ?_⟩
          · simp [callAcm, always, controlled, vacmInView, vacmCheckView]
          · have again := @securityNameOf_again t pdu
            have always' : alwaysInView { pdu with contextName := (t.securityNameOf pdu).2 } =
              false := always
            have controlled' : t.isControlled { pdu with contextName :=
              (t.securityNameOf pdu).2 } = true := controlled
            simp only [callAcm, always, always', controlled, controlled', vacmInView,
              vacmCheckView, again, if_true, Bool.false_eq_true, if_false]
            rfl

theorem callAcm_controlled (always : alwaysInView pdu = false)
    (controlled : t.isControlled pdu = true) (name : Option Oid) (checkSubtree : Bool) :
    (t.callAcm pdu name checkSubtree).1 =
      match t.findAccess pdu (t.securityNameOf pdu).1 (t.securityNameOf pdu).2 with
      | .error answer => answer
      | .ok ap => name.elim .success fun name =>
          t.checkName (ap.viewName (viewtypeOf pdu.command)) name checkSubtree := by
  simp only [callAcm, always, controlled, vacmInView, vacmCheckView, if_true, Bool.false_eq_true,
    if_false]

theorem callAcm_cases (t : AcmTables) (pdu : AcmPdu) :
    (∃ answer, ∀ name checkSubtree, (t.callAcm pdu name checkSubtree).1 = answer) ∨
      ∃ vn, ∀ name checkSubtree, (t.callAcm pdu name checkSubtree).1 =
        name.elim .success fun name => t.checkName vn name checkSubtree := by
  cases always : alwaysInView pdu with
  | true => exact .inl ⟨.success, fun name checkSubtree => by simp [callAcm, always]⟩
  | false =>
      cases controlled : t.isControlled pdu with
      | false =>
          exact .inl ⟨.noSecName, fun name checkSubtree => by simp [callAcm, always, controlled]⟩
      | true =>
          have checks := callAcm_controlled always controlled
          cases found : t.findAccess pdu (t.securityNameOf pdu).1 (t.securityNameOf pdu).2 with
          | error answer => exact .inl ⟨answer, by simpa only [found] using checks⟩
          | ok ap => exact .inr ⟨_, by simpa only [found] using checks⟩

theorem inAView_answers (always : alwaysInView pdu = false) (name : Oid) (type : Byte) :
    Answers t pdu name type (t.inAView pdu name type).1 := by
  cases supported : isUnsupported pdu type with
  | true =>
      simp only [inAView, always, supported, Bool.not_false, Bool.and_self, if_true]
      exact .unsupported supported
  | false =>
      rw [inAView_of_supported supported]
      cases controlled : t.isControlled pdu with
      | false =>
          simp only [callAcm, always, controlled, Bool.false_eq_true, if_false]
          exact .uncontrolled controlled
      | true =>
          have finds := @findsAccess t pdu (t.securityNameOf pdu).1 (t.securityNameOf pdu).2
          rw [callAcm_controlled always controlled]
          cases found : t.findAccess pdu (t.securityNameOf pdu).1 (t.securityNameOf pdu).2 with
          | error answer => exact .refused supported controlled (found ▸ finds)
          | ok ap => exact .checked supported controlled (found ▸ finds) (checksName _ name)

theorem controlsAccess (t : AcmTables) (pdu : AcmPdu) : t.ControlsAccess pdu := by
  have refused {name : Oid} {type : Byte} (unsupported : isUnsupported pdu type = true)
      (granted : (t.inAView pdu name type).1 = .success) : alwaysInView pdu = true := by
    cases always : alwaysInView pdu with
    | true => rfl
    | false => simp [inAView, always, unsupported] at granted
  refine ⟨inAView_answers, ?_, ?_, ?_, ?_⟩
  · intro fails name type supported
    rw [inAView_of_supported supported]
    rcases callAcm_cases t pdu with ⟨answer, same⟩ | ⟨vn, checks⟩
    · rw [checkAccess, same, same]
    · rw [checkAccess, checks] at fails
      exact absurd rfl fails
  · intro name inside more type supported
    rw [inAView_of_supported supported]
    rcases callAcm_cases t pdu with ⟨answer, same⟩ | ⟨vn, checks⟩
    · rwa [netsnmpAcmCheckSubtree, same, ← same (some (name ++ more)) false] at inside
    · rw [netsnmpAcmCheckSubtree, checks] at inside
      rw [checks]
      exact (checkName_append vn name more).1 inside
  · intro name outside more type
    cases supported : isUnsupported pdu type with
    | true =>
        intro granted
        have always := refused supported granted
        simp [netsnmpAcmCheckSubtree, callAcm, always] at outside
    | false =>
        rw [inAView_of_supported supported]
        rcases callAcm_cases t pdu with ⟨answer, same⟩ | ⟨vn, checks⟩
        · rw [netsnmpAcmCheckSubtree, same] at outside
          rw [same, outside]
          nofun
        · rw [netsnmpAcmCheckSubtree, checks] at outside
          rw [checks]
          exact (checkName_append vn name more).2 outside
  · intro name type name' type'
    by_cases unsupported : (!alwaysInView pdu && isUnsupported pdu type) = true
    · have kept : (t.inAView pdu name type).2 = pdu := by rw [inAView, if_pos unsupported]
      rw [kept]
    · rcases @callAcm_again t pdu (some name) false with ⟨contextName, after, same⟩
      have kept : (t.inAView pdu name type).2 = { pdu with contextName } := by
        rw [inAView, if_neg unsupported, after]
      rw [kept]
      by_cases unsupported' : (!alwaysInView pdu && isUnsupported pdu type') = true
      · have still : (!alwaysInView { pdu with contextName } && isUnsupported
          { pdu with contextName } type') = true := unsupported'
        rw [inAView, inAView, if_pos still, if_pos unsupported']
      · have still : ¬ (!alwaysInView { pdu with contextName } && isUnsupported
          { pdu with contextName } type') = true := unsupported'
        rw [inAView, inAView, if_neg still, if_neg unsupported']
        exact same (some name') false

end Checks

end AcmTables

end NetSnmp
