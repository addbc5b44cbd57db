import NetSnmp.Agent.TrapReading
import NetSnmp.Snmp.Message

/-!
# Sending traps

`netsnmp_send_traps`: the templates of version 1 and 2 and what the trap sinks are given.
-/

namespace NetSnmp

def snmpTrapAuthfail : Int := 4

def snmpAuthenticatedTrapsDisabled : Int := 2

def ucdMsgFlagForcePduCopy : UInt64 := 0x400

structure TrapSink where
  version : Int
  pdutype : Int
  sessVersion : Int
  deriving DecidableEq, Repr

/-- What `netsnmp_send_traps` uses of the agent. -/
structure TrapAgent where
  library : Library
  uptime : Nat := 0
  enableauthentraps : Int := snmpAuthenticatedTrapsDisabled
  /-- The configured address of traps of version 1, if there is one and it is resolved. -/
  v1trapaddress : Option (Vector Byte 4) := none
  myaddr : Vector Byte 4 := #v[127, 0, 0, 1]
  nextReqid : Int := 1
  sinks : List TrapSink := []

/-- `send_trap_to_sess`, what it does to the template. -/
def sendTrapToSess (agent : TrapAgent) (sink : TrapSink) (templatePdu : TrapPdu) : TrapPdu :=
  if runtimeProtocolSkip agent.library sink.sessVersion then templatePdu
  else if sink.sessVersion = snmpVersion1 ∧ templatePdu.command ≠ snmpMsgTrap then templatePdu
  else if sink.sessVersion ≠ snmpVersion1 ∧ templatePdu.command = snmpMsgTrap then templatePdu
  else { templatePdu with version := sink.sessVersion }

structure HandedTraps where
  sinks : List (TrapSink × TrapPdu)
  sendTrap1 : Option TrapPdu
  sendTrap2 : Option TrapPdu
  deriving DecidableEq, Repr

def HandedTraps.before (sink : TrapSink) (pdu : TrapPdu) (handed : HandedTraps) : HandedTraps :=
  { handed with sinks := (sink, pdu) :: handed.sinks }

def handTemplates (agent : TrapAgent) (templateV1pdu templateV2pdu : Option TrapPdu) :
    List TrapSink → HandedTraps
  | [] => ⟨[], templateV1pdu, templateV2pdu⟩
  | sink :: sinks =>
      if sink.version = snmpVersion1 then
        match templateV1pdu with
        | none => handTemplates agent none templateV2pdu sinks
        | some v1pdu =>
            if agent.library.disableV1 then handTemplates agent (some v1pdu) templateV2pdu sinks
            else (handTemplates agent (some (sendTrapToSess agent sink v1pdu)) templateV2pdu
              sinks).before sink v1pdu
      else
        match templateV2pdu with
        | none => handTemplates agent templateV1pdu none sinks
        | some v2pdu =>
            let v2pdu := { v2pdu with command := sink.pdutype }
            (handTemplates agent templateV1pdu (some (sendTrapToSess agent sink v2pdu))
              sinks).before sink v2pdu

inductive TrapTemplates where
  | built (templateV1pdu templateV2pdu : Option TrapPdu)
  | failed
  | faulted
  deriving DecidableEq, Repr

def snmpPduCreate (agent : TrapAgent) (command : Int) : TrapPdu :=
  { version := snmpDefaultVersion
    command := command
    errstat := snmpDefaultErrstat
    errindex := snmpDefaultErrindex
    reqid := agent.nextReqid }

/-- `sysUpTime.0` as `snmp_varlist_add_variable` makes it. -/
def sysuptimeVarbind (uptime : Nat) : VariableList :=
  ⟨sysuptimeOid, asnTimeticks, setVarULong uptime⟩

def convertTemplate (converting : TrapMemory) (v2pdu : TrapPdu) : TrapTemplates :=
  match converting.convertV2pduToV1 v2pdu with
  | .converted v1pdu => .built (some v1pdu) (some v2pdu)
  | .null => .built none (some v2pdu)
  | .faulted => .faulted

/-- The templates of a notification, `trap == -1`. Whether it is a standard trap is looked up in
the first varbind that was given. -/
def notificationTemplates (sending converting : TrapMemory) (agent : TrapAgent) (enterprise : Oid)
    (vblist : List VariableList) : TrapTemplates :=
  match vblist with
  | [] => .failed
  | first :: rest =>
      let vars :=
        if snmpOidCompare first.name sysuptimeOid = 0 then first :: rest
        else sysuptimeVarbind agent.uptime :: first :: rest
      match vars with
      | _ :: trapVb :: _ =>
          if snmpOidCompare trapVb.name snmptrapOid ≠ 0 then .failed
          else convertTemplate converting { snmpPduCreate agent snmpMsgTrap2 with
            variableList := appendMissing vars (sending.isStandard first)
              snmptrapenterpriseOid asnObjectId (.objid enterprise) }
      | _ => .failed

def trapTemplates (agent : TrapAgent) (trap specific : Int) (enterprise : Oid)
    (vblist : List VariableList) : TrapTemplates :=
  let v1pdu := { snmpPduCreate agent snmpMsgTrap with
    trapType := trap
    specificType := specific
    time := agent.uptime
    enterprise := enterprise
    flags := ucdMsgFlagForcePduCopy
    variableList := vblist }
  .built (some v1pdu) (convertV1pduToV2 v1pdu)

/-- How a call of `netsnmp_send_traps` ends. -/
inductive SentTraps where
  | sent (handed : HandedTraps)
  | failed
  | faulted
  deriving DecidableEq, Repr

/-- The templates are completed and handed on, unless it is a trap for a failed authentication
and these are ignored. -/
def handOn (agent : TrapAgent) (context : Option (List Byte)) : TrapTemplates → SentTraps
  | .failed => .failed
  | .faulted => .faulted
  | .built v1pdu v2pdu =>
      if v1pdu.any (fun pdu => pdu.trapType = snmpTrapAuthfail ∧
          agent.enableauthentraps = snmpAuthenticatedTrapsDisabled) then
        .sent ⟨[], none, none⟩
      else
        let v1pdu := v1pdu.map fun pdu =>
          { pdu with agentAddr := agent.v1trapaddress.getD agent.myaddr }
        let v2pdu := v2pdu.map fun pdu =>
          { pdu with contextName := context.getD pdu.contextName }
        .sent (handTemplates agent v1pdu v2pdu agent.sinks)

/-- `netsnmp_send_traps`. The varbinds are read from one copy, and converted from another one. -/
def netsnmpSendTraps (sending converting : TrapMemory) (agent : TrapAgent) (trap specific : Int)
    (enterprise : Oid) (vars : List VariableList) (context : Option (List Byte)) : SentTraps :=
  let vblist := copyVarlist vars 10000
  handOn agent context
    (if trap = -1 then notificationTemplates sending converting agent enterprise vblist
    else trapTemplates agent trap specific enterprise vblist)

def TrapMemory.withBehind (memory : TrapMemory) (behind : VariableList → Nat → Nat) : TrapMemory :=
  { memory with behind := behind }

/-- A value of at most five sub-identifiers is in the buffer of its variable, and behind the buffer
is the `data` pointer, which is `NULL` in a copy. -/
def TrapMemory.EndsBuffer (memory : TrapMemory) (behind : VariableList → Nat → Nat) : Prop :=
  ∀ var, (memory.objidOf var).length ≤ 5 → behind var 5 = 0

/-- The trap sinks are given the same for a notification with its uptime as for one without it that
is sent when this is the uptime of the agent, whatever stands behind the values. -/
def SendsSame (memory : TrapMemory) (uptime : Nat) (enterprise : Oid)
    (vars : List VariableList) : Prop :=
  ∀ (agent : TrapAgent) (specific : Int) (context : Option (List Byte))
    (sending converting sending' converting' : VariableList → Nat → Nat),
    memory.EndsBuffer sending → memory.EndsBuffer converting →
    memory.EndsBuffer sending' → memory.EndsBuffer converting' →
    ∃ handed,
      netsnmpSendTraps (memory.withBehind sending) (memory.withBehind converting) agent (-1)
        specific enterprise (sysuptimeVarbind uptime :: vars) context = .sent handed ∧
      netsnmpSendTraps (memory.withBehind sending') (memory.withBehind converting')
        { agent with uptime := uptime } (-1) specific enterprise vars context = .sent handed

/-- What makes the uptime harmless: all varbinds are copied, a standard trap names its enterprise,
the trap OID is not read past its end or it does not matter, and the address can be copied. -/
structure UptimeHarmless (objid : Oid) (rest : List VariableList) : Prop where
  count : rest.length + 1 < 10000
  standard : trapPrefix <+: objid → ∃ var ∈ rest, var.name = snmptrapenterpriseOid
  read : objid <+: trapPrefix → 5 < objid.length →
    (∃ var ∈ rest, var.name = snmptrapenterpriseOid) ∧ ∃ var ∈ rest, var.type = asnCounter64
  address : (∃ var ∈ rest, var.type = asnCounter64) ∨ objid.length ≤ 2 ∨
    ∀ var valLen, findVarbindInList rest agentaddrOid = some var → var.val ≠ .unset valLen

section Copies

variable {vars : List VariableList} {name : Oid} {copyCount : Nat}

theorem snmpCloneVar_snmpCloneVar (var : VariableList) :
    snmpCloneVar (snmpCloneVar var) = snmpCloneVar var := by
  rcases var with ⟨name, type, val⟩
  cases val <;> rfl

theorem copyVarlist_of_length_le (short : vars.length ≤ copyCount) :
    copyVarlist vars copyCount = vars.map snmpCloneVar := by
  rw [copyVarlist_eq_map, List.take_of_length_le short]

theorem copyVarlist_map (short : vars.length ≤ copyCount) :
    copyVarlist (vars.map snmpCloneVar) copyCount = vars.map snmpCloneVar := by
  rw [copyVarlist_of_length_le (by rwa [List.length_map]), List.map_map]
  apply List.map_congr_left
  intro var _
  exact snmpCloneVar_snmpCloneVar var

theorem findVarbindInList_map (vars : List VariableList) (name : Oid) :
    findVarbindInList (vars.map snmpCloneVar) name =
      (findVarbindInList vars name).map snmpCloneVar := by
  simp only [findVarbindInList, List.find?_map, Function.comp_def, snmpCloneVar_name]

theorem snmpCloneVar_unset_iff {var : VariableList} :
    (∃ valLen, (snmpCloneVar var).val = .unset valLen) ↔ ∃ valLen, var.val = .unset valLen := by
  rcases var with ⟨name, type, val⟩
  cases val <;> simp [snmpCloneVar]

theorem set_map_iff : (∀ var valLen, findVarbindInList (vars.map snmpCloneVar) name = some var →
      var.val ≠ .unset valLen) ↔
    ∀ var valLen, findVarbindInList vars name = some var → var.val ≠ .unset valLen := by
  rw [findVarbindInList_map]
  cases findVarbindInList vars name with
  | none => simp
  | some var =>
      constructor
      · rintro isSet _ valLen ⟨⟩ unset
        rcases snmpCloneVar_unset_iff.mpr ⟨valLen, unset⟩ with ⟨valLen', unset'⟩
        exact isSet _ valLen' rfl unset'
      · rintro isSet _ valLen ⟨⟩ unset
        rcases snmpCloneVar_unset_iff.mp ⟨valLen, unset⟩ with ⟨valLen', unset'⟩
        exact isSet _ valLen' rfl unset'

theorem findVarbindInList_isNone_iff :
    (findVarbindInList vars name).isNone = true ↔ ∀ var ∈ vars, var.name ≠ name := by
  simp [findVarbindInList, snmpOidCompare_eq_zero_iff]

end Copies

section Read

variable {memory : TrapMemory} {behind : VariableList → Nat → Nat} {var : VariableList}

@[simp] theorem TrapMemory.objidOf_withBehind (memory : TrapMemory)
    (behind : VariableList → Nat → Nat) (var : VariableList) :
    (memory.withBehind behind).objidOf var = memory.objidOf var := rfl

@[simp] theorem TrapMemory.behind_withBehind (memory : TrapMemory)
    (behind : VariableList → Nat → Nat) : (memory.withBehind behind).behind = behind := rfl

@[simp] theorem TrapMemory.enterprise_withBehind (memory : TrapMemory)
    (behind : VariableList → Nat → Nat) (vblist : List VariableList) :
    (memory.withBehind behind).enterprise vblist = memory.enterprise vblist := rfl

theorem isStandard_of_short (ends : memory.EndsBuffer behind)
    (short : (memory.objidOf var).length ≤ 5) :
    (memory.withBehind behind).isStandard var = false := by
  apply Bool.eq_false_iff.mpr
  intro standard
  have same : (memory.withBehind behind).front var = trapPrefix :=
    snmpOidCompare_eq_zero_iff.mp (of_decide_eq_true standard)
  have sixth : ((memory.withBehind behind).front var)[5]? = some (behind var 5) := by
    have outside : (memory.objidOf var)[5]? = none := List.getElem?_eq_none short
    simp [TrapMemory.front, TrapMemory.subidAt, trapPrefix, snmpOidSnmpmodules, outside]
  rw [same, ends var short] at sixth
  cases sixth

theorem identity_withBehind {behind' : VariableList → Nat → Nat}
    (ends : memory.EndsBuffer behind) (ends' : memory.EndsBuffer behind')
    (apart : 5 < (memory.objidOf var).length → ¬ memory.objidOf var <+: trapPrefix)
    (vblist : List VariableList) :
    (memory.withBehind behind).identity var vblist =
      (memory.withBehind behind').identity var vblist := by
  by_cases short : (memory.objidOf var).length ≤ 5
  · simp only [TrapMemory.identity, isStandard_of_short ends short,
      isStandard_of_short ends' short, TrapMemory.objidOf_withBehind, Bool.false_eq_true, if_false]
  · have outside := apart (by omega)
    have standard : (memory.withBehind behind).isStandard var =
        (memory.withBehind behind').isStandard var := by
      apply Bool.eq_iff_iff.mpr
      rw [TrapMemory.isStandard_iff, TrapMemory.isStandard_iff]
      · rfl
      · exact outside
      · exact outside
    by_cases below : (memory.withBehind behind).isStandard var = true
    · have isBelow : trapPrefix <+: (memory.withBehind behind).objidOf var :=
        (@TrapMemory.isStandard_iff (memory.withBehind behind) var outside).mp below
      rw [TrapMemory.objidOf_withBehind] at isBelow
      have longer : trapPrefix.length < (memory.objidOf var).length := by
        apply lt_of_le_of_ne isBelow.length_le
        intro same
        exact outside (isBelow.eq_of_length same ▸ List.prefix_rfl)
      have tenth : (memory.withBehind behind).subidAt var trapPrefix.length =
          (memory.withBehind behind').subidAt var trapPrefix.length := by
        simp only [TrapMemory.subidAt, TrapMemory.objidOf_withBehind,
          List.getElem?_eq_getElem longer, Option.getD_some]
      simp only [TrapMemory.identity, ← standard, below, if_true, tenth,
        TrapMemory.enterprise_withBehind]
    · simp only [TrapMemory.identity, ← standard, below, Bool.false_eq_true, if_false,
        TrapMemory.objidOf_withBehind]

def standardBehind (memory : TrapMemory) (k : Nat) (var : VariableList) (pos : Nat) : Nat :=
  if (memory.objidOf var).length ≤ 5 then 0 else (trapPrefix ++ [k]).getD pos 0

theorem standardBehind_endsBuffer (memory : TrapMemory) (k : Nat) :
    memory.EndsBuffer (standardBehind memory k) := by
  intro var short
  exact if_pos short

theorem subidAt_standardBehind {k pos : Nat} (isPrefix : memory.objidOf var <+: trapPrefix)
    (long : 5 < (memory.objidOf var).length) :
    (memory.withBehind (standardBehind memory k)).subidAt var pos =
      (trapPrefix ++ [k]).getD pos 0 := by
  have notShort : ¬ (memory.objidOf var).length ≤ 5 := by omega
  rcases isPrefix with ⟨more, eq⟩
  simp only [TrapMemory.subidAt, TrapMemory.objidOf_withBehind]
  by_cases inside : pos < (memory.objidOf var).length
  · rw [← eq, List.append_assoc, List.getD_eq_getElem?_getD, List.getElem?_append_left inside,
      List.getElem?_eq_getElem inside]
    rfl
  · rw [List.getElem?_eq_none (by omega)]
    simp only [TrapMemory.behind_withBehind, standardBehind, if_neg notShort, Option.getD_none]

theorem isStandard_standardBehind (k : Nat) (isPrefix : memory.objidOf var <+: trapPrefix)
    (long : 5 < (memory.objidOf var).length) :
    (memory.withBehind (standardBehind memory k)).isStandard var = true := by
  have front : (memory.withBehind (standardBehind memory k)).front var = trapPrefix := by
    have each : (memory.withBehind (standardBehind memory k)).subidAt var =
        fun pos => (trapPrefix ++ [k]).getD pos 0 := by
      funext pos
      exact subidAt_standardBehind isPrefix long
    rw [TrapMemory.front, each]
    rfl
  simp [TrapMemory.isStandard, front, snmpOidCompare_eq_zero_iff]

end Read

section Templates

variable {memory : TrapMemory} {agent : TrapAgent} {trap : VariableList}
  {rest : List VariableList} {objid enterprise : Oid} {uptime copyCount : Nat} {standard : Bool}

theorem handTemplates_uptime (agent : TrapAgent) (uptime : Nat) (v1pdu v2pdu : Option TrapPdu)
    (sinks : List TrapSink) :
    handTemplates { agent with uptime := uptime } v1pdu v2pdu sinks =
      handTemplates agent v1pdu v2pdu sinks := by
  have same (sink : TrapSink) (pdu : TrapPdu) :
      sendTrapToSess { agent with uptime := uptime } sink pdu = sendTrapToSess agent sink pdu := rfl
  induction sinks generalizing v1pdu v2pdu with
  | nil => rfl
  | cons sink sinks ih => simp only [handTemplates, ih, same]

theorem handOn_uptime (agent : TrapAgent) (uptime : Nat) (context : Option (List Byte))
    (templates : TrapTemplates) :
    handOn { agent with uptime := uptime } context templates = handOn agent context templates := by
  cases templates with
  | built v1pdu v2pdu => simp only [handOn, handTemplates_uptime]
  | failed => rfl
  | faulted => rfl

def v2TemplateOf (agent : TrapAgent) (vars : List VariableList) : TrapPdu :=
  { snmpPduCreate agent snmpMsgTrap2 with variableList := vars }

def trapTemplateOf (agent : TrapAgent) (standard : Bool) (uptime : Nat) (enterprise : Oid)
    (vars : List VariableList) : TrapPdu :=
  v2TemplateOf agent (appendMissing (sysuptimeVarbind uptime :: vars) standard
    snmptrapenterpriseOid asnObjectId (.objid enterprise))

theorem copyVarlist_cons (var : VariableList) (vars : List VariableList) (copyCount : Nat) :
    copyVarlist (var :: vars) (copyCount + 1) =
      snmpCloneVar var :: copyVarlist vars copyCount := by
  simp [copyVarlist_eq_map]

theorem snmpCloneVar_sysuptimeVarbind (uptime : Nat) :
    snmpCloneVar (sysuptimeVarbind uptime) = sysuptimeVarbind uptime := rfl

variable (sending converting : TrapMemory) (specific : Int) (context : Option (List Byte))

theorem netsnmpSendTraps_with_uptime (trapName : trap.name = snmptrapOid) :
    netsnmpSendTraps sending converting agent (-1) specific enterprise
        (sysuptimeVarbind uptime :: trap :: rest) context =
      handOn agent context (convertTemplate converting
        (trapTemplateOf agent (sending.isStandard (sysuptimeVarbind uptime)) uptime enterprise
          (snmpCloneVar trap :: copyVarlist rest 9998))) := by
  have copied : copyVarlist (sysuptimeVarbind uptime :: trap :: rest) 10000 =
      sysuptimeVarbind uptime :: snmpCloneVar trap :: copyVarlist rest 9998 := by
    rw [copyVarlist_cons _ _ 9999, copyVarlist_cons _ _ 9998, snmpCloneVar_sysuptimeVarbind]
  have cloneName : snmpOidCompare (snmpCloneVar trap).name snmptrapOid = 0 := by
    rw [snmpCloneVar_name, trapName, snmpOidCompare_eq_zero_iff]
  have first : snmpOidCompare (sysuptimeVarbind uptime).name sysuptimeOid = 0 :=
    snmpOidCompare_eq_zero_iff.mpr rfl
  simp only [netsnmpSendTraps, if_true, copied, notificationTemplates, first, cloneName, ne_eq,
    not_true_eq_false, if_false]
  rfl

theorem netsnmpSendTraps_without_uptime (trapName : trap.name = snmptrapOid) :
    netsnmpSendTraps sending converting { agent with uptime := uptime } (-1) specific enterprise
        (trap :: rest) context =
      handOn agent context (convertTemplate converting
        (trapTemplateOf agent (sending.isStandard (snmpCloneVar trap)) uptime enterprise
          (snmpCloneVar trap :: copyVarlist rest 9999))) := by
  have copied : copyVarlist (trap :: rest) 10000 =
      snmpCloneVar trap :: copyVarlist rest 9999 := copyVarlist_cons _ _ 9999
  have cloneName : snmpOidCompare (snmpCloneVar trap).name snmptrapOid = 0 := by
    rw [snmpCloneVar_name, trapName, snmpOidCompare_eq_zero_iff]
  have other : ¬ snmpOidCompare (snmpCloneVar trap).name sysuptimeOid = 0 := by
    rw [snmpCloneVar_name, trapName]
    decide
  simp only [netsnmpSendTraps, if_true, copied, notificationTemplates, other, cloneName, ne_eq,
    not_true_eq_false, if_false, handOn_uptime]
  rfl

/-- The template as it is without an appended varbind, for a list that is copied whole. -/
def plainTemplateOf (agent : TrapAgent) (uptime : Nat) (trap : VariableList)
    (rest : List VariableList) : TrapPdu :=
  v2TemplateOf agent
    (sysuptimeVarbind uptime :: snmpCloneVar trap :: rest.map snmpCloneVar)

theorem trapTemplateOf_of_named (short : rest.length ≤ copyCount)
    (named : standard = true → ∃ var ∈ rest, var.name = snmptrapenterpriseOid) :
    trapTemplateOf agent standard uptime enterprise
        (snmpCloneVar trap :: copyVarlist rest copyCount) =
      plainTemplateOf agent uptime trap rest := by
  rw [trapTemplateOf, plainTemplateOf, copyVarlist_of_length_le short, appendMissing, if_neg]
  rw [Bool.and_eq_true, findVarbindInList_isNone_iff]
  rintro ⟨missing, isStandard⟩
  rcases named isStandard with ⟨var, mem, name⟩
  apply missing (snmpCloneVar var)
  · exact List.mem_cons_of_mem _ (List.mem_cons_of_mem _ (List.mem_map_of_mem mem))
  · rw [snmpCloneVar_name, name]

theorem length_copyVarlist (vars : List VariableList) (copyCount : Nat) :
    (copyVarlist vars copyCount).length = min copyCount vars.length := by
  rw [copyVarlist_eq_map, List.length_map, List.length_take]

theorem length_appendMissing (vars : List VariableList) (applies : Bool) (name : Oid) (type : Byte)
    (val : Vardata) : (appendMissing vars applies name type val).length = vars.length +
      if (findVarbindInList vars name).isNone && applies then 1 else 0 := by
  rw [appendMissing]
  split_ifs
  · rw [snmpVarlistAddVariable, List.length_append, List.length_singleton]
  · rfl

theorem length_trapTemplateOf : (trapTemplateOf agent standard uptime enterprise
    (snmpCloneVar trap :: copyVarlist rest copyCount)).variableList.length =
      2 + min copyCount rest.length +
        if (findVarbindInList (sysuptimeVarbind uptime :: snmpCloneVar trap ::
          copyVarlist rest copyCount) snmptrapenterpriseOid).isNone && standard then 1 else 0 := by
  rw [trapTemplateOf, v2TemplateOf, length_appendMissing, List.length_cons, List.length_cons,
    length_copyVarlist]
  omega

theorem trapTemplateOf_ne_of_long (long : 9999 ≤ rest.length) :
    (trapTemplateOf agent false uptime enterprise
      (snmpCloneVar trap :: copyVarlist rest 9998)).variableList ≠
    (trapTemplateOf agent standard uptime enterprise
      (snmpCloneVar trap :: copyVarlist rest 9999)).variableList := by
  intro same
  have lengths := congrArg List.length same
  rw [length_trapTemplateOf, length_trapTemplateOf, Bool.and_false] at lengths
  simp only [Bool.false_eq_true, if_false] at lengths
  omega

theorem trapTemplateOf_ne_of_missing (trapName : trap.name = snmptrapOid)
    (short : rest.length ≤ 9998)
    (missing : ¬ ∃ var ∈ rest, var.name = snmptrapenterpriseOid) :
    (trapTemplateOf agent false uptime enterprise
      (snmpCloneVar trap :: copyVarlist rest 9998)).variableList ≠
    (trapTemplateOf agent true uptime enterprise
      (snmpCloneVar trap :: copyVarlist rest 9999)).variableList := by
  intro same
  have lengths := congrArg List.length same
  have isNone : (findVarbindInList (sysuptimeVarbind uptime :: snmpCloneVar trap ::
      copyVarlist rest 9999) snmptrapenterpriseOid).isNone = true := by
    rw [findVarbindInList_isNone_iff]
    intro var mem name
    rcases List.mem_cons.mp mem with rfl | mem'
    · cases name
    · rcases List.mem_cons.mp mem' with rfl | copied
      · rw [snmpCloneVar_name, trapName] at name
        cases name
      · rw [copyVarlist_eq_map] at copied
        rcases List.mem_map.mp copied with ⟨source, sourceMem, rfl⟩
        rw [snmpCloneVar_name] at name
        exact missing ⟨source, List.mem_of_mem_take sourceMem, name⟩
  rw [length_trapTemplateOf, length_trapTemplateOf, isNone, Bool.and_false, Bool.and_true]
    at lengths
  simp only [Bool.false_eq_true, if_false, if_true] at lengths
  omega

theorem exists_type_map_iff {vars : List VariableList} {type : Byte} :
    (∃ var ∈ vars.map snmpCloneVar, var.type = type) ↔ ∃ var ∈ vars, var.type = type := by
  simp [List.mem_map]

theorem convert_plainTemplateOf_counter64 (trapName : trap.name = snmptrapOid)
    (short : rest.length ≤ 9998) (counter : ∃ var ∈ rest, var.type = asnCounter64) :
    memory.convertV2pduToV1 (plainTemplateOf agent uptime trap rest) = .null := by
  have copied : ∃ var ∈ copyVarlist (rest.map snmpCloneVar) 9998, var.type = asnCounter64 := by
    rw [copyVarlist_map short]
    exact exists_type_map_iff.mpr counter
  apply convertV2pduToV1_of_counter64 copied rfl rfl
  rw [snmpCloneVar_name, trapName]

theorem convert_plainTemplateOf (trapName : trap.name = snmptrapOid)
    (short : rest.length ≤ 9998) (none : ¬ ∃ var ∈ rest, var.type = asnCounter64) :
    memory.convertV2pduToV1 (plainTemplateOf agent uptime trap rest) =
      convertedFrom { snmpClonePdu (plainTemplateOf agent uptime trap rest) with
          command := snmpMsgTrap }
        (memory.integerOf (sysuptimeVarbind uptime)) (rest.map snmpCloneVar)
        (memory.identity (snmpCloneVar trap) (snmpCloneVar trap :: rest.map snmpCloneVar))
        (memory.agentAddr (rest.map snmpCloneVar)
          (plainTemplateOf agent uptime trap rest).agentAddr) := by
  have uncopied : ¬ ∃ var ∈ copyVarlist (rest.map snmpCloneVar) 9998,
      var.type = asnCounter64 := by
    rw [copyVarlist_map short]
    exact mt exists_type_map_iff.mp none
  have cloneName : (snmpCloneVar trap).name = snmptrapOid := by rw [snmpCloneVar_name, trapName]
  have converted : memory.convertV2pduToV1 (plainTemplateOf agent uptime trap rest) = _ :=
    convertV2pduToV1_of_trap uncopied rfl rfl cloneName
  rw [copyVarlist_map short, snmpCloneVar_snmpCloneVar, snmpCloneVar_sysuptimeVarbind] at converted
  exact converted

end Templates

section Harmless

variable {memory : TrapMemory} {agent : TrapAgent} {context : Option (List Byte)}
  {trap : VariableList} {rest : List VariableList} {objid enterprise : Oid} {uptime : Nat}
  {behind behind' : VariableList → Nat → Nat}

theorem objidOf_snmpCloneVar (memory : TrapMemory) (trapVal : trap.val = .objid objid) :
    memory.objidOf (snmpCloneVar trap) = objid := by
  simp [snmpCloneVar, trapVal, TrapMemory.objidOf]

theorem objidOf_sysuptimeVarbind (memory : TrapMemory) (uptime : Nat) :
    (memory.objidOf (sysuptimeVarbind uptime)).length ≤ 5 := by
  simp [sysuptimeVarbind, setVarULong, TrapMemory.objidOf]

theorem sentTraps_of_built (agent : TrapAgent) (context : Option (List Byte))
    (v1pdu v2pdu : Option TrapPdu) :
    ∃ handed, handOn agent context (.built v1pdu v2pdu) = .sent handed := by
  simp only [handOn]
  split_ifs
  · exact ⟨_, rfl⟩
  · exact ⟨_, rfl⟩

theorem handOn_convertTemplate {converting converting' : TrapMemory} {v2pdu : TrapPdu}
    (returns : converting.convertV2pduToV1 v2pdu ≠ .faulted)
    (same : converting.convertV2pduToV1 v2pdu = converting'.convertV2pduToV1 v2pdu) :
    ∃ handed, handOn agent context (convertTemplate converting v2pdu) = .sent handed ∧
      handOn agent context (convertTemplate converting' v2pdu) = .sent handed := by
  have alike : convertTemplate converting' v2pdu = convertTemplate converting v2pdu := by
    rw [convertTemplate, convertTemplate, same]
  have built : ∃ v1pdu, convertTemplate converting v2pdu = .built v1pdu (some v2pdu) := by
    rw [convertTemplate]
    cases result : converting.convertV2pduToV1 v2pdu with
    | converted v1pdu => exact ⟨some v1pdu, rfl⟩
    | null => exact ⟨none, rfl⟩
    | faulted => exact absurd result returns
  rcases built with ⟨v1pdu, eq⟩
  rcases sentTraps_of_built agent context v1pdu (some v2pdu) with ⟨handed, sent⟩
  refine ⟨handed, ?_, ?_⟩
  · rw [eq, sent]
  · rw [alike, eq, sent]

theorem UptimeHarmless.named (harmless : UptimeHarmless objid rest)
    (trapVal : trap.val = .objid objid) (ends : memory.EndsBuffer behind)
    (standard : (memory.withBehind behind).isStandard (snmpCloneVar trap) = true) :
    ∃ var ∈ rest, var.name = snmptrapenterpriseOid := by
  have own := objidOf_snmpCloneVar memory trapVal
  by_cases short : objid.length ≤ 5
  · rw [isStandard_of_short ends (own ▸ short)] at standard
    cases standard
  · by_cases isPrefix : objid <+: trapPrefix
    · exact (harmless.read isPrefix (by omega)).1
    · apply harmless.standard
      have below : trapPrefix <+: (memory.withBehind behind).objidOf (snmpCloneVar trap) :=
        (TrapMemory.isStandard_iff (own ▸ isPrefix)).mp standard
      exact own ▸ below

theorem UptimeHarmless.convert (harmless : UptimeHarmless objid rest)
    (trapName : trap.name = snmptrapOid) (trapVal : trap.val = .objid objid)
    (ends : memory.EndsBuffer behind) (ends' : memory.EndsBuffer behind') :
    (memory.withBehind behind).convertV2pduToV1 (plainTemplateOf agent uptime trap rest) ≠
        .faulted ∧
      (memory.withBehind behind).convertV2pduToV1 (plainTemplateOf agent uptime trap rest) =
        (memory.withBehind behind').convertV2pduToV1
          (plainTemplateOf agent uptime trap rest) := by
  have short : rest.length ≤ 9998 := by
    have := harmless.count
    omega
  by_cases counter : ∃ var ∈ rest, var.type = asnCounter64
  · rw [convert_plainTemplateOf_counter64 trapName short counter,
      convert_plainTemplateOf_counter64 trapName short counter]
    exact ⟨by simp, rfl⟩
  · have own := objidOf_snmpCloneVar memory trapVal
    have apart : 5 < (memory.objidOf (snmpCloneVar trap)).length →
        ¬ memory.objidOf (snmpCloneVar trap) <+: trapPrefix := by
      rw [own]
      intro long isPrefix
      exact counter (harmless.read isPrefix long).2
    rw [convert_plainTemplateOf trapName short counter,
      convert_plainTemplateOf trapName short counter, identity_withBehind ends ends' apart]
    refine ⟨?_, rfl⟩
    rcases harmless.address with isCounter | tooShort | set
    · exact absurd isCounter counter
    · -- the conversion ends in front of the address
      have none : (memory.withBehind behind').identity (snmpCloneVar trap)
          (snmpCloneVar trap :: rest.map snmpCloneVar) = none := by
        have inBuffer : (memory.objidOf (snmpCloneVar trap)).length ≤ 5 := by
          rw [own]
          omega
        simp only [TrapMemory.identity, isStandard_of_short ends' inBuffer, Bool.false_eq_true,
          if_false, TrapMemory.objidOf_withBehind, own, splitTrapOid, tooShort, if_true]
      rw [none]
      simp [convertedFrom]
    · cases address : (memory.withBehind behind).agentAddr (rest.map snmpCloneVar)
          (plainTemplateOf agent uptime trap rest).agentAddr with
      | none => exact absurd (set_map_iff.mpr set) (agentAddr_eq_none_iff.mp address)
      | some agentAddr =>
          cases (memory.withBehind behind').identity (snmpCloneVar trap)
            (snmpCloneVar trap :: rest.map snmpCloneVar) <;> simp [convertedFrom]

theorem UptimeHarmless.sendsSame (harmless : UptimeHarmless objid rest)
    (trapName : trap.name = snmptrapOid) (trapVal : trap.val = .objid objid)
    (memory : TrapMemory) (uptime : Nat) (enterprise : Oid) :
    SendsSame memory uptime enterprise (trap :: rest) := by
  intro agent specific context sending converting sending' converting' ends endsC ends' endsC'
  have short : rest.length ≤ 9998 := by
    have := harmless.count
    omega
  rw [netsnmpSendTraps_with_uptime _ _ _ _ trapName,
    netsnmpSendTraps_without_uptime _ _ _ _ trapName,
    isStandard_of_short ends (objidOf_sysuptimeVarbind memory uptime),
    trapTemplateOf_of_named short (by simp),
    trapTemplateOf_of_named (by omega) (harmless.named trapVal ends')]
  rcases harmless.convert trapName trapVal endsC endsC' with ⟨returns, same⟩
  exact handOn_convertTemplate returns same

def agentWith (sink : TrapSink) : TrapAgent :=
  { library := { findSecMod := fun _ => none }, enableauthentraps := 1, sinks := [sink] }

def v1Sink : TrapSink := ⟨snmpVersion1, snmpMsgTrap, snmpVersion1⟩

def v2Sink : TrapSink := ⟨snmpVersion2c, snmpMsgTrap2, snmpVersion2c⟩

variable {converting : TrapMemory} {v2pdu : TrapPdu} {handed : HandedTraps}

theorem converted_of_sent
    (sent : handOn agent context (convertTemplate converting v2pdu) = .sent handed) :
    converting.convertV2pduToV1 v2pdu ≠ .faulted := by
  intro faulted
  rw [convertTemplate, faulted] at sent
  cases sent

theorem handed_v2Sink
    (sent : handOn (agentWith v2Sink) none (convertTemplate converting v2pdu) = .sent handed) :
    handed.sinks.map (fun given => given.2.variableList) = [v2pdu.variableList] := by
  have returns := converted_of_sent sent
  rw [convertTemplate] at sent
  cases result : converting.convertV2pduToV1 v2pdu with
  | faulted => exact absurd result returns
  | converted v1pdu =>
      rw [result] at sent
      simp [handOn, agentWith, snmpAuthenticatedTrapsDisabled, handTemplates, v2Sink,
        HandedTraps.before] at sent
      rw [← sent]
      rfl
  | null =>
      rw [result] at sent
      simp [handOn, agentWith, handTemplates, v2Sink, HandedTraps.before] at sent
      rw [← sent]
      rfl

theorem handed_v1Sink {v1pdu : TrapPdu}
    (sent : handOn (agentWith v1Sink) none (convertTemplate converting v2pdu) = .sent handed)
    (converted : converting.convertV2pduToV1 v2pdu = .converted v1pdu) :
    handed.sinks.map (fun given => given.2.trapType) = [v1pdu.trapType] := by
  rw [convertTemplate, converted] at sent
  simp [handOn, agentWith, snmpAuthenticatedTrapsDisabled, handTemplates, v1Sink,
    HandedTraps.before] at sent
  rw [← sent]
  rfl

section SendsSame

variable (same : SendsSame memory uptime enterprise (trap :: rest))
  (trapName : trap.name = snmptrapOid)

include same trapName

theorem SendsSame.variableList (ends : memory.EndsBuffer behind) :
    (trapTemplateOf (agentWith v2Sink) false uptime enterprise
        (snmpCloneVar trap :: copyVarlist rest 9998)).variableList =
      (trapTemplateOf (agentWith v2Sink)
        ((memory.withBehind behind).isStandard (snmpCloneVar trap)) uptime enterprise
        (snmpCloneVar trap :: copyVarlist rest 9999)).variableList := by
  rcases same (agentWith v2Sink) 0 none behind behind behind behind ends ends ends ends with
    ⟨handed, withUptime, without⟩
  rw [netsnmpSendTraps_with_uptime _ _ _ _ trapName,
    isStandard_of_short ends (objidOf_sysuptimeVarbind memory uptime)] at withUptime
  rw [netsnmpSendTraps_without_uptime _ _ _ _ trapName] at without
  have lists := (handed_v2Sink withUptime).symm.trans (handed_v2Sink without)
  exact List.singleton_inj.mp lists

theorem SendsSame.count : rest.length + 1 < 10000 := by
  by_contra long
  exact trapTemplateOf_ne_of_long (by omega)
    (same.variableList trapName (standardBehind_endsBuffer memory 0))

theorem SendsSame.named (ends : memory.EndsBuffer behind)
    (standard : (memory.withBehind behind).isStandard (snmpCloneVar trap) = true) :
    ∃ var ∈ rest, var.name = snmptrapenterpriseOid := by
  by_contra missing
  have lists := same.variableList trapName ends
  rw [standard] at lists
  have := same.count trapName
  exact trapTemplateOf_ne_of_missing trapName (by omega) missing lists

theorem SendsSame.converts (ends : memory.EndsBuffer behind)
    (ends' : memory.EndsBuffer behind') :
    (memory.withBehind behind).convertV2pduToV1
        (plainTemplateOf (agentWith v1Sink) uptime trap rest) ≠ .faulted ∧
      ∀ v1pdu v1pdu', (memory.withBehind behind).convertV2pduToV1
          (plainTemplateOf (agentWith v1Sink) uptime trap rest) = .converted v1pdu →
        (memory.withBehind behind').convertV2pduToV1
          (plainTemplateOf (agentWith v1Sink) uptime trap rest) = .converted v1pdu' →
        v1pdu.trapType = v1pdu'.trapType := by
  rcases same (agentWith v1Sink) 0 none behind behind behind behind' ends ends ends ends' with
    ⟨handed, withUptime, without⟩
  have := same.count trapName
  rw [netsnmpSendTraps_with_uptime _ _ _ _ trapName,
    isStandard_of_short ends (objidOf_sysuptimeVarbind memory uptime),
    trapTemplateOf_of_named (by omega) (by simp)] at withUptime
  rw [netsnmpSendTraps_without_uptime _ _ _ _ trapName,
    trapTemplateOf_of_named (by omega) (same.named trapName ends)] at without
  refine ⟨converted_of_sent withUptime, ?_⟩
  intro v1pdu v1pdu' converted converted'
  have types := (handed_v1Sink withUptime converted).symm.trans (handed_v1Sink without converted')
  exact List.singleton_inj.mp types

theorem SendsSame.standard (trapVal : trap.val = .objid objid) (below : trapPrefix <+: objid) :
    ∃ var ∈ rest, var.name = snmptrapenterpriseOid := by
  apply same.named trapName (standardBehind_endsBuffer memory 0)
  apply TrapMemory.isStandard_of_below
  rw [TrapMemory.objidOf_withBehind, objidOf_snmpCloneVar memory trapVal]
  exact below

theorem SendsSame.counter64 (trapVal : trap.val = .objid objid) (isPrefix : objid <+: trapPrefix)
    (long : 5 < objid.length) : ∃ var ∈ rest, var.type = asnCounter64 := by
  by_contra none
  have := same.count trapName
  have own := objidOf_snmpCloneVar memory trapVal
  have isPrefix' : memory.objidOf (snmpCloneVar trap) <+: trapPrefix := own ▸ isPrefix
  have long' : 5 < (memory.objidOf (snmpCloneVar trap)).length := own ▸ long
  have converts := same.converts trapName (standardBehind_endsBuffer memory 1)
    (standardBehind_endsBuffer memory 2)
  have converted (k : Nat) :
      (memory.withBehind (standardBehind memory k)).convertV2pduToV1
          (plainTemplateOf (agentWith v1Sink) uptime trap rest) = .faulted ∨
        ∃ v1pdu, (memory.withBehind (standardBehind memory k)).convertV2pduToV1
            (plainTemplateOf (agentWith v1Sink) uptime trap rest) = .converted v1pdu ∧
          v1pdu.trapType = asLong (asULong ((k : Int) - 1)) := by
    have tenth : (memory.withBehind (standardBehind memory k)).subidAt (snmpCloneVar trap)
        trapPrefix.length = k := by
      rw [subidAt_standardBehind isPrefix' long']
      simp
    rw [convert_plainTemplateOf trapName (by omega) none]
    simp only [TrapMemory.identity, isStandard_standardBehind k isPrefix' long', if_true, tenth]
    cases (memory.withBehind (standardBehind memory k)).agentAddr (rest.map snmpCloneVar)
        (plainTemplateOf (agentWith v1Sink) uptime trap rest).agentAddr with
    | none => exact Or.inl rfl
    | some agentAddr =>
        right
        refine ⟨_, rfl, ?_⟩
        dsimp only
  have returns := (same.converts trapName (standardBehind_endsBuffer memory 2)
    (standardBehind_endsBuffer memory 2)).1
  rcases converted 1 with faulted | ⟨v1pdu, eq, type⟩
  · exact converts.1 faulted
  · rcases converted 2 with faulted | ⟨v1pdu', eq', type'⟩
    · exact returns faulted
    · have types := converts.2 v1pdu v1pdu' eq eq'
      rw [type, type'] at types
      exact absurd types (by decide)

theorem SendsSame.address (trapVal : trap.val = .objid objid) :
    (∃ var ∈ rest, var.type = asnCounter64) ∨ objid.length ≤ 2 ∨
      ∀ var valLen, findVarbindInList rest agentaddrOid = some var → var.val ≠ .unset valLen := by
  by_contra harmful
  simp only [not_or] at harmful
  rcases harmful with ⟨none, long, unset⟩
  have := same.count trapName
  have own := objidOf_snmpCloneVar memory trapVal
  apply (same.converts trapName (standardBehind_endsBuffer memory 0)
    (standardBehind_endsBuffer memory 0)).1
  have address : (memory.withBehind (standardBehind memory 0)).agentAddr (rest.map snmpCloneVar)
      (plainTemplateOf (agentWith v1Sink) uptime trap rest).agentAddr = Option.none :=
    agentAddr_eq_none_iff.mpr (mt set_map_iff.mp unset)
  have identity : ∃ identity, (memory.withBehind (standardBehind memory 0)).identity
      (snmpCloneVar trap) (snmpCloneVar trap :: rest.map snmpCloneVar) = some identity := by
    simp only [TrapMemory.identity, TrapMemory.objidOf_withBehind, own, splitTrapOid, if_neg long]
    split_ifs <;> exact ⟨_, rfl⟩
  rcases identity with ⟨identity, eq⟩
  rw [convert_plainTemplateOf trapName (by omega) none, eq, address]
  rfl

end SendsSame

/-- A notification is sent alike with and without the uptime of the agent if and only if the uptime
is harmless. -/
theorem netsnmpSendTraps_sendsSame_iff (memory : TrapMemory) (uptime : Nat) (enterprise : Oid)
    (type : Byte) (objid : Oid) (rest : List VariableList) :
    SendsSame memory uptime enterprise (⟨snmptrapOid, type, .objid objid⟩ :: rest) ↔
      UptimeHarmless objid rest := by
  constructor
  · intro same
    constructor
    · exact same.count rfl
    · exact same.standard rfl rfl
    · intro isPrefix long
      refine ⟨?_, same.counter64 rfl rfl isPrefix long⟩
      apply same.named rfl (standardBehind_endsBuffer memory 0)
      exact isStandard_standardBehind 0 isPrefix long
    · exact same.address rfl rfl
  · intro harmless
    exact harmless.sendsSame rfl rfl memory uptime enterprise

/-- A link that goes down, without the enterprise. -/
theorem not_netsnmpSendTraps_sendsSame : ¬ ∀ (memory : TrapMemory) (uptime : Nat)
    (enterprise : Oid) (type : Byte) (objid : Oid) (rest : List VariableList),
    SendsSame memory uptime enterprise (⟨snmptrapOid, type, .objid objid⟩ :: rest) := by
  intro alwaysSame
  have same := alwaysSame zeroMemory 7 [1, 3, 6, 1, 4, 1, 8072] asnObjectId (trapPrefix ++ [3]) []
  rcases same.standard rfl rfl (List.prefix_append _ _) with ⟨var, mem, -⟩
  cases mem

end Harmless

end NetSnmp
