import NetSnmp.Asn.Types
import NetSnmp.OidCompare

/-!
# Conversion of traps

`convert_v1pdu_to_v2` and `convert_v2pdu_to_v1`.

Allocation succeeds. Where a value is read as a member of the union that is not set,
or beyond its end, the conversion has no result.
-/

namespace NetSnmp

def snmpOidSnmpmodules : Oid := [1, 3, 6, 1, 6, 3]

def trapPrefix : Oid := snmpOidSnmpmodules ++ [1, 1, 5]
def coldStartOid : Oid := trapPrefix ++ [1]
def snmptrapOid : Oid := snmpOidSnmpmodules ++ [1, 1, 4, 1, 0]
def snmptrapenterpriseOid : Oid := snmpOidSnmpmodules ++ [1, 1, 4, 3, 0]
def sysuptimeOid : Oid := [1, 3, 6, 1, 2, 1, 1, 3, 0]
def agentaddrOid : Oid := snmpOidSnmpmodules ++ [18, 1, 3, 0]
def communityOid : Oid := snmpOidSnmpmodules ++ [18, 1, 4, 0]

abbrev snmpTrapEnterprisespecific : Int := 6

/-- A PDU with what tells an empty community from one that is `NULL`. -/
structure TrapPdu extends NetsnmpPdu where
  hasCommunity : Bool := false
  deriving DecidableEq, Repr

/-- A number as a `u_long`. -/
def asULong (value : Int) : Nat := (value % 2 ^ 64).toNat

/-- A number as a `long`. -/
def asLong (value : Int) : Int := value.bmod (2 ^ 64)

/-- `snmp_clone_var`: without a value the length is 0. -/
def snmpCloneVar (var : VariableList) : VariableList :=
  match var.val with
  | .unset _ => { var with val := .unset 0 }
  | _ => var

@[simp] theorem snmpCloneVar_name (var : VariableList) : (snmpCloneVar var).name = var.name := by
  unfold snmpCloneVar
  split <;> rfl

@[simp] theorem snmpCloneVar_type (var : VariableList) : (snmpCloneVar var).type = var.type := by
  unfold snmpCloneVar
  split <;> rfl

/-- `_copy_varlist`, when `ii` variables have been counted. -/
def copyVarlistLoop (errindex : Int) (ii : Nat) (copyCount : Int) (vars : List VariableList) :
    List VariableList :=
  match vars with
  | [] => []
  | var :: vars =>
      if 0 < copyCount then
        -- the variable that is dropped counts towards `copy_count`
        if (ii + 1 : Nat) = errindex then copyVarlistLoop errindex (ii + 1) (copyCount - 1) vars
        else snmpCloneVar var :: copyVarlistLoop errindex (ii + 1) (copyCount - 1) vars
      else []

/-- `_copy_varlist` without a variable to drop. -/
def copyVarlist (vars : List VariableList) (copyCount : Nat) : List VariableList :=
  copyVarlistLoop 0 0 copyCount vars

def snmpClonePdu (pdu : TrapPdu) : TrapPdu :=
  { pdu with variableList := copyVarlist pdu.variableList 10000 }

def findVarbindInList (vblist : List VariableList) (name : Oid) : Option VariableList :=
  vblist.find? fun var => snmpOidCompare var.name name = 0

/-- `snmp_set_var_value` with the octets of a `u_long`, for an integer type. -/
def setVarULong (value : Nat) : Vardata :=
  let integer := asLong value
  .integer (if 0xffffffff < integer then integer % 2 ^ 32 else integer)

def snmpVarlistAddVariable (vars : List VariableList) (name : Oid) (type : Byte) (val : Vardata) :
    List VariableList :=
  vars ++ [⟨name, type, val⟩]

/-- `netsnmp_build_trap_oid` with a buffer of `tOidLen` sub-identifiers. -/
def netsnmpBuildTrapOid (pdu : TrapPdu) (tOidLen : Nat) : Option Oid :=
  if pdu.trapType = snmpTrapEnterprisespecific then
    if maxOidLen < pdu.enterprise.length ∨ tOidLen < pdu.enterprise.length + 2 then none
    else some (pdu.enterprise ++ [0, asULong pdu.specificType])
  else if tOidLen < coldStartOid.length then none
  else some (coldStartOid.set 9 (asULong (pdu.trapType + 1)))

def appendMissing (vars : List VariableList) (applies : Bool) (name : Oid) (type : Byte)
    (val : Vardata) : List VariableList :=
  if (findVarbindInList vars name).isNone && applies then
    snmpVarlistAddVariable vars name type val
  else vars

def convertV1pduToV2 (v1pdu : TrapPdu) : Option TrapPdu :=
  let v2pdu := { snmpClonePdu v1pdu with command := snmpMsgTrap2 }
  match netsnmpBuildTrapOid v1pdu maxOidLen with
  | none => none
  | some trapOid =>
      let vars := ⟨snmptrapOid, asnObjectId, .objid trapOid⟩ :: v2pdu.variableList
      let vars := ⟨sysuptimeOid, asnTimeticks, setVarULong v1pdu.time⟩ :: vars
      let vars := appendMissing vars (v1pdu.agentAddr.toList.any (· != 0)) agentaddrOid
        asnIpaddress (.string v1pdu.agentAddr.toList)
      let vars := appendMissing vars v1pdu.hasCommunity communityOid asnOctetStr
        (.string v1pdu.community)
      let vars := appendMissing vars true snmptrapenterpriseOid asnObjectId
        (.objid v1pdu.enterprise)
      some { v2pdu with variableList := vars }

structure TrapIdentity where
  trapType : Int
  specificType : Int
  enterprise : Oid
  deriving DecidableEq, Repr

/-- For a standard trap, the type is in the trap OID and the enterprise in a varbind. -/
def standardTrap (objid : Oid) (vblist : List VariableList) : Option TrapIdentity :=
  match objid[trapPrefix.length]? with
  | none => none
  | some subid =>
      match findVarbindInList vblist snmptrapenterpriseOid with
      | none => some ⟨asLong (asULong ((subid : Int) - 1)), 0, []⟩
      | some var =>
          match var.val with
          | .objid enterprise => some ⟨asLong (asULong ((subid : Int) - 1)), 0, enterprise⟩
          | _ => none

def splitTrapOid (objid : Oid) : Option TrapIdentity :=
  let len := objid.length
  if len ≤ 2 then none
  else
    let specificType := objid.getD (len - 1) 0
    let len := len - 1
    let len := if objid.getD (len - 1) 0 = 0 then len - 1 else len
    some ⟨snmpTrapEnterprisespecific, asLong specificType, objid.take len⟩

def copyAgentAddr (vblist : List VariableList) (agentAddr : Vector Byte 4) :
    Option (Vector Byte 4) :=
  match findVarbindInList vblist agentaddrOid with
  | none => some agentAddr
  | some var =>
      match var.val with
      | .string (a :: b :: c :: d :: _) => some #v[a, b, c, d]
      | _ => none

def convertV2pduToV1 (v2pdu : TrapPdu) : Option TrapPdu :=
  let v1pdu := { snmpClonePdu v2pdu with command := snmpMsgTrap }
  match v1pdu.variableList with
  | uptime :: trap :: rest =>
      if snmpOidCompare uptime.name sysuptimeOid ≠ 0 then none
      else if snmpOidCompare trap.name snmptrapOid ≠ 0 then none
      else if rest.any (fun var => var.type = asnCounter64) then none
      else
        match uptime.val, trap.val with
        | .integer time, .objid objid =>
            let identity :=
              if snmpOidCompare (objid.take trapPrefix.length) trapPrefix = 0 then
                standardTrap objid (trap :: rest)
              else splitTrapOid objid
            match identity, copyAgentAddr (trap :: rest) v1pdu.agentAddr with
            | some identity, some agentAddr =>
                some { v1pdu with
                  time := asULong time
                  trapType := identity.trapType
                  specificType := identity.specificType
                  enterprise := identity.enterprise
                  agentAddr := agentAddr
                  variableList := rest }
            | _, _ => none
        | _, _ => none
  | _ => none

def conversionOids : List Oid := [agentaddrOid, communityOid, snmptrapenterpriseOid]

/-- `snmpTrapAddress`, unless the address is zero. -/
def addressVarbinds (pdu : TrapPdu) : List VariableList :=
  if pdu.agentAddr.toList.any (· != 0) then
    [⟨agentaddrOid, asnIpaddress, .string pdu.agentAddr.toList⟩]
  else []

/-- `snmpTrapCommunity`, if there is one. -/
def communityVarbinds (pdu : TrapPdu) : List VariableList :=
  if pdu.hasCommunity then [⟨communityOid, asnOctetStr, .string pdu.community⟩] else []

/-- `snmpTrapEnterprise` -/
def enterpriseVarbind (pdu : TrapPdu) : VariableList :=
  ⟨snmptrapenterpriseOid, asnObjectId, .objid pdu.enterprise⟩

def conversionVarbinds (pdu : TrapPdu) : List VariableList :=
  addressVarbinds pdu ++ communityVarbinds pdu ++ [enterpriseVarbind pdu]

/-- A variable that version 1 can carry and that is not a conversion varbind. -/
structure PlainVarbind (var : VariableList) : Prop where
  name : var.name ∉ conversionOids
  type : var.type ≠ asnCounter64
  val : ∀ valLen, var.val = .unset valLen → valLen = 0

/-- A generic or enterprise specific trap of version 1. -/
structure Trap (pdu : TrapPdu) : Prop where
  identity : (0 ≤ pdu.trapType ∧ pdu.trapType ≤ 5 ∧ pdu.specificType = 0 ∧ pdu.enterprise ≠ []) ∨
    (pdu.trapType = snmpTrapEnterprisespecific ∧ 1 ≤ pdu.enterprise.length ∧
      pdu.enterprise.length ≤ 126 ∧ 0 ≤ pdu.specificType ∧ pdu.specificType < 2 ^ 31)
  subids : ∀ subid ∈ pdu.enterprise, subid < 2 ^ 64
  time : pdu.time < 2 ^ 32
  count : pdu.variableList.length ≤ 9990
  varbinds : ∀ var ∈ pdu.variableList, PlainVarbind var

/-- The trap comes back as it was, with the conversion varbinds behind its own. -/
structure ComesBack (pdu pdu' : TrapPdu) : Prop where
  trapType : pdu'.trapType = pdu.trapType
  specificType : pdu'.specificType = pdu.specificType
  enterprise : pdu'.enterprise = pdu.enterprise
  agentAddr : pdu'.agentAddr = pdu.agentAddr
  time : pdu'.time = pdu.time
  varbinds : pdu'.variableList = pdu.variableList ++ conversionVarbinds pdu

variable {pdu : TrapPdu} {vars vars' : List VariableList} {name : Oid}

theorem snmpCloneVar_eq {var : VariableList} (plain : ∀ valLen, var.val =
    .unset valLen → valLen = 0) :
    snmpCloneVar var = var := by
  rcases var with ⟨name, type, val⟩
  cases val with
  | unset valLen => simp [snmpCloneVar, plain valLen rfl]
  | _ => rfl

theorem copyVarlistLoop_drop {errindex : Int} {ii : Nat} (passed : errindex ≤ ii)
    (copyCount : Int) (vars : List VariableList) :
    copyVarlistLoop errindex ii copyCount vars = (vars.take copyCount.toNat).map snmpCloneVar := by
  induction vars generalizing ii copyCount with
  | nil => simp [copyVarlistLoop]
  | cons var vars ih =>
      rw [copyVarlistLoop]
      by_cases left : 0 < copyCount
      · have here : ¬ ((ii + 1 : Nat) : Int) = errindex := by omega
        have count : copyCount.toNat = (copyCount - 1).toNat + 1 := by omega
        rw [if_pos left, if_neg here, ih (by omega), count]
        rfl
      · have count : copyCount.toNat = 0 := by omega
        rw [if_neg left, count]
        rfl

theorem copyVarlist_eq_map (vars : List VariableList) (copyCount : Nat) :
    copyVarlist vars copyCount = (vars.take copyCount).map snmpCloneVar :=
  copyVarlistLoop_drop (le_refl _) _ _

theorem copyVarlist_eq {copyCount : Nat} (short : vars.length ≤ copyCount)
    (plain : ∀ var ∈ vars, ∀ valLen, var.val = .unset valLen → valLen = 0) :
    copyVarlist vars copyCount = vars := by
  rw [copyVarlist_eq_map]
  rw [List.take_of_length_le short]
  apply (List.map_congr_left _).trans (List.map_id vars)
  intro var mem
  exact snmpCloneVar_eq (plain var mem)

theorem findVarbindInList_eq_none (missing : ∀ var ∈ vars, var.name ≠ name) :
    findVarbindInList vars name = none := by
  apply List.find?_eq_none.mpr
  intro var mem
  simpa [snmpOidCompare_eq_zero_iff] using missing var mem

theorem appendMissing_of_missing (missing : ∀ var ∈ vars, var.name ≠ name) (applies : Bool)
    (type : Byte) (val : Vardata) :
    appendMissing vars applies name type val =
      vars ++ if applies then [⟨name, type, val⟩] else [] := by
  cases applies <;>
    simp [appendMissing, findVarbindInList_eq_none missing, snmpVarlistAddVariable]

def trapOidOf (pdu : TrapPdu) : Oid :=
  if pdu.trapType = snmpTrapEnterprisespecific then
    pdu.enterprise ++ [0, asULong pdu.specificType]
  else trapPrefix ++ [asULong (pdu.trapType + 1)]

def uptimeVarbind (pdu : TrapPdu) : VariableList :=
  ⟨sysuptimeOid, asnTimeticks, .integer pdu.time⟩

def trapVarbind (pdu : TrapPdu) : VariableList :=
  ⟨snmptrapOid, asnObjectId, .objid (trapOidOf pdu)⟩

theorem Trap.trapOid (trap : Trap pdu) :
    netsnmpBuildTrapOid pdu maxOidLen = some (trapOidOf pdu) := by
  rcases trap.identity with ⟨_, upper, _, _⟩ | ⟨specific, _, upper, _, _⟩
  · have generic : pdu.trapType ≠ snmpTrapEnterprisespecific := by
      intro specific
      rw [specific] at upper
      exact absurd upper (by decide)
    simp [netsnmpBuildTrapOid, trapOidOf, generic, maxOidLen, coldStartOid, trapPrefix,
      snmpOidSnmpmodules]
  · have fits : ¬ (maxOidLen < pdu.enterprise.length ∨ maxOidLen < pdu.enterprise.length + 2) := by
      simp only [maxOidLen]
      omega
    simp [netsnmpBuildTrapOid, trapOidOf, specific, fits]

theorem setVarULong_eq {value : Nat} (small : value < 2 ^ 32) :
    setVarULong value = .integer value := by
  have same : asLong value = value := by
    apply Int.bmod_eq_of_le
    · omega
    · omega
  have notLarge : ¬ ((0xffffffff : Int) < value) := by omega
  simp [setVarULong, same, notLarge]

theorem Trap.names (trap : Trap pdu) {var : VariableList}
    (mem : var ∈ uptimeVarbind pdu :: trapVarbind pdu :: pdu.variableList) :
    var.name ∉ conversionOids := by
  rcases List.mem_cons.mp mem with rfl | mem'
  · simp only [uptimeVarbind]
    decide
  · rcases List.mem_cons.mp mem' with rfl | own
    · simp only [trapVarbind]
      decide
    · exact (trap.varbinds var own).name

theorem name_of_mem_addressVarbinds {var : VariableList} (mem : var ∈ addressVarbinds pdu) :
    var.name = agentaddrOid := by
  unfold addressVarbinds at mem
  split_ifs at mem
  · rcases List.mem_singleton.mp mem with rfl
    rfl
  · cases mem

theorem name_of_mem_communityVarbinds {var : VariableList} (mem : var ∈ communityVarbinds pdu) :
    var.name = communityOid := by
  unfold communityVarbinds at mem
  split_ifs at mem
  · rcases List.mem_singleton.mp mem with rfl
    rfl
  · cases mem

theorem append_conversionVarbinds (pdu : TrapPdu) {front : List VariableList}
    (apart : ∀ oid ∈ conversionOids, ∀ var ∈ front, var.name ≠ oid) :
    appendMissing
      (appendMissing
        (appendMissing front (pdu.agentAddr.toList.any (· != 0)) agentaddrOid asnIpaddress
          (.string pdu.agentAddr.toList))
        pdu.hasCommunity communityOid asnOctetStr (.string pdu.community))
      true snmptrapenterpriseOid asnObjectId (.objid pdu.enterprise) =
    front ++ conversionVarbinds pdu := by
  have withAddress := appendMissing_of_missing (apart agentaddrOid (by decide))
    (pdu.agentAddr.toList.any (· != 0)) asnIpaddress (.string pdu.agentAddr.toList)
  have noCommunity : ∀ var ∈ front ++ addressVarbinds pdu, var.name ≠ communityOid := by
    intro var mem
    rcases List.mem_append.mp mem with own | address
    · exact apart _ (by decide) var own
    · rw [name_of_mem_addressVarbinds address]
      decide
  have withCommunity := appendMissing_of_missing noCommunity pdu.hasCommunity asnOctetStr
    (.string pdu.community)
  have noEnterprise : ∀ var ∈ front ++ addressVarbinds pdu ++ communityVarbinds pdu,
      var.name ≠ snmptrapenterpriseOid := by
    intro var mem
    simp only [List.mem_append] at mem
    rcases mem with (own | address) | community
    · exact apart _ (by decide) var own
    · rw [name_of_mem_addressVarbinds address]
      decide
    · rw [name_of_mem_communityVarbinds community]
      decide
  have withEnterprise := appendMissing_of_missing noEnterprise true asnObjectId
    (.objid pdu.enterprise)
  simp only [addressVarbinds, communityVarbinds] at withCommunity withEnterprise
  rw [withAddress, withCommunity, withEnterprise]
  simp [conversionVarbinds, addressVarbinds, communityVarbinds, enterpriseVarbind]

theorem Trap.plain (trap : Trap pdu) : ∀ var ∈ pdu.variableList, ∀ valLen,
    var.val = .unset valLen → valLen = 0 :=
  fun var mem => (trap.varbinds var mem).val

theorem Trap.convertV1pduToV2 (trap : Trap pdu) :
    convertV1pduToV2 pdu = some { pdu with
      command := snmpMsgTrap2
      variableList := uptimeVarbind pdu :: trapVarbind pdu :: pdu.variableList ++
        conversionVarbinds pdu } := by
  have copied : copyVarlist pdu.variableList 10000 = pdu.variableList := by
    have count := trap.count
    apply copyVarlist_eq _ trap.plain
    omega
  simp only [NetSnmp.convertV1pduToV2, trap.trapOid, snmpClonePdu, copied,
    setVarULong_eq trap.time]
  rw [← append_conversionVarbinds pdu]
  · rfl
  · intro oid conversion var mem same
    exact trap.names mem (same ▸ conversion)

theorem splitTrapOid_append (enterprise : Oid) (specific : Nat) (nonempty : 1 ≤ enterprise.length) :
    splitTrapOid (enterprise ++ [0, specific]) =
      some ⟨snmpTrapEnterprisespecific, asLong specific, enterprise⟩ := by
  have length : (enterprise ++ [0, specific]).length = enterprise.length + 2 := by simp
  have long : ¬ enterprise.length + 2 ≤ 2 := by omega
  have last : (enterprise ++ [0, specific]).getD (enterprise.length + 2 - 1) 0 = specific := by simp
  have zero : (enterprise ++ [0, specific]).getD (enterprise.length + 2 - 1 - 1) 0 = 0 := by simp
  simp only [splitTrapOid, length, if_neg long, last, zero, if_true]
  simp

theorem take_trapOid (enterprise : Oid) (specific : Nat) :
    (enterprise ++ [0, specific]).take trapPrefix.length = trapPrefix ↔
      trapPrefix <+: enterprise := by
  constructor
  · intro begins
    by_cases long : trapPrefix.length ≤ enterprise.length
    · rw [List.take_append_of_le_length long] at begins
      exact begins ▸ List.take_prefix _ _
    · -- the prefix has no 0, which stands behind the enterprise
      exfalso
      have lt : enterprise.length < trapPrefix.length := by omega
      have zero : 0 ∈ (enterprise ++ [0, specific]).take trapPrefix.length := by
        apply List.mem_take_iff_getElem.mpr
        exact ⟨enterprise.length, by simp; omega, by simp⟩
      rw [begins] at zero
      exact absurd zero (by decide)
  · rintro ⟨rest, rfl⟩
    simp

theorem asLong_asULong (value : Int) : asLong (asULong value) = value.bmod (2 ^ 64) := by
  have nonneg : 0 ≤ value % 2 ^ 64 := by omega
  unfold asLong asULong
  rw [Int.toNat_of_nonneg nonneg]
  exact Int.emod_bmod value (2 ^ 64)

theorem bmod_eq {value : Int} (lower : -2 ^ 63 ≤ value) (upper : value < 2 ^ 63) :
    value.bmod (2 ^ 64) = value := by
  apply Int.bmod_eq_of_le
  · omega
  · omega

theorem find_front {front back : List VariableList} (apart : ∀ var ∈ front, var.name ≠ name) :
    findVarbindInList (front ++ back) name = findVarbindInList back name := by
  have none := findVarbindInList_eq_none apart
  unfold findVarbindInList at none ⊢
  rw [List.find?_append, none, Option.none_or]

theorem find_enterprise (pdu : TrapPdu) :
    findVarbindInList (conversionVarbinds pdu) snmptrapenterpriseOid =
      some (enterpriseVarbind pdu) := by
  unfold conversionVarbinds
  rw [find_front]
  · simp [findVarbindInList, snmpOidCompare_eq_zero_iff, enterpriseVarbind]
  · intro var mem
    rcases List.mem_append.mp mem with address | community
    · rw [name_of_mem_addressVarbinds address]
      decide
    · rw [name_of_mem_communityVarbinds community]
      decide

theorem copyAgentAddr_conversionVarbinds (pdu : TrapPdu) {front : List VariableList}
    (apart : ∀ var ∈ front, var.name ≠ agentaddrOid) :
    copyAgentAddr (front ++ conversionVarbinds pdu) pdu.agentAddr = some pdu.agentAddr := by
  unfold copyAgentAddr
  rw [find_front apart]
  cases address : pdu.agentAddr.toList.any (· != 0) with
  | true =>
      have found : findVarbindInList (conversionVarbinds pdu) agentaddrOid =
          some ⟨agentaddrOid, asnIpaddress, .string pdu.agentAddr.toList⟩ := by
        simp [conversionVarbinds, addressVarbinds, address, findVarbindInList,
          snmpOidCompare_eq_zero_iff]
      rw [found]
      rcases pdu.agentAddr with ⟨octets, size⟩
      rcases octets with ⟨list⟩
      rcases list with _ | ⟨a, _ | ⟨b, _ | ⟨c, _ | ⟨d, _ | ⟨e, rest⟩⟩⟩⟩⟩ <;> simp at size
      rfl
  | false =>
      rw [findVarbindInList_eq_none]
      intro var mem
      simp only [conversionVarbinds, addressVarbinds, address, Bool.false_eq_true, if_false,
        List.nil_append] at mem
      rcases List.mem_append.mp mem with community | enterprise
      · rw [name_of_mem_communityVarbinds community]
        decide
      · rcases List.mem_singleton.mp enterprise with rfl
        simp only [enterpriseVarbind]
        decide

/-- The trap as it comes back, with the identity that is read from the trap OID. -/
def returned (pdu : TrapPdu) (identity : TrapIdentity) : TrapPdu :=
  { pdu with
    command := snmpMsgTrap
    trapType := identity.trapType
    specificType := identity.specificType
    enterprise := identity.enterprise
    variableList := pdu.variableList ++ conversionVarbinds pdu }

def identityOf (pdu : TrapPdu) : Option TrapIdentity :=
  if (trapOidOf pdu).take trapPrefix.length = trapPrefix then
    ((trapOidOf pdu)[trapPrefix.length]?).map fun subid =>
      ⟨asLong (asULong ((subid : Int) - 1)), 0, pdu.enterprise⟩
  else splitTrapOid (trapOidOf pdu)

theorem conversionVarbinds_plain {var : VariableList} (mem : var ∈ conversionVarbinds pdu) :
    var.type ≠ asnCounter64 ∧ ∀ valLen, var.val ≠ .unset valLen := by
  unfold conversionVarbinds addressVarbinds communityVarbinds enterpriseVarbind at mem
  simp only [List.mem_append] at mem
  rcases mem with (address | community) | enterprise
  · split_ifs at address
    · rcases List.mem_singleton.mp address with rfl
      exact ⟨by simp [asnIpaddress, asnCounter64], by simp⟩
    · cases address
  · split_ifs at community
    · rcases List.mem_singleton.mp community with rfl
      exact ⟨by simp [asnOctetStr, asnCounter64], by simp⟩
    · cases community
  · rcases List.mem_singleton.mp enterprise with rfl
    exact ⟨by simp [asnObjectId, asnCounter64], by simp⟩

theorem length_conversionVarbinds_le (pdu : TrapPdu) : (conversionVarbinds pdu).length ≤ 3 := by
  unfold conversionVarbinds addressVarbinds communityVarbinds
  split_ifs <;> simp

theorem Trap.convertV2pduToV1 (trap : Trap pdu) :
    NetSnmp.convertV2pduToV1 { pdu with
      command := snmpMsgTrap2
      variableList := uptimeVarbind pdu :: trapVarbind pdu :: pdu.variableList ++
        conversionVarbinds pdu } = (identityOf pdu).map (returned pdu) := by
  have copied : copyVarlist (uptimeVarbind pdu :: trapVarbind pdu :: pdu.variableList ++
      conversionVarbinds pdu) 10000 = uptimeVarbind pdu :: trapVarbind pdu :: pdu.variableList ++
      conversionVarbinds pdu := by
    apply copyVarlist_eq
    · have count := trap.count
      have few := length_conversionVarbinds_le pdu
      simp only [List.length_append, List.length_cons]
      omega
    · intro var mem valLen unset
      rcases List.mem_append.mp mem with front | conversion
      · rcases List.mem_cons.mp front with rfl | front'
        · cases unset
        · rcases List.mem_cons.mp front' with rfl | own
          · cases unset
          · exact trap.plain var own valLen unset
      · exact absurd unset ((conversionVarbinds_plain conversion).2 valLen)
  have noCounter64 : (pdu.variableList ++ conversionVarbinds pdu).any
      (fun var => var.type = asnCounter64) = false := by
    apply List.any_eq_false.mpr
    intro var mem
    rw [decide_eq_true_eq]
    rcases List.mem_append.mp mem with own | conversion
    · exact (trap.varbinds var own).type
    · exact (conversionVarbinds_plain conversion).1
  have apart (oid : Oid) (conversion : oid ∈ conversionOids) :
      ∀ var ∈ trapVarbind pdu :: pdu.variableList, var.name ≠ oid := by
    intro var mem same
    exact trap.names (List.mem_cons_of_mem _ mem) (same ▸ conversion)
  have address := copyAgentAddr_conversionVarbinds pdu (apart agentaddrOid (by decide))
  have enterprise : findVarbindInList (trapVarbind pdu :: pdu.variableList ++
      conversionVarbinds pdu) snmptrapenterpriseOid = some (enterpriseVarbind pdu) := by
    rw [find_front (apart snmptrapenterpriseOid (by decide)), find_enterprise]
  have identity : (if snmpOidCompare ((trapOidOf pdu).take trapPrefix.length) trapPrefix = 0 then
      standardTrap (trapOidOf pdu) (trapVarbind pdu :: pdu.variableList ++ conversionVarbinds pdu)
      else splitTrapOid (trapOidOf pdu)) = identityOf pdu := by
    unfold identityOf standardTrap
    simp only [snmpOidCompare_eq_zero_iff, enterprise]
    split_ifs with standard
    · cases (trapOidOf pdu)[trapPrefix.length]? <;> rfl
    · rfl
  have time : asULong pdu.time = pdu.time := by
    have small := trap.time
    unfold asULong
    omega
  simp only [NetSnmp.convertV2pduToV1, snmpClonePdu, copied]
  simp only [List.cons_append, uptimeVarbind, trapVarbind, snmpOidCompare_eq_zero_iff, ne_eq,
    not_true_eq_false, if_false, noCounter64, Bool.false_eq_true, time] at *
  rw [identity, address]
  cases identityOf pdu <;> rfl

theorem identityOf_generic (trap : Trap pdu) (generic : pdu.trapType ≠ snmpTrapEnterprisespecific) :
    identityOf pdu = some ⟨pdu.trapType, 0, pdu.enterprise⟩ := by
  rcases trap.identity with ⟨lower, upper, -, -⟩ | ⟨specific, -⟩
  · have subid : ((asULong (pdu.trapType + 1) : Nat) : Int) = pdu.trapType + 1 := by
      unfold asULong
      omega
    have type : asLong (asULong ((asULong (pdu.trapType + 1) : Int) - 1)) = pdu.trapType := by
      rw [asLong_asULong, subid, bmod_eq] <;> omega
    simp [identityOf, trapOidOf, generic, type]
  · exact absurd specific generic

theorem identityOf_split (trap : Trap pdu) (specific : pdu.trapType = snmpTrapEnterprisespecific)
    (apart : ¬ trapPrefix <+: pdu.enterprise) :
    identityOf pdu = some ⟨snmpTrapEnterprisespecific, pdu.specificType, pdu.enterprise⟩ := by
  rcases trap.identity with ⟨-, upper, -, -⟩ | ⟨-, nonempty, -, lower, upper⟩
  · rw [specific] at upper
    exact absurd upper (by decide)
  · have oid : trapOidOf pdu = pdu.enterprise ++ [0, asULong pdu.specificType] := by
      simp [trapOidOf, specific]
    have type : asLong (asULong pdu.specificType) = pdu.specificType := by
      rw [asLong_asULong, bmod_eq] <;> omega
    unfold identityOf
    rw [oid, if_neg (mt (take_trapOid _ _).mp apart), splitTrapOid_append _ _ nonempty, type]

theorem identityOf_standard (specific : pdu.trapType = snmpTrapEnterprisespecific) {rest : Oid}
    (under : pdu.enterprise = trapPrefix ++ rest) :
    identityOf pdu =
      some ⟨((rest.head?.getD 0 : Nat) - 1 : Int).bmod (2 ^ 64), 0, pdu.enterprise⟩ := by
  have oid : trapOidOf pdu = trapPrefix ++ (rest ++ [0, asULong pdu.specificType]) := by
    simp [trapOidOf, specific, under]
  unfold identityOf
  rw [oid, List.take_left, if_pos rfl]
  cases rest <;> simp [asLong_asULong]

theorem bmod_eq_six_iff {subid : Nat} (small : subid < 2 ^ 64) :
    ((subid : Int) - 1).bmod (2 ^ 64) = snmpTrapEnterprisespecific ↔ subid = 7 := by
  simp only [snmpTrapEnterprisespecific, Int.bmod_def]
  split_ifs <;> omega

/-- A trap is converted to version 2 and back without a change if and only if it is not an
enterprise specific one that is taken for a standard trap of another type. -/
theorem trap_comesBack_iff (trap : Trap pdu) :
    (∃ v2pdu v1pdu, convertV1pduToV2 pdu = some v2pdu ∧ convertV2pduToV1 v2pdu = some v1pdu ∧
      ComesBack pdu v1pdu) ↔
    (pdu.trapType = snmpTrapEnterprisespecific → trapPrefix <+: pdu.enterprise →
      pdu.enterprise[trapPrefix.length]? = some 7 ∧ pdu.specificType = 0) := by
  have back : (∃ v2pdu v1pdu, convertV1pduToV2 pdu = some v2pdu ∧
      convertV2pduToV1 v2pdu = some v1pdu ∧ ComesBack pdu v1pdu) ↔
      ∃ identity, identityOf pdu = some identity ∧ identity.trapType = pdu.trapType ∧
        identity.specificType = pdu.specificType ∧ identity.enterprise = pdu.enterprise := by
    constructor
    · rintro ⟨v2pdu, v1pdu, to2, to1, same⟩
      rw [trap.convertV1pduToV2] at to2
      cases to2
      rw [trap.convertV2pduToV1] at to1
      rcases Option.map_eq_some_iff.mp to1 with ⟨identity, eq, rfl⟩
      exact ⟨identity, eq, same.trapType, same.specificType, same.enterprise⟩
    · rintro ⟨identity, eq, type, specific, enterprise⟩
      refine ⟨_, returned pdu identity, trap.convertV1pduToV2, ?_,
        type, specific, enterprise, rfl, rfl, rfl⟩
      rw [trap.convertV2pduToV1, eq]
      rfl
  rw [back]
  by_cases specific : pdu.trapType = snmpTrapEnterprisespecific
  · by_cases under : trapPrefix <+: pdu.enterprise
    · rcases under with ⟨rest, eq⟩
      have eq := eq.symm
      rw [identityOf_standard specific eq]
      have subid : pdu.enterprise[trapPrefix.length]? = rest.head? := by
        rw [eq, List.getElem?_append_right (le_refl _), Nat.sub_self, List.head?_eq_getElem?]
      have small : rest.head?.getD 0 < 2 ^ 64 := by
        cases head : rest.head? with
        | none => simp
        | some subid =>
            apply trap.subids
            rw [eq]
            exact List.mem_append_right _ (List.mem_of_mem_head? head)
      have seven : rest.head?.getD 0 = 7 ↔ rest.head? = some 7 := by
        cases rest.head? <;> simp
      have under : trapPrefix <+: pdu.enterprise := ⟨rest, eq.symm⟩
      simp only [Option.some.injEq, exists_eq_left', specific, bmod_eq_six_iff small, seven, subid,
        under, true_imp_iff, and_true]
      apply and_congr_right
      intro _
      exact eq_comm
    · apply iff_of_true
      · exact ⟨_, identityOf_split trap specific under, specific.symm, rfl, rfl⟩
      · intro _ isUnder
        exact absurd isUnder under
  · apply iff_of_true
    · rcases trap.identity with ⟨-, -, zero, -⟩ | ⟨isSpecific, -⟩
      · exact ⟨_, identityOf_generic trap specific, rfl, zero.symm, rfl⟩
      · exact absurd isSpecific specific
    · intro isSpecific
      exact absurd isSpecific specific

/-- A trap of the enterprise `1.2.0`, and one of an enterprise below the standard traps. -/
def zeroEnterpriseTrap : TrapPdu :=
  { trapType := snmpTrapEnterprisespecific, specificType := 4, enterprise := [1, 2, 0] }

def standardEnterpriseTrap : TrapPdu :=
  { trapType := snmpTrapEnterprisespecific, specificType := 4, enterprise := trapPrefix }

theorem enterpriseTrap_trap {enterprise : Oid} (nonempty : 1 ≤ enterprise.length)
    (short : enterprise.length ≤ 126) (small : ∀ subid ∈ enterprise, subid < 2 ^ 64) :
    Trap { trapType := snmpTrapEnterprisespecific, specificType := 4, enterprise :=
      enterprise } := by
  constructor
  · exact Or.inr ⟨rfl, nonempty, short, by simp, by simp⟩
  · exact small
  · simp
  · simp
  · simp

theorem zeroEnterpriseTrap_comesBack : ∃ v2pdu v1pdu,
    convertV1pduToV2 zeroEnterpriseTrap = some v2pdu ∧ convertV2pduToV1 v2pdu = some v1pdu ∧
      ComesBack zeroEnterpriseTrap v1pdu := by
  apply (trap_comesBack_iff (enterpriseTrap_trap (by decide) (by decide) (by decide))).mpr
  intro _ under
  exact absurd under (by decide)

theorem not_trap_comesBack : ¬ ∀ pdu : TrapPdu, Trap pdu → ∃ v2pdu v1pdu,
    convertV1pduToV2 pdu = some v2pdu ∧ convertV2pduToV1 v2pdu = some v1pdu ∧
      ComesBack pdu v1pdu := by
  intro comesBack
  rcases comesBack standardEnterpriseTrap
    (enterpriseTrap_trap (by decide) (by decide) (by decide)) with ⟨v2pdu, v1pdu, to2, to1, same⟩
  have found : ∃ v2, convertV1pduToV2 standardEnterpriseTrap = some v2 ∧
      (convertV2pduToV1 v2).map (fun v1 => v1.trapType) = some (-1) := ⟨_, rfl, by decide⟩
  rcases found with ⟨v2, eq2, eq1⟩
  rw [to2] at eq2
  cases eq2
  rw [to1] at eq1
  cases eq1.symm.trans (congrArg some same.trapType)

end NetSnmp
