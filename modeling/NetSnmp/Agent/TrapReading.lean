import NetSnmp.Agent.TrapConversion

/-!
# What the conversion to version 1 reads

`convert_v2pdu_to_v1` with the memory it reads: the comparison with the prefix of the standard
traps and the read of the trap type do not look at the length of the trap OID.
-/

namespace NetSnmp

/-- What stands behind the value of a variable, and at a value that is read as a member of the
union that is not set. -/
structure TrapMemory where
  /-- The sub-identifier at a position behind the end of the value. -/
  behind : VariableList → Nat → Nat
  integer : VariableList → Int
  objid : VariableList → Oid
  octets : VariableList → Vector Byte 4

namespace TrapMemory

variable (memory : TrapMemory)

/-- `*val.integer` -/
def integerOf (var : VariableList) : Int :=
  match var.val with
  | .integer value => value
  | _ => memory.integer var

/-- `val.objid`, as long as `val_len` says. -/
def objidOf (var : VariableList) : Oid :=
  match var.val with
  | .objid objid => objid
  | .integer value => [asULong value]
  | .unset _ => []
  | _ => memory.objid var

/-- `val.objid[pos]` -/
def subidAt (var : VariableList) (pos : Nat) : Nat :=
  (memory.objidOf var)[pos]?.getD (memory.behind var pos)

def front (var : VariableList) : Oid :=
  (List.range trapPrefix.length).map (memory.subidAt var)

/-- The comparison of `val.objid` with `trap_prefix`. -/
def isStandard (var : VariableList) : Bool :=
  snmpOidCompare (memory.front var) trapPrefix = 0

/-- The enterprise of a standard trap, from its varbind. -/
def enterprise (vblist : List VariableList) : Oid :=
  match findVarbindInList vblist snmptrapenterpriseOid with
  | none => []
  | some var => memory.objidOf var

/-- The trap types and the enterprise, `none` if the trap OID is too short. -/
def identity (trap : VariableList) (vblist : List VariableList) : Option TrapIdentity :=
  if memory.isStandard trap then
    some ⟨asLong (asULong ((memory.subidAt trap trapPrefix.length : Int) - 1)), 0,
      memory.enterprise vblist⟩
  else splitTrapOid (memory.objidOf trap)

theorem size_four (a b c d : Byte) : #[a, b, c, d].size = 4 := rfl

/-- Four octets of the address varbind are copied over the agent address; there is no result
if its value is `NULL`. -/
def agentAddr (vblist : List VariableList) (agentAddr : Vector Byte 4) :
    Option (Vector Byte 4) :=
  match findVarbindInList vblist agentaddrOid with
  | none => some agentAddr
  | some var =>
      match var.val with
      | .unset _ => none
      | .string (a :: b :: c :: d :: _) => some ⟨#[a, b, c, d], size_four a b c d⟩
      | _ => some (memory.octets var)

end TrapMemory

/-- How a call of `convert_v2pdu_to_v1` ends. -/
inductive TrapConverted where
  | converted (v1pdu : TrapPdu)
  | null
  /-- Octets are copied from `NULL`. -/
  | faulted
  deriving DecidableEq, Repr

/-- The varbinds of the uptime, of the trap OID and behind them, if the list passes the checks. -/
def checkedVarbinds (vars : List VariableList) :
    Option (VariableList × VariableList × List VariableList) :=
  match vars with
  | uptime :: trap :: rest =>
      if snmpOidCompare uptime.name sysuptimeOid ≠ 0 then none
      else if snmpOidCompare trap.name snmptrapOid ≠ 0 then none
      else if rest.any (fun var => var.type = asnCounter64) then none
      else some (uptime, trap, rest)
  | _ => none

namespace TrapMemory

variable (memory : TrapMemory)

def convertV2pduToV1 (v2pdu : TrapPdu) : TrapConverted :=
  let v1pdu := { snmpClonePdu v2pdu with command := snmpMsgTrap }
  match checkedVarbinds v1pdu.variableList with
  | none => .null
  | some (uptime, trap, rest) =>
      match memory.identity trap (trap :: rest) with
      | none => .null
      | some identity =>
          match memory.agentAddr (trap :: rest) v1pdu.agentAddr with
          | none => .faulted
          | some agentAddr => .converted { v1pdu with
              time := asULong (memory.integerOf uptime)
              trapType := identity.trapType
              specificType := identity.specificType
              enterprise := identity.enterprise
              agentAddr := agentAddr
              variableList := rest }

end TrapMemory

/-- The sub-identifiers of the first name that `snmp_oid_compare` reads. -/
def comparedSubids : Oid → Oid → Nat
  | subid1 :: rest1, subid2 :: rest2 =>
      if subid1 = subid2 then comparedSubids rest1 rest2 + 1 else 1
  | _, _ => 0

namespace TrapMemory

variable (memory : TrapMemory)

/-- The end of what is read of a trap OID: by the comparison, and then the trap type or the last
two sub-identifiers. -/
def extent (trap : VariableList) : Nat :=
  let compared := comparedSubids (memory.front trap) trapPrefix
  if memory.isStandard trap then max compared (trapPrefix.length + 1)
  else if (memory.objidOf trap).length ≤ 2 then compared
  else max compared (memory.objidOf trap).length

/-- The end of what a call of `convert_v2pdu_to_v1` reads of the trap OID. -/
def trapOidExtent (v2pdu : TrapPdu) : Nat :=
  match checkedVarbinds (snmpClonePdu v2pdu).variableList with
  | none => 0
  | some (_, trap, _) => memory.extent trap

end TrapMemory

/-- The trap OID and the varbinds behind it, of a list that starts with the uptime and the trap
OID. -/
def notificationTrap (vars : List VariableList) : Option (Oid × List VariableList) :=
  match vars with
  | ⟨uptimeName, _, _⟩ :: ⟨trapName, _, .objid objid⟩ :: rest =>
      if uptimeName = sysuptimeOid ∧ trapName = snmptrapOid then some (objid, rest) else none
  | _ => none

/-- The value behind the name of the trap OID is an object identifier of a possible length. -/
structure Notification (pdu : TrapPdu) : Prop where
  objid : ∀ uptime trap rest, pdu.variableList = uptime :: trap :: rest →
    trap.name = snmptrapOid → ∃ objid, trap.val = .objid objid
  length : ∀ objid rest, notificationTrap pdu.variableList = some (objid, rest) →
    1 ≤ objid.length ∧ objid.length ≤ 127
  subids : ∀ objid rest, notificationTrap pdu.variableList = some (objid, rest) →
    ∀ subid ∈ objid, subid < 2 ^ 64

/-- One of `snmpTraps.1` to `snmpTraps.6` -/
def IsGenericTrap (objid : Oid) : Prop :=
  ∃ k, 1 ≤ k ∧ k ≤ 6 ∧ objid = trapPrefix ++ [k]

def AtMostZeroInserted (objid rebuilt : Oid) : Prop :=
  rebuilt = objid ∨ ∃ front last, objid = front ++ [last] ∧ rebuilt = front ++ [0, last]

/-- The fields of a trap of version 1 say what the trap OID says. -/
structure TellsTrap (objid : Oid) (v1pdu : TrapPdu) : Prop where
  generic_iff : v1pdu.trapType ≠ snmpTrapEnterprisespecific ↔ IsGenericTrap objid
  generic : ∀ k : Nat, 1 ≤ k → k ≤ 6 → objid = trapPrefix ++ [k] → v1pdu.trapType = k - 1
  specific : ¬ IsGenericTrap objid → ∃ rebuilt,
    netsnmpBuildTrapOid v1pdu maxOidLen = some rebuilt ∧ AtMostZeroInserted objid rebuilt

/-- The conversion reads inside the trap OID, tells what it says, and gives `NULL` only for other
names, for a `Counter64` and for a trap OID that is too short. -/
structure ConvertsTrap (memory : TrapMemory) (pdu : TrapPdu) : Prop where
  returns : memory.convertV2pduToV1 pdu ≠ .faulted
  inside : ∀ objid rest, notificationTrap pdu.variableList = some (objid, rest) →
    memory.trapOidExtent pdu ≤ objid.length
  tells : ∀ objid rest v1pdu, notificationTrap pdu.variableList = some (objid, rest) →
    memory.convertV2pduToV1 pdu = .converted v1pdu → TellsTrap objid v1pdu
  null_iff : memory.convertV2pduToV1 pdu = .null ↔
    ∀ objid rest, notificationTrap pdu.variableList = some (objid, rest) →
      (∃ var ∈ rest, var.type = asnCounter64) ∨ objid.length ≤ 2

/-- A trap OID below the prefix of the standard traps whose own enterprise is the one that the
varbind names. -/
def NamesOwnEnterprise (objid enterprise : Oid) : Prop :=
  objid[trapPrefix.length]? = some 7 ∧ (objid = enterprise ++ [0] ∨ objid = enterprise ++ [0, 0])

/-- A `Counter64` stops the conversion before it comes to the trap OID, or the trap OID leaves the
prefix of the standard traps before it ends. -/
def CanConvertTrap (memory : TrapMemory) (objid : Oid) (rest : List VariableList) : Prop :=
  (∃ var ∈ copyVarlist rest 9998, var.type = asnCounter64) ∨
    (¬ objid <+: trapPrefix ∧ (objid.length ≤ 2 ∨
      ((∀ var ∈ rest, var.type ≠ asnCounter64) ∧
        (∀ var valLen, findVarbindInList (copyVarlist rest 9998) agentaddrOid = some var →
          var.val ≠ .unset valLen) ∧
        (trapPrefix <+: objid → IsGenericTrap objid ∨
          NamesOwnEnterprise objid (memory.enterprise (copyVarlist rest 9998))))))

section Compared

variable {objid name more : Oid}

theorem comparedSubids_take (objid : Oid) {name : Oid} {count : Nat}
    (enough : name.length ≤ count) :
    comparedSubids (objid.take count) name = comparedSubids objid name := by
  induction name generalizing objid count with
  | nil => cases objid <;> cases count <;> rfl
  | cons subid rest ih =>
      cases count with
      | zero => cases enough
      | succ count =>
          cases objid with
          | nil => rfl
          | cons first objid =>
              simp only [List.take_succ_cons, comparedSubids]
              rw [ih objid (Nat.le_of_succ_le_succ enough)]

theorem comparedSubids_append_le (apart : ¬ objid <+: name) (more : Oid) :
    comparedSubids (objid ++ more) name ≤ objid.length := by
  induction objid generalizing name with
  | nil => exact absurd List.nil_prefix apart
  | cons first objid ih =>
      cases name with
      | nil => exact Nat.zero_le _
      | cons subid name =>
          simp only [List.cons_append, comparedSubids, List.length_cons]
          split_ifs with same
          · apply Nat.succ_le_succ
            apply ih
            intro isPrefix
            exact apart (List.cons_prefix_cons.mpr ⟨same, isPrefix⟩)
          · exact Nat.succ_le_succ (Nat.zero_le _)

theorem lt_comparedSubids_append (isPrefix : objid <+: name) (short : objid.length < name.length)
    (nonempty : more ≠ []) : objid.length < comparedSubids (objid ++ more) name := by
  induction objid generalizing name with
  | nil =>
      rcases List.exists_cons_of_ne_nil nonempty with ⟨first, rest, rfl⟩
      cases name with
      | nil => cases short
      | cons subid name =>
          simp only [List.nil_append, comparedSubids, List.length_nil]
          split_ifs <;> omega
  | cons first objid ih =>
      cases name with
      | nil => cases short
      | cons subid name =>
          rcases List.cons_prefix_cons.mp isPrefix with ⟨rfl, isPrefix'⟩
          simp only [List.cons_append, comparedSubids, if_true, List.length_cons]
          exact Nat.succ_lt_succ (ih isPrefix' (Nat.lt_of_succ_lt_succ short))

theorem take_append_eq_iff (apart : ¬ objid <+: name) (more : Oid) :
    (objid ++ more).take name.length = name ↔ name <+: objid := by
  constructor
  · intro same
    by_cases long : name.length ≤ objid.length
    · rw [List.take_append_of_le_length long] at same
      exact same ▸ List.take_prefix _ _
    · exfalso
      apply apart
      have inside : objid <+: (objid ++ more).take name.length := by
        apply List.prefix_take_iff.mpr
        exact ⟨List.prefix_append _ _, by omega⟩
      exact same ▸ inside
  · rintro ⟨rest, rfl⟩
    simp

end Compared

namespace TrapMemory

variable (memory : TrapMemory) (trap : VariableList)

theorem front_eq : ∃ more ≠ [], memory.front trap =
    (memory.objidOf trap ++ more).take trapPrefix.length := by
  refine ⟨(List.range trapPrefix.length).map fun pos =>
    memory.behind trap ((memory.objidOf trap).length + pos), by simp [trapPrefix], ?_⟩
  apply List.ext_getElem
  · simp [front]
  · intro pos inFront inTaken
    simp only [front, List.getElem_map, List.getElem_range, List.getElem_take, subidAt]
    by_cases own : pos < (memory.objidOf trap).length
    · rw [List.getElem_append_left own, List.getElem?_eq_getElem own]
      rfl
    · have back : (memory.objidOf trap).length + (pos - (memory.objidOf trap).length) = pos := by
        omega
      rw [List.getElem_append_right (by omega), List.getElem?_eq_none (by omega)]
      simp [back]

variable {memory trap}

theorem isStandard_iff (apart : ¬ memory.objidOf trap <+: trapPrefix) :
    memory.isStandard trap = true ↔ trapPrefix <+: memory.objidOf trap := by
  rcases memory.front_eq trap with ⟨more, _, front⟩
  simp only [isStandard, decide_eq_true_eq, snmpOidCompare_eq_zero_iff, front]
  exact take_append_eq_iff apart more

theorem isStandard_of_below (below : trapPrefix <+: memory.objidOf trap) :
    memory.isStandard trap = true := by
  rcases memory.front_eq trap with ⟨more, _, front⟩
  rcases below with ⟨rest, eq⟩
  simp [isStandard, front, ← eq, snmpOidCompare_eq_zero_iff]

theorem extent_le_iff : memory.extent trap ≤ (memory.objidOf trap).length ↔
    ¬ memory.objidOf trap <+: trapPrefix := by
  rcases memory.front_eq trap with ⟨more, nonempty, front⟩
  have compared : comparedSubids (memory.front trap) trapPrefix =
      comparedSubids (memory.objidOf trap ++ more) trapPrefix := by
    rw [front]
    exact comparedSubids_take _ (le_refl _)
  constructor
  · intro inside isPrefix
    by_cases short : (memory.objidOf trap).length < trapPrefix.length
    · -- the comparison runs over the end
      have beyond := lt_comparedSubids_append isPrefix short nonempty
      simp only [extent, compared] at inside
      split_ifs at inside <;> omega
    · -- the trap type is read behind the end
      have same : memory.objidOf trap = trapPrefix := by
        apply isPrefix.eq_of_length
        have := isPrefix.length_le
        omega
      have standard : memory.isStandard trap = true := by
        simp [isStandard, front, same, snmpOidCompare_eq_zero_iff]
      simp only [extent, standard, if_true, same] at inside
      omega
  · intro apart
    have within := comparedSubids_append_le apart more
    simp only [extent, compared]
    split_ifs with standard
    · rcases (isStandard_iff apart).mp standard with ⟨rest, eq⟩
      have longer : rest ≠ [] := by
        rintro rfl
        rw [List.append_nil] at eq
        exact apart (eq ▸ List.prefix_rfl)
      have length : (memory.objidOf trap).length = trapPrefix.length + rest.length := by
        rw [← eq, List.length_append]
      have := List.length_pos_iff.mpr longer
      omega
    · exact within
    · omega

end TrapMemory

section Fields

variable {objid enterprise : Oid} {v1pdu : TrapPdu}

theorem netsnmpBuildTrapOid_specific (specific : v1pdu.trapType = snmpTrapEnterprisespecific)
    (short : v1pdu.enterprise.length ≤ 126) :
    netsnmpBuildTrapOid v1pdu maxOidLen =
      some (v1pdu.enterprise ++ [0, asULong v1pdu.specificType]) := by
  have fits : ¬ (maxOidLen < v1pdu.enterprise.length ∨
      maxOidLen < v1pdu.enterprise.length + 2) := by
    simp only [maxOidLen]
    omega
  simp [netsnmpBuildTrapOid, specific, fits]

theorem asULong_asLong {subid : Nat} (small : subid < 2 ^ 64) :
    asULong (asLong (subid : Int)) = subid := by
  simp only [asULong, asLong, Int.bmod_def]
  split_ifs <;> omega

theorem splitTrapOid_tells {front : Oid} (subid : Nat) {last : Nat} (nonempty : front ≠ [])
    (short : front.length ≤ 125) (small : last < 2 ^ 64) :
    ∃ identity, splitTrapOid (front ++ [subid, last]) = some identity ∧
      ∀ v1pdu : TrapPdu, v1pdu.trapType = identity.trapType →
        v1pdu.specificType = identity.specificType → v1pdu.enterprise = identity.enterprise →
        v1pdu.trapType = snmpTrapEnterprisespecific ∧ ∃ rebuilt,
          netsnmpBuildTrapOid v1pdu maxOidLen = some rebuilt ∧
            AtMostZeroInserted (front ++ [subid, last]) rebuilt := by
  have positive := List.length_pos_iff.mpr nonempty
  by_cases zero : subid = 0
  · subst zero
    refine ⟨_, splitTrapOid_append front last positive, ?_⟩
    intro v1pdu trapType specific own
    have fits : v1pdu.enterprise.length ≤ 126 := by
      simp only [own]
      omega
    refine ⟨trapType, _, netsnmpBuildTrapOid_specific trapType fits, Or.inl ?_⟩
    rw [own, specific, asULong_asLong small]
  · have length : (front ++ [subid, last]).length = front.length + 2 := by simp
    have long : ¬ front.length + 2 ≤ 2 := by omega
    have ends : (front ++ [subid, last]).getD (front.length + 2 - 1) 0 = last := by simp
    have next : (front ++ [subid, last]).getD (front.length + 2 - 1 - 1) 0 = subid := by simp
    have taken : (front ++ [subid, last]).take (front.length + 2 - 1) = front ++ [subid] := by
      rw [List.take_append, List.take_of_length_le (by omega)]
      simp
    refine ⟨⟨snmpTrapEnterprisespecific, asLong last, front ++ [subid]⟩, ?_, ?_⟩
    · simp only [splitTrapOid, length, if_neg long, ends, next, if_neg zero, taken]
    · intro v1pdu trapType specific own
      have fits : v1pdu.enterprise.length ≤ 126 := by
        rw [own, List.length_append, List.length_singleton]
        omega
      refine ⟨trapType, _, netsnmpBuildTrapOid_specific trapType fits, Or.inr ?_⟩
      refine ⟨front ++ [subid], last, by simp, ?_⟩
      rw [own, specific, asULong_asLong small]

theorem exists_two_of_length {objid : Oid} (long : ¬ objid.length ≤ 2) :
    ∃ front subid last, objid = front ++ [subid, last] ∧ front ≠ [] := by
  rcases List.eq_nil_or_concat objid with rfl | ⟨init, last, rfl⟩
  · exact absurd (Nat.zero_le _) long
  · rcases List.eq_nil_or_concat init with rfl | ⟨front, subid, rfl⟩
    · exact absurd (by simp) long
    · refine ⟨front, subid, last, by simp, ?_⟩
      rintro rfl
      exact long (by simp)

theorem tellsTrap_of_split (apart : ¬ trapPrefix <+: objid) (long : ¬ objid.length ≤ 2)
    (short : objid.length ≤ 127) (small : ∀ subid ∈ objid, subid < 2 ^ 64) :
    ∃ identity, splitTrapOid objid = some identity ∧
      ∀ v1pdu : TrapPdu, v1pdu.trapType = identity.trapType →
        v1pdu.specificType = identity.specificType → v1pdu.enterprise = identity.enterprise →
        TellsTrap objid v1pdu := by
  rcases exists_two_of_length long with ⟨front, subid, last, rfl, nonempty⟩
  have short' : front.length ≤ 125 := by
    rw [List.length_append] at short
    simp only [List.length_cons, List.length_nil] at short
    omega
  have small' : last < 2 ^ 64 := small last (by simp)
  rcases splitTrapOid_tells subid nonempty short' small' with ⟨identity, split, tells⟩
  refine ⟨identity, split, ?_⟩
  intro v1pdu trapType specific own
  rcases tells v1pdu trapType specific own with ⟨isSpecific, rebuilds⟩
  have notGeneric : ¬ IsGenericTrap (front ++ [subid, last]) := by
    rintro ⟨k, -, -, eq⟩
    exact apart (eq ▸ List.prefix_append _ _)
  constructor
  · exact iff_of_false (not_not_intro isSpecific) notGeneric
  · intro k lower upper eq
    exact absurd ⟨k, lower, upper, eq⟩ notGeneric
  · intro _
    exact rebuilds

theorem genericType {k : Nat} (lower : 1 ≤ k) (upper : k ≤ 6) :
    asLong (asULong ((k : Int) - 1)) = k - 1 := by
  rw [asLong_asULong, bmod_eq] <;> omega

theorem genericType_eq_six_iff {subid : Nat} (small : subid < 2 ^ 64) :
    asLong (asULong ((subid : Int) - 1)) = snmpTrapEnterprisespecific ↔ subid = 7 := by
  rw [asLong_asULong]
  exact bmod_eq_six_iff small

theorem atMostZeroInserted_iff : AtMostZeroInserted objid (enterprise ++ [0, 0]) ↔
    objid = enterprise ++ [0] ∨ objid = enterprise ++ [0, 0] := by
  constructor
  · rintro (same | ⟨front, last, rfl, eq⟩)
    · exact Or.inr same.symm
    · rcases List.append_inj' eq rfl with ⟨rfl, two⟩
      cases two
      exact Or.inl rfl
  · rintro (rfl | rfl)
    · exact Or.inr ⟨enterprise, 0, rfl, rfl⟩
    · exact Or.inl rfl

theorem tellsTrap_of_generic {k : Nat} (lower : 1 ≤ k) (upper : k ≤ 6)
    (trapType : v1pdu.trapType = k - 1) : TellsTrap (trapPrefix ++ [k]) v1pdu := by
  have isGeneric : IsGenericTrap (trapPrefix ++ [k]) := ⟨k, lower, upper, rfl⟩
  constructor
  · apply iff_of_true _ isGeneric
    rw [trapType]
    simp only [snmpTrapEnterprisespecific]
    omega
  · intro k' _ _ eq
    cases List.append_cancel_left eq
    exact trapType
  · intro notGeneric
    exact absurd isGeneric notGeneric

theorem tellsTrap_below_iff {subid : Nat} {more : Oid} (small : subid < 2 ^ 64)
    (short : (trapPrefix ++ subid :: more).length ≤ 127)
    (trapType : v1pdu.trapType = asLong (asULong ((subid : Int) - 1)))
    (specificType : v1pdu.specificType = 0) :
    TellsTrap (trapPrefix ++ subid :: more) v1pdu ↔
      IsGenericTrap (trapPrefix ++ subid :: more) ∨
        NamesOwnEnterprise (trapPrefix ++ subid :: more) v1pdu.enterprise := by
  have tenth : (trapPrefix ++ subid :: more)[trapPrefix.length]? = some subid := by simp
  constructor
  · intro tells
    by_cases generic : IsGenericTrap (trapPrefix ++ subid :: more)
    · exact Or.inl generic
    · right
      have isSpecific : v1pdu.trapType = snmpTrapEnterprisespecific :=
        not_not.mp (mt tells.generic_iff.mp generic)
      refine ⟨?_, ?_⟩
      · rw [tenth, (genericType_eq_six_iff small).mp (trapType ▸ isSpecific)]
      · rcases tells.specific generic with ⟨rebuilt, builds, zero⟩
        have rebuilds : rebuilt = v1pdu.enterprise ++ [0, 0] := by
          simp only [netsnmpBuildTrapOid, isSpecific, if_true] at builds
          split_ifs at builds
          rw [specificType] at builds
          exact (Option.some.inj builds).symm
        exact atMostZeroInserted_iff.mp (rebuilds ▸ zero)
  · rintro (⟨k, lower, upper, eq⟩ | ⟨seventh, own⟩)
    · rw [eq]
      apply tellsTrap_of_generic lower upper
      cases List.append_cancel_left eq
      rw [trapType, genericType lower upper]
    · cases tenth.symm.trans seventh
      have isSpecific : v1pdu.trapType = snmpTrapEnterprisespecific :=
        trapType.trans ((genericType_eq_six_iff small).mpr rfl)
      have notGeneric : ¬ IsGenericTrap (trapPrefix ++ 7 :: more) := by
        rintro ⟨k, _, upper, eq⟩
        cases List.append_cancel_left eq
        omega
      constructor
      · exact iff_of_false (not_not_intro isSpecific) notGeneric
      · intro k lower upper eq
        exact absurd ⟨k, lower, upper, eq⟩ notGeneric
      · intro _
        have fits : v1pdu.enterprise.length ≤ 126 := by
          rcases own with eq | eq
          · rw [eq, List.length_append, List.length_singleton] at short
            omega
          · rw [eq, List.length_append] at short
            simp only [List.length_cons, List.length_nil] at short
            omega
        refine ⟨_, netsnmpBuildTrapOid_specific isSpecific fits, ?_⟩
        rw [specificType]
        exact atMostZeroInserted_iff.mpr own

end Fields

section Converts

variable {memory : TrapMemory} {pdu : TrapPdu} {objid : Oid} {rest : List VariableList}

theorem notificationTrap_eq_some_iff {vars : List VariableList} :
    notificationTrap vars = some (objid, rest) ↔ ∃ uptime trap, vars = uptime :: trap :: rest ∧
      uptime.name = sysuptimeOid ∧ trap.name = snmptrapOid ∧ trap.val = .objid objid := by
  constructor
  · intro found
    rcases vars with _ | ⟨uptime, _ | ⟨⟨name, type, val⟩, vars⟩⟩
    · cases found
    · cases found
    · cases val <;> simp only [notificationTrap] at found
      all_goals first | (cases found) | skip
      split_ifs at found with names
      cases found
      exact ⟨uptime, ⟨name, type, .objid objid⟩, rfl, names.1, names.2, rfl⟩
  · rintro ⟨uptime, ⟨name, type, val⟩, rfl, uptimeName, trapName, eq⟩
    cases eq
    exact if_pos ⟨uptimeName, trapName⟩

theorem exists_type_of_copyVarlist {vars : List VariableList} {copyCount : Nat} {type : Byte}
    (copied : ∃ var ∈ copyVarlist vars copyCount, var.type = type) :
    ∃ var ∈ vars, var.type = type := by
  rcases copied with ⟨var, mem, rfl⟩
  rw [copyVarlist_eq_map] at mem
  rcases List.mem_map.mp mem with ⟨source, sourceMem, rfl⟩
  exact ⟨source, List.mem_of_mem_take sourceMem, (snmpCloneVar_type source).symm⟩

theorem identity_of_trapIdentity {trap : VariableList} {vblist : List VariableList} {objid : Oid}
    {identity : TrapIdentity} (own : trap.val = .objid objid) (apart : ¬ objid <+: trapPrefix)
    (found : (if snmpOidCompare (objid.take trapPrefix.length) trapPrefix = 0 then
      standardTrap objid vblist else splitTrapOid objid) = some identity) :
    memory.identity trap vblist = some identity := by
  have own' : memory.objidOf trap = objid := by rw [TrapMemory.objidOf, own]
  have standard_iff : memory.isStandard trap = true ↔
      snmpOidCompare (objid.take trapPrefix.length) trapPrefix = 0 := by
    rw [TrapMemory.isStandard_iff (own' ▸ apart), own', snmpOidCompare_eq_zero_iff,
      List.prefix_iff_eq_take, eq_comm]
  rw [TrapMemory.identity, own']
  by_cases standard : snmpOidCompare (objid.take trapPrefix.length) trapPrefix = 0
  · rw [if_pos standard, standardTrap] at found
    rw [if_pos (standard_iff.mpr standard), TrapMemory.subidAt, own', TrapMemory.enterprise]
    cases subid : objid[trapPrefix.length]? with
    | none => simp [subid] at found
    | some subid' =>
        simp only [subid] at found
        cases looked : findVarbindInList vblist snmptrapenterpriseOid with
        | none =>
            rw [looked] at found
            exact found
        | some var =>
            simp only [looked] at found
            split at found
            · rename_i enterprise value
              simp only [TrapMemory.objidOf, value]
              exact found
            · exact absurd found (by simp)
  · rw [if_neg standard] at found
    rw [if_neg fun standard' => standard (standard_iff.mp standard')]
    exact found

theorem agentAddr_of_copyAgentAddr {vblist : List VariableList} {agentAddr address : Vector Byte 4}
    (copied : copyAgentAddr vblist agentAddr = some address) :
    memory.agentAddr vblist agentAddr = some address := by
  rw [copyAgentAddr] at copied
  rw [TrapMemory.agentAddr]
  cases found : findVarbindInList vblist agentaddrOid with
  | none =>
      rw [found] at copied
      exact copied
  | some var =>
      simp only [found] at copied ⊢
      split at copied
      · rename_i string
        simp only [string]
        exact copied
      · exact absurd copied (by simp)

theorem convertV2pduToV1_of_some {v1pdu : TrapPdu}
    (converted : NetSnmp.convertV2pduToV1 pdu = some v1pdu)
    (apart : ∀ uptime trap rest objid, (snmpClonePdu pdu).variableList = uptime :: trap :: rest →
      trap.val = .objid objid → ¬ objid <+: trapPrefix) :
    memory.convertV2pduToV1 pdu = .converted v1pdu := by
  rw [NetSnmp.convertV2pduToV1] at converted
  rw [TrapMemory.convertV2pduToV1]
  rcases vars : (snmpClonePdu pdu).variableList with _ | ⟨uptime, _ | ⟨trap, rest⟩⟩
  · simp [vars] at converted
  · simp [vars] at converted
  · simp only [vars] at converted ⊢
    split_ifs at converted with uptimeName trapName counter64
    simp only [checkedVarbinds, uptimeName, trapName, counter64, if_false, Bool.false_eq_true]
    cases time : uptime.val <;> cases own : trap.val <;>
      simp only [time, own, reduceCtorEq] at converted
    rename_i value objid
    cases identity_eq : (if snmpOidCompare (objid.take trapPrefix.length) trapPrefix = 0 then
        standardTrap objid (trap :: rest) else splitTrapOid objid) with
    | none => simp [identity_eq] at converted
    | some identity =>
        cases address_eq : copyAgentAddr (trap :: rest) (snmpClonePdu pdu).agentAddr with
        | none => simp [identity_eq, address_eq] at converted
        | some agentAddr =>
            simp only [identity_eq, address_eq, Option.some.injEq] at converted
            rw [identity_of_trapIdentity own (apart uptime trap rest objid vars own) identity_eq,
              agentAddr_of_copyAgentAddr address_eq, ← converted, TrapMemory.integerOf, time]

theorem convertV2pduToV1_of_none (notification : Notification pdu)
    (none : notificationTrap pdu.variableList = none) :
    memory.convertV2pduToV1 pdu = .null := by
  have unchecked : checkedVarbinds (snmpClonePdu pdu).variableList = Option.none := by
    cases checked : checkedVarbinds (snmpClonePdu pdu).variableList with
    | none => rfl
    | some found =>
        exfalso
        rcases vars : pdu.variableList with _ | ⟨uptime, _ | ⟨trap, rest⟩⟩
        · simp [snmpClonePdu, copyVarlist_eq_map, vars, checkedVarbinds] at checked
        · simp [snmpClonePdu, copyVarlist_eq_map, vars, checkedVarbinds] at checked
        · simp only [snmpClonePdu, copyVarlist_eq_map, vars, List.take_succ_cons, List.map_cons,
            checkedVarbinds, snmpCloneVar_name] at checked
          split_ifs at checked with uptimeOther trapOther
          have uptimeName := snmpOidCompare_eq_zero_iff.mp (not_not.mp uptimeOther)
          have trapName := snmpOidCompare_eq_zero_iff.mp (not_not.mp trapOther)
          rcases notification.objid _ _ _ vars trapName with ⟨objid, val⟩
          have isTrap := notificationTrap_eq_some_iff.mpr
            ⟨uptime, trap, vars, uptimeName, trapName, val⟩
          cases none.symm.trans isTrap
  simp only [TrapMemory.convertV2pduToV1]
  rw [show ({ snmpClonePdu pdu with command := snmpMsgTrap } : TrapPdu).variableList =
    (snmpClonePdu pdu).variableList from rfl, unchecked]

theorem checkedVarbinds_of_trap {uptime trap : VariableList}
    (vars : pdu.variableList = uptime :: trap :: rest) (uptimeName : uptime.name = sysuptimeOid)
    (trapName : trap.name = snmptrapOid) :
    checkedVarbinds (snmpClonePdu pdu).variableList =
      if ∃ var ∈ copyVarlist rest 9998, var.type = asnCounter64 then none
      else some (snmpCloneVar uptime, snmpCloneVar trap, copyVarlist rest 9998) := by
  have copied : (snmpClonePdu pdu).variableList =
      snmpCloneVar uptime :: snmpCloneVar trap :: copyVarlist rest 9998 := by
    simp [snmpClonePdu, copyVarlist_eq_map, vars]
  simp only [copied, checkedVarbinds, snmpOidCompare_eq_zero_iff, snmpCloneVar_name, uptimeName,
    trapName, ne_eq, not_true_eq_false, if_false, List.any_eq_true, decide_eq_true_eq]

theorem convertV2pduToV1_of_counter64
    (counter : ∃ var ∈ copyVarlist rest 9998, var.type = asnCounter64)
    {uptime trap : VariableList} (vars : pdu.variableList = uptime :: trap :: rest)
    (uptimeName : uptime.name = sysuptimeOid) (trapName : trap.name = snmptrapOid) :
    memory.convertV2pduToV1 pdu = .null := by
  have checked := checkedVarbinds_of_trap vars uptimeName trapName
  simp only [TrapMemory.convertV2pduToV1]
  rw [show ({ snmpClonePdu pdu with command := snmpMsgTrap } : TrapPdu).variableList =
    (snmpClonePdu pdu).variableList from rfl, checked, if_pos counter]

theorem find_behind_trap {trap : VariableList} (trapName : trap.name = snmptrapOid)
    {name : Oid} (other : name ≠ snmptrapOid) (vars : List VariableList) :
    findVarbindInList (trap :: vars) name = findVarbindInList vars name := by
  have apart : trap.name ≠ name := by
    intro same
    exact other (same.symm.trans trapName)
  unfold findVarbindInList
  rw [List.find?_cons_of_neg]
  simpa [snmpOidCompare_eq_zero_iff] using apart

def convertedFrom (v1pdu : TrapPdu) (time : Int) (rest : List VariableList)
    (identity : Option TrapIdentity) (agentAddr : Option (Vector Byte 4)) : TrapConverted :=
  match identity with
  | none => .null
  | some identity =>
      match agentAddr with
      | none => .faulted
      | some agentAddr => .converted { v1pdu with
          time := asULong time
          trapType := identity.trapType
          specificType := identity.specificType
          enterprise := identity.enterprise
          agentAddr := agentAddr
          variableList := rest }

theorem convertV2pduToV1_of_trap (none : ¬ ∃ var ∈ copyVarlist rest 9998, var.type = asnCounter64)
    {uptime trap : VariableList} (vars : pdu.variableList = uptime :: trap :: rest)
    (uptimeName : uptime.name = sysuptimeOid) (trapName : trap.name = snmptrapOid) :
    memory.convertV2pduToV1 pdu = convertedFrom { snmpClonePdu pdu with command := snmpMsgTrap }
      (memory.integerOf (snmpCloneVar uptime)) (copyVarlist rest 9998)
      (memory.identity (snmpCloneVar trap) (snmpCloneVar trap :: copyVarlist rest 9998))
      (memory.agentAddr (copyVarlist rest 9998) pdu.agentAddr) := by
  have checked := checkedVarbinds_of_trap vars uptimeName trapName
  rw [if_neg none] at checked
  have cloneName : (snmpCloneVar trap).name = snmptrapOid := by rw [snmpCloneVar_name, trapName]
  have address : memory.agentAddr (snmpCloneVar trap :: copyVarlist rest 9998) =
      memory.agentAddr (copyVarlist rest 9998) := by
    funext agentAddr
    simp only [TrapMemory.agentAddr]
    rw [find_behind_trap cloneName (by decide)]
  simp only [TrapMemory.convertV2pduToV1]
  rw [show ({ snmpClonePdu pdu with command := snmpMsgTrap } : TrapPdu).variableList =
    (snmpClonePdu pdu).variableList from rfl, checked]
  simp only [address]
  rfl

theorem agentAddr_eq_none_iff {vars : List VariableList} {agentAddr : Vector Byte 4} :
    memory.agentAddr vars agentAddr = none ↔ ¬ ∀ var valLen,
      findVarbindInList vars agentaddrOid = some var → var.val ≠ .unset valLen := by
  simp only [TrapMemory.agentAddr]
  cases findVarbindInList vars agentaddrOid with
  | none => simp
  | some var =>
      rcases var with ⟨name, type, val⟩
      cases val with
      | string octets =>
          rcases octets with _ | ⟨a, _ | ⟨b, _ | ⟨c, _ | ⟨d, octets⟩⟩⟩⟩ <;> simp
      | _ => simp

theorem identity_tells {trap : VariableList} (own : memory.objidOf trap = objid)
    (apart : ¬ objid <+: trapPrefix) (long : ¬ objid.length ≤ 2) (short : objid.length ≤ 127)
    (small : ∀ subid ∈ objid, subid < 2 ^ 64) (vblist : List VariableList) :
    ∃ identity, memory.identity trap vblist = some identity ∧
      ∀ v1pdu : TrapPdu, v1pdu.trapType = identity.trapType →
        v1pdu.specificType = identity.specificType → v1pdu.enterprise = identity.enterprise →
        (TellsTrap objid v1pdu ↔ (trapPrefix <+: objid →
          IsGenericTrap objid ∨ NamesOwnEnterprise objid (memory.enterprise vblist))) := by
  have standard_iff : memory.isStandard trap = true ↔ trapPrefix <+: objid := by
    rw [← own]
    exact TrapMemory.isStandard_iff (own ▸ apart)
  by_cases below : trapPrefix <+: objid
  · have standard := standard_iff.mpr below
    rcases below with ⟨rest, rfl⟩
    cases rest with
    | nil => exact absurd (by simp) apart
    | cons subid more =>
        have tenth : memory.subidAt trap trapPrefix.length = subid := by
          simp [TrapMemory.subidAt, own]
        refine ⟨⟨asLong (asULong ((subid : Int) - 1)), 0, memory.enterprise vblist⟩, ?_, ?_⟩
        · simp only [TrapMemory.identity, standard, if_true, tenth]
        · intro v1pdu trapType specificType enterprise
          have smallSubid : subid < 2 ^ 64 := small subid (by simp)
          dsimp only at trapType specificType enterprise
          rw [tellsTrap_below_iff smallSubid short trapType specificType, enterprise]
          simp
  · have notStandard : memory.isStandard trap = false :=
      Bool.eq_false_iff.mpr (mt standard_iff.mp below)
    rcases tellsTrap_of_split below long short small with ⟨identity, split, tells⟩
    refine ⟨identity, ?_, ?_⟩
    · simp only [TrapMemory.identity, notStandard, Bool.false_eq_true, if_false, own, split]
    · intro v1pdu trapType specificType enterprise
      apply iff_of_true (tells v1pdu trapType specificType enterprise)
      intro isBelow
      exact absurd isBelow below

theorem identity_of_short {trap : VariableList} (own : memory.objidOf trap = objid)
    (apart : ¬ objid <+: trapPrefix) (short : objid.length ≤ 2) (vblist : List VariableList) :
    memory.identity trap vblist = none := by
  have notStandard : memory.isStandard trap = false := by
    apply Bool.eq_false_iff.mpr
    intro standard
    have below := (TrapMemory.isStandard_iff (own ▸ apart)).mp standard
    have := below.length_le
    rw [own] at this
    simp only [trapPrefix, snmpOidSnmpmodules, List.length_append, List.length_cons,
      List.length_nil] at this
    omega
  simp only [TrapMemory.identity, notStandard, Bool.false_eq_true, if_false, own, splitTrapOid,
    short, if_true]

theorem convertsTrap_iff_of_trap
    (found : notificationTrap pdu.variableList = some (objid, rest)) :
    ConvertsTrap memory pdu ↔ memory.convertV2pduToV1 pdu ≠ .faulted ∧
      memory.trapOidExtent pdu ≤ objid.length ∧
      (∀ v1pdu, memory.convertV2pduToV1 pdu = .converted v1pdu → TellsTrap objid v1pdu) ∧
      (memory.convertV2pduToV1 pdu = .null ↔
        (∃ var ∈ rest, var.type = asnCounter64) ∨ objid.length ≤ 2) := by
  constructor
  · intro converts
    refine ⟨converts.returns, converts.inside _ _ found,
      fun v1pdu => converts.tells _ _ v1pdu found, ?_⟩
    rw [converts.null_iff, found]
    simp
  · rintro ⟨returns, inside, tells, null_iff⟩
    constructor
    · exact returns
    · intro objid' rest' found'
      cases found.symm.trans found'
      exact inside
    · intro objid' rest' v1pdu found'
      cases found.symm.trans found'
      exact tells v1pdu
    · rw [null_iff, found]
      simp

theorem convertsTrap_of_trap_iff (notification : Notification pdu)
    (found : notificationTrap pdu.variableList = some (objid, rest)) :
    ConvertsTrap memory pdu ↔ CanConvertTrap memory objid rest := by
  rw [convertsTrap_iff_of_trap found]
  have short := (notification.length objid rest found).2
  have small := notification.subids objid rest found
  rcases notificationTrap_eq_some_iff.mp found with
    ⟨uptime, trap, vars, uptimeName, trapName, val⟩
  have checked := checkedVarbinds_of_trap vars uptimeName trapName
  by_cases counter : ∃ var ∈ copyVarlist rest 9998, var.type = asnCounter64
  · -- the conversion ends in front of the trap OID
    have null : memory.convertV2pduToV1 pdu = .null :=
      convertV2pduToV1_of_counter64 counter vars uptimeName trapName
    have extent : memory.trapOidExtent pdu = 0 := by
      simp only [TrapMemory.trapOidExtent, checked, if_pos counter]
    have follows := exists_type_of_copyVarlist counter
    apply iff_of_true
    · rw [null, extent]
      simp [follows]
    · exact Or.inl counter
  · have own : memory.objidOf (snmpCloneVar trap) = objid := by
      simp [snmpCloneVar, val, TrapMemory.objidOf]
    have extent : memory.trapOidExtent pdu = memory.extent (snmpCloneVar trap) := by
      simp only [TrapMemory.trapOidExtent, checked, if_neg counter]
    have inside_iff : memory.extent (snmpCloneVar trap) ≤ objid.length ↔
        ¬ objid <+: trapPrefix := by
      rw [← own]
      exact TrapMemory.extent_le_iff
    have result : memory.convertV2pduToV1 pdu = _ :=
      convertV2pduToV1_of_trap counter vars uptimeName trapName
    have cloneName : (snmpCloneVar trap).name = snmptrapOid := by rw [snmpCloneVar_name, trapName]
    have enterprise : memory.enterprise (snmpCloneVar trap :: copyVarlist rest 9998) =
        memory.enterprise (copyVarlist rest 9998) := by
      simp only [TrapMemory.enterprise]
      rw [find_behind_trap cloneName (by decide)]
    simp only [CanConvertTrap, counter, false_or]
    rw [extent, inside_iff]
    by_cases apart : objid <+: trapPrefix
    · simp [apart]
    · by_cases tooShort : objid.length ≤ 2
      · rw [identity_of_short own apart tooShort] at result
        simp [result, convertedFrom, apart, tooShort]
      · rcases identity_tells own apart tooShort short small
          (snmpCloneVar trap :: copyVarlist rest 9998) with ⟨identity, eq, tells⟩
        rw [eq] at result
        rw [enterprise] at tells
        cases address : memory.agentAddr (copyVarlist rest 9998) pdu.agentAddr with
        | none =>
            have unset := agentAddr_eq_none_iff.mp address
            rw [address] at result
            simp [result, convertedFrom, unset, tooShort]
        | some agentAddr =>
            have set : ∀ var valLen, findVarbindInList (copyVarlist rest 9998) agentaddrOid =
                some var → var.val ≠ .unset valLen := by
              by_contra unset
              cases address.symm.trans (agentAddr_eq_none_iff.mpr unset)
            rw [address] at result
            have told : (∀ v1pdu, memory.convertV2pduToV1 pdu = .converted v1pdu →
                TellsTrap objid v1pdu) ↔ (trapPrefix <+: objid → IsGenericTrap objid ∨
                  NamesOwnEnterprise objid (memory.enterprise (copyVarlist rest 9998))) := by
              simp only [result, convertedFrom, TrapConverted.converted.injEq]
              rw [forall_eq', tells]
              all_goals rfl
            have isSet : (∀ var valLen, findVarbindInList (copyVarlist rest 9998) agentaddrOid =
                some var → var.val ≠ .unset valLen) ↔ True := iff_true_intro set
            rw [told, result, isSet]
            simp [convertedFrom, apart, tooShort, and_comm]

/-- The conversion does what is asked of it if and only if a copied `Counter64` stops it, or the
trap OID is neither a prefix of the prefix of the standard traps nor an OID below that prefix other
than the six, the address has a value and every `Counter64` is copied. -/
theorem convertV2pduToV1_convertsTrap_iff (memory : TrapMemory) (notification : Notification pdu) :
    ConvertsTrap memory pdu ↔ ∀ objid rest,
      notificationTrap pdu.variableList = some (objid, rest) →
        CanConvertTrap memory objid rest := by
  cases found : notificationTrap pdu.variableList with
  | none =>
      have null : memory.convertV2pduToV1 pdu = .null :=
        convertV2pduToV1_of_none notification found
      apply iff_of_true
      · constructor
        · simp [null]
        · simp [found]
        · simp [found]
        · simp [null, found]
      · simp
  | some pair =>
      rcases pair with ⟨objid, rest⟩
      rw [convertsTrap_of_trap_iff notification found]
      simp

def notificationOf (objid : Oid) : TrapPdu :=
  { command := snmpMsgTrap2
    variableList := [⟨sysuptimeOid, asnTimeticks, .integer 7⟩,
      ⟨snmptrapOid, asnObjectId, .objid objid⟩] }

def zeroMemory : TrapMemory :=
  { behind := fun _ _ => 0
    integer := fun _ => 0
    objid := fun _ => []
    octets := fun _ => #v[0, 0, 0, 0] }

theorem notificationTrap_notificationOf (objid : Oid) :
    notificationTrap (notificationOf objid).variableList = some (objid, []) := by
  simp [notificationTrap, notificationOf]

theorem notificationOf_notification (nonempty : 1 ≤ objid.length) (short : objid.length ≤ 127)
    (small : ∀ subid ∈ objid, subid < 2 ^ 64) : Notification (notificationOf objid) := by
  have found := notificationTrap_notificationOf objid
  constructor
  · intro uptime trap rest vars _
    cases vars
    exact ⟨objid, rfl⟩
  · intro objid' rest' found'
    cases found.symm.trans found'
    exact ⟨nonempty, short⟩
  · intro objid' rest' found'
    cases found.symm.trans found'
    exact small

theorem convertV2pduToV1_convertsTrap_coldStart :
    ConvertsTrap zeroMemory (notificationOf coldStartOid) := by
  apply (convertV2pduToV1_convertsTrap_iff zeroMemory
    (notificationOf_notification (by decide) (by decide) (by decide))).mpr
  intro objid rest found
  cases (notificationTrap_notificationOf coldStartOid).symm.trans found
  right
  refine ⟨by decide, Or.inr ⟨by simp, by simp [copyVarlist_eq_map, findVarbindInList], ?_⟩⟩
  intro _
  exact Or.inl ⟨1, by decide, by decide, rfl⟩

theorem not_convertV2pduToV1_convertsTrap :
    ¬ ∀ (memory : TrapMemory) (pdu : TrapPdu), Notification pdu → ConvertsTrap memory pdu := by
  intro alwaysConverts
  have converts := alwaysConverts zeroMemory (notificationOf trapPrefix)
    (notificationOf_notification (by decide) (by decide) (by decide))
  have inside := converts.inside trapPrefix [] (notificationTrap_notificationOf trapPrefix)
  exact absurd inside (by decide)

end Converts

end NetSnmp
