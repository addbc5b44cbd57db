import NetSnmp.Agent.TrapConversion

/-!
# Copies of PDUs

`snmp_clone_pdu`, `snmp_split_pdu` and `snmp_fix_pdu`, which share a loop over the variables.
The copies are new variables; allocation succeeds.
-/

namespace NetSnmp

def copyPduVars (pdu newpdu : NetsnmpPdu) (dropErr : Bool) (skipCount copyCount : Int) :
    NetsnmpPdu :=
  let dropIdx := if dropErr then pdu.errindex - skipCount else 0
  let vars := pdu.variableList.drop skipCount.toNat
  { newpdu with variableList := copyVarlistLoop dropIdx 0 copyCount vars }

def clonePduHeader (pdu : NetsnmpPdu) : NetsnmpPdu := { pdu with variableList := [] }

def clonePdu (pdu : NetsnmpPdu) (dropErr : Bool) : NetsnmpPdu :=
  copyPduVars pdu (clonePduHeader pdu) dropErr 0 10000

/-- `snmp_clone_pdu` -/
def cloneWholePdu (pdu : NetsnmpPdu) : NetsnmpPdu := clonePdu pdu false

def snmpSplitPdu (pdu : NetsnmpPdu) (skipCount copyCount : Int) : NetsnmpPdu :=
  copyPduVars pdu (clonePduHeader pdu) false skipCount copyCount

/-- `snmp_fix_pdu`; `reqid` is the next request ID. -/
def snmpFixPdu (reqid : Int) (pdu : NetsnmpPdu) (command : Int) : Option NetsnmpPdu :=
  if pdu.command ≠ snmpMsgResponse ∨ pdu.errstat = 0 ∨ pdu.variableList = [] ∨
      (pdu.variableList.length : Int).bmod (2 ^ 32) < pdu.errindex ∨ pdu.errindex ≤ 0 then none
  else
    let newpdu := clonePdu pdu true
    if newpdu.variableList = [] then none
    else some { newpdu with command := command, reqid := reqid, errstat := -1, errindex := -1 }

theorem copyVarlistLoop_eq {errindex : Int} {ii : Nat} (ahead : (ii : Int) < errindex)
    (copyCount : Nat) (vars : List VariableList) :
    copyVarlistLoop errindex ii copyCount vars =
      ((vars.take copyCount).eraseIdx (errindex.toNat - 1 - ii)).map snmpCloneVar := by
  induction vars generalizing ii copyCount with
  | nil => simp [copyVarlistLoop]
  | cons var vars ih =>
      rw [copyVarlistLoop]
      cases copyCount with
      | zero => simp
      | succ copyCount =>
          have left : (0 : Int) < ((copyCount + 1 : Nat) : Int) := by omega
          have count : ((copyCount + 1 : Nat) : Int) - 1 = copyCount := by omega
          rw [if_pos left, count, List.take_succ_cons]
          by_cases here : ((ii + 1 : Nat) : Int) = errindex
          · have at_zero : errindex.toNat - 1 - ii = 0 := by omega
            rw [if_pos here, copyVarlistLoop_drop (by omega), at_zero, Int.toNat_natCast]
            rfl
          · have behind : errindex.toNat - 1 - ii = errindex.toNat - 1 - (ii + 1) + 1 := by omega
            rw [if_neg here, ih (by omega), behind, List.eraseIdx_cons_succ]
            rfl

theorem clonePdu_false (pdu : NetsnmpPdu) :
    (clonePdu pdu false).variableList = (pdu.variableList.take 10000).map snmpCloneVar :=
  copyVarlistLoop_drop (le_refl _) 10000 _

theorem clonePdu_true {pdu : NetsnmpPdu} (positive : 0 < pdu.errindex) :
    (clonePdu pdu true).variableList =
      ((pdu.variableList.take 10000).eraseIdx (pdu.errindex.toNat - 1)).map snmpCloneVar := by
  have dropIdx : pdu.errindex - 0 = pdu.errindex := Int.sub_zero _
  have copied := @copyVarlistLoop_eq _ 0 positive 10000 pdu.variableList
  simpa [clonePdu, copyPduVars, dropIdx] using copied

/-- A variable with the name, the type and the value of another one. -/
structure SameVarbind (var var' : VariableList) : Prop where
  name : var'.name = var.name
  type : var'.type = var.type
  val : var'.val = var.val ∨ ∃ valLen valLen', var.val = .unset valLen ∧ var'.val = .unset valLen'

theorem sameVarbind_snmpCloneVar (var : VariableList) : SameVarbind var (snmpCloneVar var) := by
  constructor
  · exact snmpCloneVar_name var
  · exact snmpCloneVar_type var
  · rcases var with ⟨name, type, val⟩
    cases val with
    | unset valLen => exact .inr ⟨valLen, 0, rfl, rfl⟩
    | _ => exact .inl rfl

abbrev CopiesOf (vars copies : List VariableList) : Prop := List.Forall₂ SameVarbind vars copies

theorem copiesOf_map (vars : List VariableList) : CopiesOf vars (vars.map snmpCloneVar) := by
  induction vars with
  | nil => exact .nil
  | cons var vars ih => exact .cons (sameVarbind_snmpCloneVar var) ih

theorem copiesOf_map_length {vars vars' : List VariableList}
    (copies : CopiesOf vars (vars'.map snmpCloneVar)) : vars.length = vars'.length := by
  rw [copies.length_eq, List.length_map]

/-- A response with an error at one of two or more varbinds. -/
structure HasErrorIndex (pdu : NetsnmpPdu) : Prop where
  isResponse : pdu.command = snmpMsgResponse
  isError : pdu.errstat ≠ 0
  atLeastTwo : 2 ≤ pdu.variableList.length
  positive : 1 ≤ pdu.errindex
  inside : pdu.errindex ≤ pdu.variableList.length

/-- The varbind in error is dropped, and no other. -/
def FixesPdu (pdu : NetsnmpPdu) : Prop :=
  ∀ reqid command, ∃ newpdu, snmpFixPdu reqid pdu command = some newpdu ∧
    newpdu.command = command ∧
      CopiesOf (pdu.variableList.eraseIdx (pdu.errindex.toNat - 1)) newpdu.variableList

/-- The varbinds at the positions from `skip + 1` to `skip + count`. -/
def SplitsPdu (pdu : NetsnmpPdu) : Prop :=
  ∀ skip count : Nat,
    CopiesOf ((pdu.variableList.drop skip).take count) (snmpSplitPdu pdu skip count).variableList

theorem splitsPdu (pdu : NetsnmpPdu) : SplitsPdu pdu := by
  intro skip count
  have copied : (snmpSplitPdu pdu skip count).variableList =
      ((pdu.variableList.drop skip).take count).map snmpCloneVar :=
    copyVarlistLoop_drop (le_refl _) _ _
  rw [copied]
  exact copiesOf_map _

theorem clonesPdu_iff (pdu : NetsnmpPdu) :
    CopiesOf pdu.variableList (cloneWholePdu pdu).variableList ↔
      pdu.variableList.length ≤ 10000 := by
  rw [cloneWholePdu, clonePdu_false]
  constructor
  · intro copies
    have lengths := copiesOf_map_length copies
    rw [List.length_take] at lengths
    omega
  · intro short
    rw [List.take_of_length_le short]
    exact copiesOf_map _

theorem fixesPdu_of_short {pdu : NetsnmpPdu} (hasIndex : HasErrorIndex pdu)
    (short : pdu.variableList.length ≤ 10000 ∨
      (pdu.variableList.length = 10001 ∧ pdu.errindex = 10001)) : FixesPdu pdu := by
  rcases hasIndex with ⟨isResponse, isError, atLeastTwo, positive, inside⟩
  intro reqid command
  have cloned := @clonePdu_true pdu (by omega)
  have dropped : (pdu.variableList.take 10000).eraseIdx (pdu.errindex.toNat - 1) =
      pdu.variableList.eraseIdx (pdu.errindex.toNat - 1) := by
    rcases short with short | ⟨long, last⟩
    · rw [List.take_of_length_le short]
    · -- the variable that is dropped is the only one that is not counted
      have index : pdu.errindex.toNat - 1 = 10000 := by omega
      rw [index, List.eraseIdx_of_length_le (by simp), List.eraseIdx_eq_take_drop_succ,
        List.drop_of_length_le (by omega), List.append_nil]
  rw [dropped] at cloned
  have checked : ¬ (pdu.command ≠ snmpMsgResponse ∨ pdu.errstat = 0 ∨ pdu.variableList = [] ∨
      (pdu.variableList.length : Int).bmod (2 ^ 32) < pdu.errindex ∨ pdu.errindex ≤ 0) := by
    have length_eq : (pdu.variableList.length : Int).bmod (2 ^ 32) = pdu.variableList.length :=
      Int.bmod_eq_of_le (by omega) (by omega)
    have nonempty : pdu.variableList ≠ [] := List.ne_nil_of_length_pos (by omega)
    simp only [isResponse, isError, nonempty, length_eq, ne_eq, not_true_eq_false, false_or]
    omega
  have left : (clonePdu pdu true).variableList ≠ [] := by
    apply List.ne_nil_of_length_pos
    rw [cloned, List.length_map, List.length_eraseIdx_of_lt (by omega)]
    omega
  let newpdu : NetsnmpPdu :=
    { clonePdu pdu true with command := command, reqid := reqid, errstat := -1, errindex := -1 }
  refine ⟨newpdu, ?_, rfl, ?_⟩
  · rw [snmpFixPdu, if_neg checked]
    exact if_neg left
  · change CopiesOf _ (clonePdu pdu true).variableList
    rw [cloned]
    exact copiesOf_map _

/-- A response of any length is fixed, copied and split exactly if it has at most 10000
varbinds. -/
theorem fix_clone_split_iff (pdu : NetsnmpPdu) (hasIndex : HasErrorIndex pdu) :
    (FixesPdu pdu ∧ CopiesOf pdu.variableList (cloneWholePdu pdu).variableList ∧
        SplitsPdu pdu) ↔
      pdu.variableList.length ≤ 10000 := by
  constructor
  · rintro ⟨_, clones, _⟩
    exact (clonesPdu_iff pdu).mp clones
  · intro short
    exact ⟨fixesPdu_of_short hasIndex (.inl short), (clonesPdu_iff pdu).mpr short, splitsPdu pdu⟩

def errorResponse (n : Nat) : NetsnmpPdu where
  command := snmpMsgResponse
  errstat := 2
  errindex := 1
  variableList := List.replicate n ⟨[1], asnInteger, .integer 5⟩

theorem hasErrorIndex_errorResponse {n : Nat} (atLeastTwo : 2 ≤ n) :
    HasErrorIndex (errorResponse n) := by
  have length_eq : (errorResponse n).variableList.length = n := List.length_replicate
  constructor
  · rfl
  · exact (by decide : (2 : Int) ≠ 0)
  · rw [length_eq]
    exact atLeastTwo
  · exact le_refl 1
  · rw [length_eq]
    change (1 : Int) ≤ n
    omega

theorem fix_clone_split_two :
    (FixesPdu (errorResponse 2) ∧
        CopiesOf (errorResponse 2).variableList (cloneWholePdu (errorResponse 2)).variableList ∧
          SplitsPdu (errorResponse 2)) ↔
      (errorResponse 2).variableList.length ≤ 10000 :=
  fix_clone_split_iff (errorResponse 2) (hasErrorIndex_errorResponse (le_refl 2))

/-- Of 10001 varbinds a clone has 10000. -/
theorem not_fix_clone_split : ¬ ∀ pdu : NetsnmpPdu, HasErrorIndex pdu →
    FixesPdu pdu ∧ CopiesOf pdu.variableList (cloneWholePdu pdu).variableList ∧
      SplitsPdu pdu := by
  intro all
  have hasIndex := hasErrorIndex_errorResponse (by omega : 2 ≤ 10001)
  have short := (clonesPdu_iff _).mp (all (errorResponse 10001) hasIndex).2.1
  have length_eq : (errorResponse 10001).variableList.length = 10001 := List.length_replicate
  omega

end NetSnmp
