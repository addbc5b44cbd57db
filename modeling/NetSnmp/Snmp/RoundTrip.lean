import NetSnmp.Snmp.Vpcache

/-!
# Decoding what the reverse PDU encoder writes

A PDU that is in range comes back from `snmp_pdu_parse` with the same header
fields and the same variables.
-/

namespace NetSnmp

open Ber Vpcache

theorem Writes.andThen {first second : RBuf → Option RBuf} {front back : List Byte → Prop}
    (writesBack : Writes first back) (writesFront : Writes second front) :
    Writes (fun buf => first buf >>= second) fun encoding =>
      ∃ frontBytes backBytes, front frontBytes ∧ back backBytes ∧
        encoding = frontBytes ++ backBytes := by
  obtain ⟨backBytes, backHolds, wroteBack⟩ := writesBack
  obtain ⟨frontBytes, frontHolds, wroteFront⟩ := writesFront
  refine ⟨frontBytes ++ backBytes, fun small => ?_, fun buf => ?_⟩
  · rw [List.length_append] at small
    exact ⟨frontBytes, backBytes, frontHolds (by omega), backHolds (by omega), rfl⟩
  · exact (wroteBack buf).bind fun buf' _ => wroteFront buf'

theorem writes_rbuildTrapFields {pdu : NetsnmpPdu} (encodable : pdu.EncodableTrap) :
    Writes (rbuildTrapFields pdu) (EncodesTrap pdu) := by
  have time := writes_asnReallocRbuildUnsignedInt asnTimeticks encodable.time
  have specificType := writes_asnReallocRbuildInt encodable.specificType
  have trapType := writes_asnReallocRbuildInt encodable.trapType
  have agentAddr := writes_object fun buf =>
    wrote_asnReallocRbuildString buf asnIpaddress pdu.agentAddr.toList
  have enterprise := writes_object
    (wrote_asnReallocRbuildObjid asnObjectId encodable.enterprise)
  have all := (((time.andThen specificType).andThen trapType).andThen agentAddr).andThen enterprise
  simp only [bind_assoc] at all
  refine all.mono ?_
  rintro encoding ⟨enterprise, -, encodesEnterprise, ⟨agentAddr, -, encodesAgentAddr,
    ⟨trapType, -, encodesTrapType, ⟨specificType, time, encodesSpecificType, encodesTime, rfl⟩,
    rfl⟩, rfl⟩, rfl⟩
  exact ⟨enterprise, agentAddr, trapType, specificType, time, encodesEnterprise, encodesAgentAddr,
    encodesTrapType, encodesSpecificType, encodesTime, rfl⟩

theorem writes_rbuildFields {pdu : NetsnmpPdu} (encodable : pdu.EncodableFields) :
    Writes (rbuildFields pdu) (EncodesFields pdu) := by
  have errindex := writes_asnReallocRbuildInt encodable.errindex
  have errstat := writes_asnReallocRbuildInt encodable.errstat
  have reqid := writes_asnReallocRbuildInt encodable.reqid
  have all := (errindex.andThen errstat).andThen reqid
  simp only [bind_assoc] at all
  refine all.mono ?_
  rintro encoding ⟨reqid, -, encodesReqid, ⟨errstat, errindex, encodesErrstat, encodesErrindex,
    rfl⟩, rfl⟩
  exact ⟨reqid, errstat, errindex, encodesReqid, encodesErrstat, encodesErrindex, rfl⟩

theorem writes_rbuildHead {pdu : NetsnmpPdu} (encodable : pdu.Encodable) :
    Writes (rbuildHead pdu) fun encoding =>
      if pdu.command = snmpMsgTrap then EncodesTrap pdu encoding
      else EncodesFields pdu encoding := by
  unfold rbuildHead
  by_cases isTrap : pdu.command = snmpMsgTrap
  · simpa [isTrap] using writes_rbuildTrapFields (encodable.trap isTrap)
  · simpa [isTrap] using writes_rbuildFields (encodable.fields isTrap)

theorem writes_snmpPduReallocRbuild {pdu : NetsnmpPdu} (encodable : pdu.Encodable) :
    Writes (snmpPduReallocRbuild pdu) (EncodesPdu pdu) := by
  obtain ⟨varbinds, encodesVarbinds, wroteVarbinds⟩ := writes_rbuildReversed encodable.varbinds
  obtain ⟨fields, encodesFields, wroteFields⟩ := writes_rbuildHead encodable
  obtain ⟨list, list_eq⟩ : ∃ list, list = object asnSequence varbinds := ⟨_, rfl⟩
  have listLe := length_object_ge asnSequence varbinds
  have pduLe := length_object_ge (toUChar pdu.command) (fields ++ list)
  rw [← list_eq] at listLe
  rw [List.length_append] at pduLe
  refine ⟨object (toUChar pdu.command) (fields ++ list), fun small => ?_, fun buf => ?_⟩
  · obtain ⟨encodings, rfl, encodes⟩ := encodesVarbinds (by omega)
    have encodesList : Encodes asnSequence encodings.flatten list := by
      rw [list_eq]
      exact encodes_object (by omega)
    refine ⟨fields, encodings, list, encodesFields (by omega), encodes, encodesList,
      encodes_object ?_⟩
    rw [List.length_append]
    omega
  · have sequence := (wroteVarbinds buf).header asnSequence
      (fun buf' => buf'.offset - buf.offset) fun buf' => Wrote.offset
    rw [← list_eq] at sequence
    have headed := sequence.bind fun buf' _ => wroteFields buf'
    have whole := headed.header (toUChar pdu.command)
      (fun buf' => buf'.offset - buf.offset) fun buf' => Wrote.offset
    rw [← rbuildVarbinds_sentVariables] at whole
    unfold snmpPduReallocRbuild asnReallocRbuildSequence
    simpa only [bind_assoc] using whole

/-- A PDU that is in range is encoded whatever buffer there is, and what the encoder writes, if it
is not too long for a packet, is decoded to the same command, header fields and variables. -/
theorem snmpPduParse_snmpPduReallocRbuild {pdu fresh : NetsnmpPdu} (encodable : pdu.Encodable)
    (empty : fresh.variableList = []) (buf : RBuf) :
    ∃ encoding buf', snmpPduReallocRbuild pdu buf = some buf' ∧
      buf'.written = encoding ++ buf.written ∧
      (encoding.length < snmpMaxPacketLen →
        ∃ pdu', (snmpPduParse fresh encoding encoding.length).outcome = .ok ⟨pdu', [], 0⟩ ∧
          NetsnmpPdu.SameHeader pdu pdu' ∧
          List.Forall₂ VariableList.Same pdu.sentVariables pdu'.variableList) := by
  obtain ⟨encoding, encodes, wrote⟩ := writes_snmpPduReallocRbuild encodable
  obtain ⟨buf', built, written⟩ := wrote buf
  refine ⟨encoding, buf', built, written, fun fits => ?_⟩
  have small : encoding.length < 2 ^ 31 := by
    unfold snmpMaxPacketLen at fits
    omega
  have parsed := outcome_snmpPduParse [] empty encodable (encodes small) small
  rw [List.append_nil] at parsed
  exact ⟨fresh.receivedInto pdu, parsed, fresh.sameHeader_receivedInto pdu,
    fresh.same_variables_receivedInto pdu⟩

def requestFor (name : Oid) : NetsnmpPdu :=
  { command := snmpMsgGet, variableList := [⟨name, asnNull, .unset 0⟩] }

theorem encodable_requestFor {name : Oid} (encodable : EncodableOid name) :
    (requestFor name).Encodable where
  command := .inr rfl
  trap isTrap := absurd isTrap (by simp [requestFor])
  fields _ :=
    have zero : IsInt32 0 := ⟨by decide, by decide⟩
    ⟨zero, zero, zero⟩
  varbinds var mem := by
    have sent : (requestFor name).sentVariables = [⟨name, asnNull, .unset 0⟩] := rfl
    rw [sent, List.mem_singleton] at mem
    rw [mem]
    exact ⟨encodable, .null rfl⟩

def RBuf.empty : RBuf := ⟨0, [], le_rfl⟩

theorem snmpPduParse_snmpPduReallocRbuild_requestFor :
    ∃ encoding buf', snmpPduReallocRbuild (requestFor [1, 3, 6, 1, 2, 1, 1, 3, 0]) .empty =
        some buf' ∧
      buf'.written = encoding ++ [] ∧
      (encoding.length < snmpMaxPacketLen →
        ∃ pdu', (snmpPduParse {} encoding encoding.length).outcome = .ok ⟨pdu', [], 0⟩ ∧
          NetsnmpPdu.SameHeader (requestFor [1, 3, 6, 1, 2, 1, 1, 3, 0]) pdu' ∧
          List.Forall₂ VariableList.Same [⟨[1, 3, 6, 1, 2, 1, 1, 3, 0], asnNull, .unset 0⟩]
            pdu'.variableList) :=
  snmpPduParse_snmpPduReallocRbuild
    (encodable_requestFor (.mk (by decide) (by decide) (by decide) (by decide) (by decide))) rfl
    .empty

def WellFormedOid (name : Oid) : Prop :=
  name.length ≤ maxOidLen ∧ (∀ subid ∈ name, subid ≤ maxSubid) ∧
    ∃ first second more, name = first :: second :: more ∧ first ≤ 2 ∧ (first < 2 → second < 40)

theorem rbuildObjidContents_overflow {first second : Nat} {more : Oid} (first_le : first ≤ 2)
    (overflows : maxSubid < first * 40 + second) (buf : RBuf) :
    rbuildObjidContents true buf (first :: second :: more) = none := by
  have tooLarge : uint32Max - first * 40 < second := by
    unfold maxSubid at *
    unfold uint32Max
    omega
  simp [rbuildObjidContents, tooLarge]

theorem snmpPduReallocRbuild_requestFor_overflow :
    WellFormedOid [2, 4294967295] ∧
      snmpPduReallocRbuild (requestFor [2, 4294967295]) .empty = none := by
  refine ⟨⟨by decide, by decide, 2, 4294967295, [], rfl, by decide, by decide⟩, ?_⟩
  have rejected (buf : RBuf) : rbuildObjidContents true buf [2, 4294967295] = none :=
    rbuildObjidContents_overflow (by decide) (by decide) buf
  have sent : (requestFor [2, 4294967295]).sentVariables = [⟨[2, 4294967295], asnNull, .unset 0⟩] :=
    rfl
  simp only [snmpPduReallocRbuild]
  rw [rbuildVarbinds_sentVariables, sent]
  simp [rbuildReversed, snmpReallocRbuildVarOp, asnReallocRbuildObjid, rejected]

end NetSnmp
