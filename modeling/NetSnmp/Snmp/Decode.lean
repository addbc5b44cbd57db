import NetSnmp.Asn.DecodeOpaque
import NetSnmp.Snmp.InRange

/-!
# What the PDU decoder makes of a well-formed encoding

An encoding here is any nesting of objects with length fields that fit, so that
the results hold for every encoder whatever form of length it chooses.
-/

namespace NetSnmp

open Reader Ber

section Switch

variable {type : Byte} (valLen : Nat) (varVal : Ptr)

theorem snmpPduParseValue_unsigned (isUnsigned : IsUnsigned type) :
    snmpPduParseValue type valLen varVal = (do
      let p ← asnParseUnsignedInt varVal snmpMaxPacketLen
      pure (p.type, .integer (toCLong p.value))) := by
  rcases isUnsigned with rfl | rfl | rfl | rfl <;> rfl

theorem snmpPduParseValue_unsignedInt64
    (isCounter64 : type = asnCounter64 ∨ type = asnOpaqueCounter64 ∨ type = asnOpaqueU64) :
    snmpPduParseValue type valLen varVal = (do
      let p ← asnParseUnsignedInt64 varVal snmpMaxPacketLen
      pure (p.type, .counter64 p.value.1 p.value.2)) := by
  rcases isCounter64 with rfl | rfl | rfl <;> rfl

theorem snmpPduParseValue_string (isString : IsString type) :
    snmpPduParseValue type valLen varVal = (do
      failIf (type = asnIpaddress ∧ valLen ≠ 4)
      let p ← asnParseString varVal snmpMaxPacketLen valLen
      pure (p.type, .string p.value)) := by
  rcases isString with rfl | rfl | rfl | rfl <;> rfl

theorem snmpPduParseValue_null (isNull : isNullType type = true) :
    snmpPduParseValue type valLen varVal = pure (type, .unset valLen) := by
  have cases : type = asnNull ∨ type = snmpNosuchobject ∨ type = snmpNosuchinstance ∨
      type = snmpEndofmibview := by simpa [isNullType, or_assoc] using isNull
  rcases cases with rfl | rfl | rfl | rfl <;> rfl

end Switch

/-- Wherever it stands, `encoding` is decoded to a value of the given type. -/
def DecodesTo (encoding : List Byte) (type : Byte) (val : Vardata) : Prop :=
  ∀ rest count, encoding.length ≤ count → count < 2 ^ 31 →
    ∃ inner, (asnParseHeader (encoding ++ rest) count).outcome =
        .ok ⟨inner ++ rest, inner.length, type, ()⟩ ∧
      (snmpPduParseValue type inner.length (encoding ++ rest)).outcome = .ok (type, val)

section Values

variable {type : Byte} {contents encoding : List Byte}

theorem outcome_header_of_encodes (encodes : Encodes type contents encoding)
    (simple : isExtensionId type = false)
    (plain : type = asnOpaque → contents.head? ≠ some asnOpaqueTag1)
    (rest : List Byte) {count : Nat} (fits : encoding.length ≤ count) (small : count < 2 ^ 31) :
    (asnParseHeader (encoding ++ rest) count).outcome =
      .ok ⟨contents ++ rest, contents.length, type, ()⟩ := by
  have length_ge := encodes.length_ge
  rcases encodes with ⟨field, lengthField, rfl⟩
  simp only [List.length_cons, List.length_append] at fits
  have header := outcome_asnParseHeader count (contents ++ rest) lengthField (by omega) simple fun
    long isOpaque => by
      match contents, plain isOpaque with
      | first :: more, notTag => exact ⟨first, more ++ rest, rfl, by simpa using notTag⟩
  rw [if_pos fits] at header
  simpa using header

theorem decodesTo_of_encodes (encodes : Encodes type contents encoding)
    (simple : isExtensionId type = false)
    (plain : type = asnOpaque → contents.head? ≠ some asnOpaqueTag1) {val : Vardata}
    (value : ∀ rest, encoding.length ≤ snmpMaxPacketLen →
      (snmpPduParseValue type contents.length (encoding ++ rest)).outcome = .ok (type, val)) :
    DecodesTo encoding type val := fun rest count fits small =>
  ⟨contents, outcome_header_of_encodes encodes simple plain rest fits small,
    value rest (by unfold snmpMaxPacketLen; omega)⟩

theorem decodesTo_integer (encodes : Encodes asnInteger contents encoding)
    (nonempty : contents ≠ []) (width : contents.length ≤ 8)
      (inRange : IsInt32 (Octets.beInt contents)) :
    DecodesTo encoding asnInteger (.integer (Octets.beInt contents)) :=
  decodesTo_of_encodes encodes (by decide) (fun isOpaque => absurd isOpaque (by decide)) fun
    rest fits => by
    have parsed := outcome_asnParseInt rest snmpMaxPacketLen encodes nonempty width
      (by decide)
    rw [if_pos fits, checkOverflowS_eq_self inRange.1 inRange.2] at parsed
    simp [snmpPduParseValue, parsed]

theorem decodesTo_unsigned (isUnsigned : IsUnsigned type) (encodes : Encodes type contents encoding)
    (nonempty : contents ≠ []) (width : contents.length ≤ 8)
    (upper : Octets.beNat contents ≤ uint32Max) :
    DecodesTo encoding type (.integer (Octets.beNat contents)) := by
  have simple : isExtensionId type = false ∧ type ≠ asnOpaque := by
    rcases isUnsigned with rfl | rfl | rfl | rfl <;> decide
  refine decodesTo_of_encodes encodes simple.1 (fun isOpaque => absurd isOpaque simple.2)
    fun rest fits => ?_
  have parsed := outcome_asnParseUnsignedInt rest snmpMaxPacketLen encodes
    isUnsigned nonempty width (by decide)
  rw [if_pos fits, checkOverflowU_eq_self upper] at parsed
  have kept : toCLong (Octets.beNat contents) = Octets.beNat contents :=
    toCLong_eq_self (by unfold uint32Max at upper; omega)
  rw [snmpPduParseValue_unsigned _ _ isUnsigned]
  simp [parsed, kept]

theorem decodesTo_counter64 (encodes : Encodes asnCounter64 contents encoding)
    (width : contents.length ≤ 9) (leading : contents.length = 9 → contents.head? = some 0) :
    DecodesTo encoding asnCounter64 (.counter64 (Octets.halves (Octets.beNat contents)).1
      (Octets.halves (Octets.beNat contents)).2) :=
  decodesTo_of_encodes encodes (by decide) (fun isOpaque => absurd isOpaque (by decide)) fun
    rest fits => by
    obtain ⟨left, parsed⟩ := outcome_asnParseUnsignedInt64 rest snmpMaxPacketLen
      encodes width leading fits
    rw [snmpPduParseValue_unsignedInt64 _ _ (.inl rfl)]
    simp [parsed]

theorem decodesTo_string (isString : IsString type) (encodes : Encodes type contents encoding)
    (plain : type = asnOpaque → contents.head? ≠ some asnOpaqueTag1)
    (address : type = asnIpaddress → contents.length = 4) :
    DecodesTo encoding type (.string contents) := by
  have simple : isExtensionId type = false := by
    rcases isString with rfl | rfl | rfl | rfl <;> decide
  refine decodesTo_of_encodes encodes simple plain fun rest fits => ?_
  have parsed := outcome_asnParseString rest snmpMaxPacketLen encodes isString
    le_rfl (by decide)
  rw [if_pos fits] at parsed
  have accepted : ¬ (type = asnIpaddress ∧ contents.length ≠ 4) := fun ⟨isAddress, wrong⟩ =>
    wrong (address isAddress)
  rw [snmpPduParseValue_string _ _ isString]
  simp [accepted, parsed]

theorem decodesTo_objid {name : Oid} (encodable : EncodableOid name)
    (encodes : Encodes asnObjectId (oidContents name) encoding) :
    DecodesTo encoding asnObjectId (.objid name) :=
  decodesTo_of_encodes encodes (by decide) (fun isOpaque => absurd isOpaque (by decide)) fun
    rest fits => by
    have length_ge := encodes.length_ge
    have parsed := outcome_asnParseObjid encodes encodable
      (by unfold snmpMaxPacketLen at fits; omega) rest snmpMaxPacketLen (by decide)
    rw [if_pos fits] at parsed
    have switch : snmpPduParseValue asnObjectId (oidContents name).length (encoding ++ rest) = (do
        let p ← asnParseObjid (encoding ++ rest) snmpMaxPacketLen maxOidLen
        pure (p.type, .objid p.value)) := rfl
    rw [switch]
    simp [parsed]

theorem decodesTo_null (isNull : isNullType type = true) (encodes : Encodes type [] encoding) :
    DecodesTo encoding type (.unset 0) := by
  have cases : type = asnNull ∨ type = snmpNosuchobject ∨ type = snmpNosuchinstance ∨
      type = snmpEndofmibview := by simpa [isNullType, or_assoc] using isNull
  have simple : isExtensionId type = false := by
    rcases cases with rfl | rfl | rfl | rfl <;> decide
  refine decodesTo_of_encodes encodes simple (by simp) fun rest fits => ?_
  rw [snmpPduParseValue_null _ _ isNull]
  rfl

theorem decodesTo_bitstring (encodes : Encodes asnBitStr contents encoding)
    (nonempty : contents ≠ []) : DecodesTo encoding asnBitStr (.string contents) :=
  decodesTo_of_encodes encodes (by decide) (fun isOpaque => absurd isOpaque (by decide)) fun
    rest fits => by
    have parsed := outcome_asnParseBitstring rest snmpMaxPacketLen encodes nonempty
      le_rfl fits (by decide)
    have switch : snmpPduParseValue asnBitStr contents.length (encoding ++ rest) = (do
        let p ← asnParseBitstring (encoding ++ rest) snmpMaxPacketLen contents.length
        pure (p.type, .string p.value)) := rfl
    rw [switch]
    simp [parsed]

theorem EncodesSpecial.decodesTo {special : Byte} {inner : List Byte}
    (encodes : EncodesSpecial special inner encoding) (isSpecial : isOpaqueSpecial special = true)
    {val : Vardata}
    (value : ∀ rest, encoding.length ≤ snmpMaxPacketLen →
      (snmpPduParseValue special inner.length (encoding ++ rest)).outcome = .ok (special, val)) :
    DecodesTo encoding special val := fun rest count fits small => by
  refine ⟨inner, ?_, value rest (by unfold snmpMaxPacketLen; omega)⟩
  rcases encodes with ⟨field, field', lengthField, lengthField', rfl⟩
  have header := outcome_asnParseHeader_special rest count lengthField lengthField'
    isSpecial (by simpa [Nat.add_assoc, Nat.add_comm, Nat.add_left_comm] using fits) small
  simpa using header

section Special

variable {special : Byte} {inner : List Byte}

theorem decodesTo_special_unsignedInt64 (encodes : EncodesSpecial special inner encoding)
    (isCounter64 : special = asnOpaqueCounter64 ∨ special = asnOpaqueU64)
    (width : inner.length ≤ 9) (leading : inner.length = 9 → inner.head? = some 0)
    (short : encoding.length ≤ 14) :
    DecodesTo encoding special (.counter64 (Octets.halves (Octets.beNat inner)).1
      (Octets.halves (Octets.beNat inner)).2) := by
  have isSpecial : isOpaqueSpecial special = true := by
    rcases isCounter64 with rfl | rfl <;> decide
  refine encodes.decodesTo isSpecial fun rest fits => ?_
  obtain ⟨left, parsed⟩ := outcome_asnParseUnsignedInt64_special rest
    snmpMaxPacketLen encodes isCounter64 width leading short fits
  rw [snmpPduParseValue_unsignedInt64 _ _ (.inr isCounter64)]
  simp [parsed]

theorem decodesTo_special_signedInt64 (encodes : EncodesSpecial asnOpaqueI64 inner encoding)
    (width : inner.length ≤ 9) (leading : inner.length = 9 → inner.head? = some 0)
    (short : encoding.length ≤ 14) :
    DecodesTo encoding asnOpaqueI64 (.counter64 (Octets.halves (Octets.beInt inner)).1
      (Octets.halves (Octets.beInt inner)).2) :=
  encodes.decodesTo (by decide) fun rest fits => by
    obtain ⟨left, parsed⟩ := outcome_asnParseSignedInt64 rest
      snmpMaxPacketLen encodes width leading short fits
    have switch : snmpPduParseValue asnOpaqueI64 inner.length (encoding ++ rest) = (do
        let p ← asnParseSignedInt64 (encoding ++ rest) snmpMaxPacketLen
        pure (p.type, .counter64 p.value.1 p.value.2)) := rfl
    rw [switch]
    simp [parsed]

theorem decodesTo_float (encodes : EncodesSpecial asnOpaqueFloat inner encoding)
    (size_eq : inner.length = 4) (length_eq : encoding.length = 9) :
    DecodesTo encoding asnOpaqueFloat (.floatVal (Octets.beNat inner)) :=
  encodes.decodesTo (by decide) fun rest fits => by
    obtain ⟨next, left, parsed⟩ := outcome_asnParseOpaqueBits rest snmpMaxPacketLen
      asnOpaqueFloatBerLen 0 encodes size_eq (by decide) (by decide)
      length_eq rfl fits
    have switch : snmpPduParseValue asnOpaqueFloat inner.length (encoding ++ rest) = (do
        let p ← asnParseFloat (encoding ++ rest) snmpMaxPacketLen
        pure (p.type, .floatVal p.value)) := rfl
    rw [switch]
    simp [asnParseFloat, parsed]

theorem decodesTo_double (encodes : EncodesSpecial asnOpaqueDouble inner encoding)
    (size_eq : inner.length = 8) (length_eq : encoding.length = 13) :
    DecodesTo encoding asnOpaqueDouble (.doubleVal (Octets.beNat inner)) :=
  encodes.decodesTo (by decide) fun rest fits => by
    obtain ⟨next, left, parsed⟩ := outcome_asnParseOpaqueBits rest snmpMaxPacketLen
      asnOpaqueDoubleBerLen 2 encodes size_eq (by decide) (by decide)
      length_eq rfl fits
    have switch : snmpPduParseValue asnOpaqueDouble inner.length (encoding ++ rest) = (do
        let p ← asnParseDouble (encoding ++ rest) snmpMaxPacketLen
        pure (p.type, .doubleVal p.value)) := rfl
    rw [switch]
    simp [asnParseDouble, parsed]

end Special

end Values

def EncodesVarbind (var : VariableList) (encoding : List Byte) : Prop :=
  ∃ name value, EncodableOid var.name ∧ Encodes asnObjectId (oidContents var.name) name ∧
    DecodesTo value var.type var.val ∧ Encodes asnSequence (name ++ value) encoding

theorem EncodesVarbind.length_pos {var : VariableList} {encoding : List Byte}
    (encodes : EncodesVarbind var encoding) : 0 < encoding.length := by
  rcases encodes with ⟨name, value, -, -, -, sequence⟩
  have length_ge := sequence.length_ge
  omega

section Sequence

variable {tag : Byte} {contents encoding : List Byte} (rest : List Byte) {count : Nat}

theorem outcome_asnParseSequence (encodes : Encodes tag contents encoding)
    (simple : isExtensionId tag = false) (other : tag ≠ asnOpaque)
    (fits : encoding.length ≤ count) (small : count < 2 ^ 31) :
    (asnParseSequence (encoding ++ rest) count tag).outcome =
      .ok ⟨contents ++ rest, contents.length, tag, ()⟩ := by
  have header := outcome_header_of_encodes encodes simple (fun isOpaque => absurd isOpaque other)
    rest fits small
  simp [asnParseSequence, header]

theorem outcome_snmpParseVarOp {var : VariableList} (encodes : EncodesVarbind var encoding)
    (fits : encoding.length ≤ count) (small : count < 2 ^ 31) :
    ∃ op, (snmpParseVarOp (encoding ++ rest) maxOidLen count).outcome = .ok op ∧
      op.next = rest ∧ op.left = count - encoding.length ∧ op.name = var.name ∧
      (snmpPduParseValue op.type op.valLen op.val).outcome = .ok (var.type, var.val) := by
  rcases encodes with ⟨name, value, encodable, encodesName, decodes, encodesVarbind⟩
  have sequence := outcome_asnParseSequence rest encodesVarbind (by decide) (by decide) fits small
  have length_ge := encodesVarbind.length_ge
  have nameLength_ge := encodesName.length_ge
  simp only [List.length_append] at length_ge
  have parsedName := outcome_asnParseObjid encodesName encodable (by omega) (value ++ rest)
    (name ++ value).length (by rw [List.length_append]; omega)
  rw [if_pos (by simp)] at parsedName
  simp only [List.length_append, Nat.add_sub_cancel_left] at parsedName
  obtain ⟨inner, header, parsedValue⟩ := decodes rest value.length le_rfl (by omega)
  refine ⟨⟨rest, count - encoding.length, var.name, var.type, inner.length, value ++ rest⟩, ?_, rfl,
    rfl, rfl, parsedValue⟩
  have left : toSizeT (count - toCInt encoding.length) = count - encoding.length := by
    rw [toCInt_eq_self (by omega), toSizeT_sub fits (by omega)]
  rw [List.append_assoc] at sequence
  simp only [List.length_append] at sequence
  simp [snmpParseVarOp, sequence, parsedName, header, left]

end Sequence

theorem outcome_snmpPduParseVarbinds {vars : List VariableList} {encodings : List (List Byte)}
    (encodes : List.Forall₂ EncodesVarbind vars encodings) (rest : List Byte) {passes : Nat}
    (enough : vars.length < passes) (small : encodings.flatten.length < 2 ^ 31) :
    (snmpPduParseVarbinds passes (encodings.flatten ++ rest) encodings.flatten.length).outcome =
      .ok (rest, 0, vars) := by
  induction encodes generalizing passes with
  | nil =>
      obtain ⟨passes, rfl⟩ := Nat.exists_eq_succ_of_ne_zero (Nat.ne_of_gt enough)
      simp [snmpPduParseVarbinds]
  | @cons var encoding vars encodings first more ih =>
      obtain ⟨passes, rfl⟩ := Nat.exists_eq_succ_of_ne_zero
        (Nat.ne_of_gt (Nat.zero_lt_of_lt enough))
      have pos := first.length_pos
      simp only [List.flatten_cons, List.length_append, List.length_cons] at enough small ⊢
      obtain ⟨op, parsed, next_eq, left_eq, name_eq, value⟩ :=
        outcome_snmpParseVarOp (encodings.flatten ++ rest) first
          (Nat.le_add_right _ encodings.flatten.length) small
      have others := ih (show vars.length < passes by omega) (by omega)
      have positive : 0 < toCInt ((encoding.length + encodings.flatten.length : Nat) : Int) := by
        rw [toCInt_eq_self small]
        omega
      rw [Nat.add_sub_cancel_left] at left_eq
      rw [List.append_assoc, snmpPduParseVarbinds, if_pos positive]
      simp [parsed, value, next_eq, left_eq, others, name_eq, -List.length_flatten]

theorem length_le_flatten {vars : List VariableList} {encodings : List (List Byte)}
    (encodes : List.Forall₂ EncodesVarbind vars encodings) :
    vars.length ≤ encodings.flatten.length := by
  induction encodes with
  | nil => simp
  | cons first more ih =>
      have pos := first.length_pos
      simp only [List.length_cons, List.flatten_cons, List.length_append]
      omega

def EncodesInt (value : Int) (encoding : List Byte) : Prop :=
  ∃ contents, contents ≠ [] ∧ contents.length ≤ 8 ∧ Octets.beInt contents = value ∧
    Encodes asnInteger contents encoding

def EncodesUnsigned (type : Byte) (value : Nat) (encoding : List Byte) : Prop :=
  ∃ contents, contents ≠ [] ∧ contents.length ≤ 8 ∧ Octets.beNat contents = value ∧
    Encodes type contents encoding

def EncodesTrap (pdu : NetsnmpPdu) (encoding : List Byte) : Prop :=
  ∃ enterprise agentAddr trapType specificType time,
    Encodes asnObjectId (oidContents pdu.enterprise) enterprise ∧
    Encodes asnIpaddress pdu.agentAddr.toList agentAddr ∧ EncodesInt pdu.trapType trapType ∧
    EncodesInt pdu.specificType specificType ∧ EncodesUnsigned asnTimeticks pdu.time time ∧
    encoding = enterprise ++ (agentAddr ++ (trapType ++ (specificType ++ time)))

def EncodesFields (pdu : NetsnmpPdu) (encoding : List Byte) : Prop :=
  ∃ reqid errstat errindex, EncodesInt pdu.reqid reqid ∧ EncodesInt pdu.errstat errstat ∧
    EncodesInt pdu.errindex errindex ∧ encoding = reqid ++ (errstat ++ errindex)

def EncodesPdu (pdu : NetsnmpPdu) (encoding : List Byte) : Prop :=
  ∃ fields encodings varbinds,
    (if pdu.command = snmpMsgTrap then EncodesTrap pdu fields else EncodesFields pdu fields) ∧
    List.Forall₂ EncodesVarbind (pdu.sentVariables.map VariableList.received) encodings ∧
    Encodes asnSequence encodings.flatten varbinds ∧
    Encodes (toUChar pdu.command) (fields ++ varbinds) encoding

section Pdu

variable {pdu : NetsnmpPdu} {encoding : List Byte} (rest : List Byte) (count : Nat)

theorem EncodesInt.outcome {value : Int} (encodes : EncodesInt value encoding)
    (inRange : IsInt32 value) (small : count < 2 ^ 31) :
    (asnParseInt (encoding ++ rest) count).outcome =
      if encoding.length ≤ count then .ok ⟨rest, count - encoding.length, asnInteger, value⟩
      else .null := by
  obtain ⟨contents, nonempty, width, rfl, object⟩ := encodes
  have parsed := outcome_asnParseInt rest count object nonempty width (by omega)
  rwa [checkOverflowS_eq_self inRange.1 inRange.2] at parsed

theorem EncodesUnsigned.outcome {type : Byte} {value : Nat}
    (encodes : EncodesUnsigned type value encoding) (isUnsigned : IsUnsigned type)
    (upper : value ≤ uint32Max) (small : count < 2 ^ 31) :
    (asnParseUnsignedInt (encoding ++ rest) count).outcome =
      if encoding.length ≤ count then .ok ⟨rest, count - encoding.length, type, value⟩
      else .null := by
  obtain ⟨contents, nonempty, width, rfl, object⟩ := encodes
  have parsed := outcome_asnParseUnsignedInt rest count object isUnsigned nonempty
    width (by omega)
  rwa [checkOverflowU_eq_self upper] at parsed

theorem storeAgentAddr_toList (old address : Vector Byte 4) :
    storeAgentAddr old address.toList = address := by
  ext i inside
  simp [storeAgentAddr]

theorem outcome_snmpPduParseTrapFields (received : NetsnmpPdu) (encodable : pdu.EncodableTrap)
    (encodes : EncodesTrap pdu encoding) (small : count < 2 ^ 31) :
    (snmpPduParseTrapFields ⟨received, encoding ++ rest, count⟩).outcome =
      if encoding.length ≤ count then
        .ok ⟨{ received with
          enterprise := pdu.enterprise
          agentAddr := pdu.agentAddr
          trapType := pdu.trapType
          specificType := pdu.specificType
          time := pdu.time }, rest, count - encoding.length⟩
      else .null := by
  obtain ⟨enterprise, agentAddr, trapType, specificType, time, encodesEnterprise,
    encodesAgentAddr, encodesTrapType, encodesSpecificType, encodesTime, rfl⟩ := encodes
  have enterpriseShort := length_oidContents_le encodable.enterprise
  have enterpriseParsed := outcome_asnParseObjid encodesEnterprise encodable.enterprise (by omega)
    (agentAddr ++ (trapType ++ (specificType ++ (time ++ rest)))) count (by omega)
  have agentAddrParsed := outcome_asnParseString
    (trapType ++ (specificType ++ (time ++ rest))) (count - enterprise.length) encodesAgentAddr
    (.inr (.inl rfl)) (show pdu.agentAddr.toList.length ≤ 4 by simp) (by omega)
  have trapTypeParsed := encodesTrapType.outcome (specificType ++ (time ++ rest))
    (count - enterprise.length - agentAddr.length) encodable.trapType (by omega)
  have specificTypeParsed := encodesSpecificType.outcome (time ++ rest)
    (count - enterprise.length - agentAddr.length - trapType.length) encodable.specificType
    (by omega)
  have timeParsed := encodesTime.outcome rest (count - enterprise.length - agentAddr.length -
    trapType.length - specificType.length) (.inr (.inr (.inl rfl))) encodable.time (by omega)
  simp only [List.length_append]
  by_cases fits : enterprise.length +
      (agentAddr.length + (trapType.length + (specificType.length + time.length))) ≤ count
  · rw [if_pos (by omega)] at enterpriseParsed agentAddrParsed trapTypeParsed
    rw [if_pos (by omega)] at specificTypeParsed timeParsed ⊢
    simp [snmpPduParseTrapFields, enterpriseParsed, agentAddrParsed, trapTypeParsed,
      specificTypeParsed, timeParsed, storeAgentAddr_toList]
    omega
  · -- the first field that goes beyond the end fails
    rw [if_neg fits]
    simp only [snmpPduParseTrapFields, outcome_bind, List.append_assoc, enterpriseParsed]
    split
    · simp only [Outcome.bind_ok, agentAddrParsed]
      split
      · simp only [Outcome.bind_ok, trapTypeParsed]
        split
        · simp only [Outcome.bind_ok, specificTypeParsed]
          split
          · simp only [Outcome.bind_ok, timeParsed]
            rw [if_neg (by omega)]
            rfl
          · rfl
        · rfl
      · rfl
    · rfl

theorem outcome_snmpPduParseFields (received : NetsnmpPdu) (encodable : pdu.EncodableFields)
    (encodes : EncodesFields pdu encoding) (small : count < 2 ^ 31) :
    (snmpPduParseFields ⟨received, encoding ++ rest, count⟩).outcome =
      if encoding.length ≤ count then
        .ok ⟨{ received with
          reqid := pdu.reqid
          errstat := pdu.errstat
          errindex := pdu.errindex }, rest, count - encoding.length⟩
      else .null := by
  obtain ⟨reqid, errstat, errindex, encodesReqid, encodesErrstat, encodesErrindex, rfl⟩ := encodes
  have reqidParsed := encodesReqid.outcome (errstat ++ (errindex ++ rest)) count
    encodable.reqid small
  have errstatParsed := encodesErrstat.outcome (errindex ++ rest) (count - reqid.length)
    encodable.errstat (by omega)
  have errindexParsed := encodesErrindex.outcome rest
    (count - reqid.length - errstat.length) encodable.errindex (by omega)
  simp only [List.length_append]
  by_cases fits : reqid.length + (errstat.length + errindex.length) ≤ count
  · rw [if_pos (by omega)] at reqidParsed errstatParsed errindexParsed ⊢
    simp [snmpPduParseFields, reqidParsed, errstatParsed, errindexParsed]
    omega
  · rw [if_neg fits]
    simp only [snmpPduParseFields, outcome_bind, List.append_assoc, reqidParsed]
    split
    · simp only [Outcome.bind_ok, errstatParsed]
      split
      · simp only [Outcome.bind_ok, errindexParsed]
        rw [if_neg (by omega)]
        rfl
      · rfl
    · rfl

theorem tag_of_command {command : Int}
    (accepted : command = snmpMsgTrap ∨ isPduCommand command = true) :
    ((toUChar command).toNat : Int) = command ∧ isExtensionId (toUChar command) = false ∧
      toUChar command ≠ asnOpaque := by
  simp only [isPduCommand, Bool.or_eq_true, decide_eq_true_eq, or_assoc] at accepted
  rcases accepted with rfl | rfl | rfl | rfl | rfl | rfl | rfl | rfl | rfl <;> decide

theorem outcome_snmpPduParseHead (fresh : NetsnmpPdu) (command_eq : fresh.command = pdu.command)
    (encodable : pdu.Encodable)
    (encodes : if pdu.command = snmpMsgTrap then EncodesTrap pdu encoding
      else EncodesFields pdu encoding) (small : count < 2 ^ 31) :
    (snmpPduParseHead ⟨fresh, encoding ++ rest, count⟩).outcome =
      if encoding.length ≤ count then
        .ok ⟨fresh.receivedFields pdu, rest, count - encoding.length⟩
      else .null := by
  unfold snmpPduParseHead NetsnmpPdu.receivedFields
  by_cases isTrap : pdu.command = snmpMsgTrap
  · rw [if_pos isTrap] at encodes ⊢
    rw [if_pos (command_eq.trans isTrap)]
    exact outcome_snmpPduParseTrapFields rest count fresh (encodable.trap isTrap) encodes small
  · have accepted := encodable.command.resolve_left isTrap
    rw [if_neg isTrap] at encodes ⊢
    rw [if_neg (by rwa [command_eq]), if_pos (by rwa [command_eq])]
    exact outcome_snmpPduParseFields rest count fresh (encodable.fields isTrap) encodes small

theorem outcome_snmpPduParse {fresh : NetsnmpPdu} (empty : fresh.variableList = [])
    (encodable : pdu.Encodable) (encodes : EncodesPdu pdu encoding)
    (small : encoding.length < 2 ^ 31) :
    (snmpPduParse fresh (encoding ++ rest) encoding.length).outcome =
      .ok ⟨fresh.receivedInto pdu, rest, 0⟩ := by
  obtain ⟨fields, encodings, varbinds, encodesFields, encodesVarbinds, encodesList,
    encodesPdu⟩ := encodes
  obtain ⟨command_eq, simple, other⟩ := tag_of_command encodable.command
  have header := outcome_header_of_encodes encodesPdu simple
    (fun isOpaque => absurd isOpaque other) rest le_rfl small
  have length_ge := encodesPdu.length_ge
  have length_ge' := encodesList.length_ge
  rw [List.length_append] at length_ge
  have head := outcome_snmpPduParseHead (varbinds ++ rest) (fields.length + varbinds.length)
    { fresh with command := pdu.command, flags := snmpPduParseFlags fresh.flags pdu.command }
    (show pdu.command = pdu.command from rfl) encodable encodesFields (by omega)
  rw [if_pos (Nat.le_add_right _ _)] at head
  have sequence := outcome_asnParseSequence rest encodesList (by decide) (by decide) le_rfl
    (by omega)
  have enough := length_le_flatten encodesVarbinds
  have parsedVarbinds := outcome_snmpPduParseVarbinds encodesVarbinds rest
    (show _ < (encoding ++ rest).length + 1 by rw [List.length_append]; omega) (by omega)
  have linked (parsed : List VariableList) : linkVariables fresh.variableList parsed = parsed := by
    unfold linkVariables
    split <;> simp_all
  rw [List.append_assoc] at header
  rw [Nat.add_sub_cancel_left] at head
  simp only [List.length_append] at header parsedVarbinds
  simp [snmpPduParse, header, command_eq, head, sequence, parsedVarbinds, linked,
    NetsnmpPdu.receivedInto, -List.length_flatten]

end Pdu

end NetSnmp
