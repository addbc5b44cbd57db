import NetSnmp.Asn.BuildWrites
import NetSnmp.Snmp.Build
import NetSnmp.Snmp.Decode

/-!
# What the forward PDU encoder writes

Header fields, the two headers of sequences that are filled in at the end, and
variables of which every header announces four bytes.
-/

namespace NetSnmp

open Ber

theorem WBuf.patch_append {old bytes front back ahead : List Byte}
    (length_eq : old.length = bytes.length) :
    (WBuf.mk (front ++ (old ++ back)) ahead).patch front.length bytes =
      ⟨front ++ (bytes ++ back), ahead⟩ := by
  have behind : (front ++ (old ++ back)).drop (front.length + bytes.length) = back := by
    rw [← length_eq, ← List.length_append, ← List.append_assoc, List.drop_left]
  simp only [WBuf.patch, behind, List.take_left, List.append_assoc]

theorem length_sequenceHeader (type : Byte) (length : Nat) :
    (sequenceHeader type length).length = 4 := rfl

theorem asnBuildSequenceAt_append {old : List Byte} (front back ahead : List Byte)
    {datalength : Nat} (length_eq : old.length = 4) (room : 4 ≤ datalength) (type : Byte)
      (length : Nat) :
    asnBuildSequenceAt ⟨front ++ (old ++ back), ahead⟩ front.length datalength type length =
      ⟨front ++ (sequenceHeader type length ++ back), ahead⟩ := by
  rw [asnBuildSequenceAt, if_neg (by omega), WBuf.patch_append (by rwa [length_sequenceHeader])]

theorem appends_asnBuildSequence (type : Byte) (length : Nat) :
    Appends (asnBuildSequence · type length) (sequenceHeader type length) := fun buf => by
  have append : Appends (·.append (sequenceHeader type length)) (sequenceHeader type length) :=
    fun buf => rfl
  exact append.checked (le_of_eq (length_sequenceHeader type length).symm) buf

theorem sequenceHeader_eq (type : Byte) (length : Nat) :
    ∃ field, sequenceHeader type length = type :: field ∧ field.length = 3 ∧
      LengthField field (length % 2 ^ 16) := by
  have value : Octets.beNat [toUChar (length / 2 ^ 8 % 2 ^ 8 : Nat),
      toUChar (length % 2 ^ 8 : Nat)] = length % 2 ^ 16 := by
    simp only [Octets.beNat_cons, Octets.beNat_nil, List.length_cons, List.length_nil,
      toNat_toUChar_natCast]
    omega
  have field := LengthField.long (show (0x82 : Byte).toNat = 128 +
    [toUChar (length / 2 ^ 8 % 2 ^ 8 : Nat), toUChar (length % 2 ^ 8 : Nat)].length from rfl)
    (by simp) (by simp) (by omega)
  rw [value] at field
  exact ⟨_, rfl, rfl, field⟩

theorem length_builtObject_le (type : Byte) (contents : List Byte) :
    (builtObject type contents).length ≤ contents.length + 4 := by
  simp only [builtObject, buildLengthOctets, List.cons_append, List.length_cons,
    List.length_append]
  split
  · simp
    omega
  · split
    · simp
      omega
    · simp
      omega

theorem appends_int {value : Int} (inRange : IsInt32 value) :
    ∃ encoding, EncodesInt value encoding ∧ encoding.length ≤ 12 ∧
      Appends (asnBuildInt · asnInteger value) encoding := by
  obtain ⟨contents, nonempty, width, value_eq, appends⟩ := appends_asnBuildInt inRange.1 inRange.2
  have length_le := length_builtObject_le asnInteger contents
  exact ⟨builtObject asnInteger contents,
    ⟨contents, nonempty, width, value_eq, encodes_builtObject (by omega)⟩, by omega,
    appends asnInteger⟩

theorem appends_unsigned (type : Byte) {value : Nat} (upper : value ≤ uint32Max) :
    ∃ encoding, EncodesUnsigned type value encoding ∧ encoding.length ≤ 12 ∧
      Appends (asnBuildUnsignedInt · type value) encoding := by
  obtain ⟨contents, nonempty, width, value_eq, appends⟩ := appends_asnBuildUnsignedInt upper
  have length_le := length_builtObject_le type contents
  exact ⟨builtObject type contents,
    ⟨contents, nonempty, width, value_eq, encodes_builtObject (by omega)⟩, by omega,
    appends type⟩

theorem appends_objid {name : Oid} (encodable : EncodableOid name) :
    ∃ encoding, Encodes asnObjectId (oidContents name) encoding ∧ encoding.length ≤ 644 ∧
      Appends (asnBuildObjid · asnObjectId name) encoding := by
  have contents_le := length_oidContents_le encodable
  have length_le := length_builtObject_le asnObjectId (oidContents name)
  exact ⟨builtObject asnObjectId (oidContents name), encodes_builtObject (by omega), by omega,
    appends_asnBuildObjid asnObjectId encodable⟩

theorem appends_buildTrapFields {pdu : NetsnmpPdu} (encodable : pdu.EncodableTrap) :
    ∃ fields, EncodesTrap pdu fields ∧ fields.length ≤ 700 ∧
      Appends (buildTrapFields pdu) fields := by
  obtain ⟨enterprise, encodesEnterprise, enterprise_le, appendsEnterprise⟩ :=
    appends_objid encodable.enterprise
  obtain ⟨trapType, encodesTrapType, trapType_le, appendsTrapType⟩ := appends_int encodable.trapType
  obtain ⟨specificType, encodesSpecificType, specificType_le, appendsSpecificType⟩ :=
    appends_int encodable.specificType
  obtain ⟨time, encodesTime, time_le, appendsTime⟩ := appends_unsigned asnTimeticks encodable.time
  have address_le : pdu.agentAddr.toList.length ≤ 4 := by simp
  have addressBuilt := length_builtObject_le asnIpaddress pdu.agentAddr.toList
  have all := appendsEnterprise.andThen ((appends_buildObject asnIpaddress
    pdu.agentAddr.toList).andThen (appendsTrapType.andThen (appendsSpecificType.andThen
      appendsTime)))
  refine ⟨_, ⟨enterprise, builtObject asnIpaddress pdu.agentAddr.toList, trapType, specificType,
    time, encodesEnterprise, encodes_builtObject (by omega), encodesTrapType, encodesSpecificType,
    encodesTime, rfl⟩, ?_, all⟩
  simp only [List.length_append]
  omega

theorem appends_buildFields {pdu : NetsnmpPdu} (encodable : pdu.EncodableFields) :
    ∃ fields, EncodesFields pdu fields ∧ fields.length ≤ 700 ∧
      Appends (buildFields pdu) fields := by
  obtain ⟨reqid, encodesReqid, reqid_le, appendsReqid⟩ := appends_int encodable.reqid
  obtain ⟨errstat, encodesErrstat, errstat_le, appendsErrstat⟩ := appends_int encodable.errstat
  obtain ⟨errindex, encodesErrindex, errindex_le, appendsErrindex⟩ :=
    appends_int encodable.errindex
  have all := appendsReqid.andThen (appendsErrstat.andThen appendsErrindex)
  refine ⟨_, ⟨reqid, errstat, errindex, encodesReqid, encodesErrstat, encodesErrindex,
    rfl⟩, ?_, all⟩
  simp only [List.length_append]
  omega

theorem appends_buildHead {pdu : NetsnmpPdu} (encodable : pdu.Encodable) :
    ∃ fields, (if pdu.command = snmpMsgTrap then EncodesTrap pdu fields
        else EncodesFields pdu fields) ∧ fields.length ≤ 700 ∧ Appends (buildHead pdu) fields := by
  by_cases isTrap : pdu.command = snmpMsgTrap
  · obtain ⟨fields, encodes, length_le, appends⟩ := appends_buildTrapFields (encodable.trap isTrap)
    refine ⟨fields, by rwa [if_pos isTrap], length_le, fun buf => ?_⟩
    rw [buildHead, if_pos isTrap]
    exact appends buf
  · obtain ⟨fields, encodes, length_le, appends⟩ := appends_buildFields (encodable.fields isTrap)
    refine ⟨fields, by rwa [if_neg isTrap], length_le, fun buf => ?_⟩
    rw [buildHead, if_neg isTrap]
    exact appends buf

/-- A property that every encoder of a value has: it holds of the encoders that all of them come
to, and of a choice between two encoders with it. -/
structure HoldsOfValues (property : (WBuf → Option WBuf) → Prop) : Prop where
  refused : property fun _ => none
  ite : ∀ {condition : Prop} [Decidable condition] {yes no : WBuf → Option WBuf}, property yes →
    property no → property fun buf => if condition then yes buf else no buf
  null : ∀ type, property (asnBuildNull · type)
  object : ∀ type contents, property (buildObject · type contents)
  special : ∀ special contents, property (buildOpaque · special contents)

namespace HoldsOfValues

variable {property : (WBuf → Option WBuf) → Prop} (holds : HoldsOfValues property)

include holds

theorem objid (type : Byte) (objid : Oid) : property (asnBuildObjid · type objid) := by
  cases subids_eq : buildObjidSubids objid with
  | none => simpa [asnBuildObjid, subids_eq] using holds.refused
  | some subids =>
      simp only [asnBuildObjid, subids_eq, Option.bind_eq_bind, Option.bind_some]
      apply holds.ite holds.refused
      apply holds.ite (holds.object type _)
      apply holds.object

theorem unsignedInt64 (type : Byte) (high low : Nat) :
    property (asnBuildUnsignedInt64 · type high low) :=
  holds.ite (holds.special type _) (holds.object type _)

theorem bitstring (type : Byte) (str : List Byte) : property (asnBuildBitstring · type str) :=
  holds.ite holds.refused (holds.object type str)

theorem int (type : Byte) (intp : Int) : property (asnBuildInt · type intp) :=
  holds.object type _

theorem unsignedInt (type : Byte) (intp : Nat) : property (asnBuildUnsignedInt · type intp) :=
  holds.object type _

theorem string (type : Byte) (str : List Byte) : property (asnBuildString · type str) :=
  holds.object type str

theorem signedInt64 (high low : Nat) : property (asnBuildSignedInt64 · high low) :=
  holds.special asnOpaqueI64 _

theorem float (bits : Nat) : property (asnBuildFloat · bits) :=
  holds.special asnOpaqueFloat _

theorem double (bits : Nat) : property (asnBuildDouble · bits) :=
  holds.special asnOpaqueDouble _

theorem value (type : Byte) (val : Vardata) : property (snmpBuildValue · type val) := by
  unfold snmpBuildValue
  cases val <;> dsimp only
  -- one branch of the switch after the other, for each member of the union
  all_goals repeat' with_reducible refine holds.ite ?_ ?_
  all_goals with_reducible first
    | exact holds.refused
    | exact holds.int _ _
    | exact holds.unsignedInt _ _
    | exact holds.unsignedInt64 _ _ _
    | exact holds.string _ _
    | exact holds.objid _ _
    | exact holds.null _
    | exact holds.bitstring _ _
    | exact holds.float _
    | exact holds.double _
    | exact holds.signedInt64 _ _

end HoldsOfValues

/-- What an encoder appends, if it does not fail, is at least a tag and a length. -/
def Grows (encoder : WBuf → Option WBuf) : Prop :=
  ∀ buf buf', encoder buf = some buf' →
    ∃ bytes, 2 ≤ bytes.length ∧ buf'.written = buf.written ++ bytes

theorem Appends.grows {encoder : WBuf → Option WBuf} {bytes : List Byte}
    (appends : Appends encoder bytes) (length_ge : 2 ≤ bytes.length) : Grows encoder :=
  fun buf _ built =>
    ⟨bytes, length_ge, (WBuf.written_of_append ((appends buf).symm.trans built)).1⟩

theorem grows_buildObject (type : Byte) (contents : List Byte) :
    Grows (buildObject · type contents) := by
  refine (appends_buildObject type contents).grows ?_
  have pos := length_buildLengthOctets_pos contents.length
  simp only [builtObject, List.cons_append, List.length_cons, List.length_append]
  omega

theorem grows_buildOpaque (special : Byte) (contents : List Byte) :
    Grows (buildOpaque · special contents) := fun buf buf' built => by
  simp only [buildOpaque, Option.bind_eq_bind, Option.bind_eq_some_iff] at built
  obtain ⟨buf₁, headed, buf₂, checked, buf₃, tagged, appended⟩ := built
  have header := WBuf.written_of_append
    ((appends_asnBuildHeader asnOpaque (contents.length + 3) buf).symm.trans headed)
  obtain rfl : buf₁ = buf₂ := by
    unfold asnBuildHeaderCheck at checked
    split at checked
    · simp at checked
    · simpa using checked
  have tags := WBuf.written_of_append tagged
  have value := WBuf.written_of_append appended
  refine ⟨_, ?_, by rw [value.1, tags.1, header.1, List.append_assoc, List.append_assoc]⟩
  simp only [List.length_append, List.length_cons]
  omega

theorem grows_values : HoldsOfValues Grows where
  refused := fun _ _ built => nomatch built
  ite := fun {condition} _ {_ _} growsYes growsNo buf buf' built => by
    by_cases holds : condition
    · exact growsYes buf buf' (by simpa [holds] using built)
    · exact growsNo buf buf' (by simpa [holds] using built)
  null := fun type => (appends_asnBuildHeader type 0).grows (by simp [buildLengthOctets])
  object := grows_buildObject
  special := grows_buildOpaque

theorem snmpBuildVarOp_spec {buf buf' : WBuf} {var : VariableList}
    (encodable : EncodableOid var.name) (built : snmpBuildVarOp buf var = some buf') :
    ∃ name value, Encodes asnObjectId (oidContents var.name) name ∧ 2 ≤ value.length ∧
      buf'.written = buf.written ++ (sequenceHeader asnSequence 4 ++ (name ++ value)) := by
  obtain ⟨name, encodesName, -, appendsName⟩ := appends_objid encodable
  unfold snmpBuildVarOp at built
  by_cases room : buf.datalength < 4
  · simp [room] at built
  · simp only [room, if_false, Option.bind_eq_bind, Option.bind_eq_some_iff] at built
    obtain ⟨buf₁, skipped, buf₂, named, buf₃, valued, headed⟩ := built
    have placeholder := (WBuf.written_of_append skipped).1
    have placeholderLength : (buf.ahead.take 4).length = 4 := by
      unfold WBuf.datalength at room
      rw [List.length_take]
      omega
    have afterName := (WBuf.written_of_append ((appendsName buf₁).symm.trans named)).1
    obtain ⟨value, length_ge, afterValue⟩ := grows_values.value var.type var.val buf₂ buf₃ valued
    have nameLength := encodesName.length_ge
    have written : buf₃.written = buf.written ++ (buf.ahead.take 4 ++ (name ++ value)) := by
      rw [afterValue, afterName, placeholder]
      simp only [List.append_assoc]
    obtain ⟨written₃, ahead₃⟩ := buf₃
    obtain rfl := written
    rw [asnBuildSequenceAt_append _ _ _ placeholderLength (by
      simp only [List.length_append, placeholderLength]
      omega)] at headed
    obtain rfl : _ = buf' := by simpa using headed
    exact ⟨name, value, encodesName, length_ge, rfl⟩

theorem snmpPduBuildVarbinds_spec {flags : UInt64} {saved : Bool} {vars : List VariableList}
    (encodable : ∀ var ∈ vars.takeWhile (fun var => var.type ≠ asnPrivStop), EncodableOid var.name)
    {buf : WBuf} {ending : BuildEnd}
    (built : snmpPduBuildVarbinds flags saved vars buf = some ending) :
    ∃ bytes, ending.1.written = buf.written ++ bytes := by
  induction vars generalizing saved buf with
  | nil =>
      obtain rfl : _ = ending := by simpa [snmpPduBuildVarbinds] using built
      exact ⟨[], by simp⟩
  | cons var vars ih =>
      by_cases stops : var.type = asnPrivStop
      · obtain rfl : _ = ending := by simpa [snmpPduBuildVarbinds, stops] using built
        exact ⟨[], by simp⟩
      · rw [List.takeWhile_cons_of_pos (by simpa using stops)] at encodable
        rw [snmpPduBuildVarbinds, if_neg stops] at built
        cases built_eq : snmpBuildVarOp buf var with
        | none =>
            rw [built_eq] at built
            by_cases dropped : saved = true ∧ flags &&& ucdMsgFlagBulkToobig ≠ 0
            · obtain rfl : _ = ending := by simpa [dropped] using built
              exact ⟨[], by simp⟩
            · simp [dropped] at built
        | some buf₁ =>
            rw [built_eq] at built
            obtain ⟨name, value, -, -, written⟩ :=
              snmpBuildVarOp_spec (encodable var List.mem_cons_self) built_eq
            obtain ⟨more, written'⟩ :=
              ih (fun other mem => encodable other (List.mem_cons_of_mem _ mem)) built
            exact ⟨_, by rw [written', written, List.append_assoc]⟩

/-- What stands behind the header fields: the variables of a PDU that has any start with a header
for four bytes and an encoding of a name. -/
def VarbindsBytes (pdu : NetsnmpPdu) (varbinds : List Byte) : Prop :=
  match pdu.sentVariables with
  | [] => varbinds = []
  | var :: _ => ∃ name more, Encodes asnObjectId (oidContents var.name) name ∧
      varbinds = sequenceHeader asnSequence 4 ++ (name ++ more)

theorem varbindsBytes_spec {pdu : NetsnmpPdu} (encodable : pdu.Encodable) {buf : WBuf}
    {ending : BuildEnd}
    (built : snmpPduBuildVarbinds pdu.flags false pdu.variableList buf = some ending) :
    ∃ varbinds, VarbindsBytes pdu varbinds ∧ ending.1.written = buf.written ++ varbinds := by
  have names := fun var mem => (encodable.varbinds var mem).1
  unfold VarbindsBytes
  unfold NetsnmpPdu.sentVariables at names ⊢
  cases vars_eq : pdu.variableList with
  | nil =>
      rw [vars_eq] at built
      obtain rfl : _ = ending := by simpa [snmpPduBuildVarbinds] using built
      exact ⟨[], rfl, by simp⟩
  | cons var vars =>
      rw [vars_eq] at built names
      by_cases stops : var.type = asnPrivStop
      · obtain rfl : _ = ending := by simpa [snmpPduBuildVarbinds, stops] using built
        exact ⟨[], by simp [stops], by simp⟩
      · rw [snmpPduBuildVarbinds, if_neg stops] at built
        rw [List.takeWhile_cons_of_pos (by simpa using stops)] at names ⊢
        cases built_eq : snmpBuildVarOp buf var with
        | none => simp [built_eq] at built
        | some buf₁ =>
            rw [built_eq] at built
            obtain ⟨name, value, encodesName, -, written⟩ :=
              snmpBuildVarOp_spec (names var List.mem_cons_self) built_eq
            obtain ⟨more, written'⟩ := snmpPduBuildVarbinds_spec
              (fun other mem => names other (List.mem_cons_of_mem _ mem)) built
            exact ⟨_, ⟨name, value ++ more, encodesName, rfl⟩, by
              rw [written', written]
              simp only [List.append_assoc]⟩

def pduBytes (pdu : NetsnmpPdu) (fields varbinds : List Byte) : List Byte :=
  sequenceHeader (toUChar pdu.command) (fields.length + 4 + varbinds.length) ++
    (fields ++ (sequenceHeader asnSequence varbinds.length ++ varbinds))

theorem fill_headers {outer inner : List Byte} (fields varbinds ahead : List Byte) (length : Nat)
    (outerLength : outer.length = 4) (innerLength : inner.length = 4) (room : 8 ≤ length)
    (pdu : NetsnmpPdu) :
    asnBuildSequenceAt
      (asnBuildSequenceAt ⟨outer ++ (fields ++ (inner ++ varbinds)), ahead⟩
        (outer ++ fields).length length asnSequence varbinds.length)
      0 (length - 4) (toUChar pdu.command) (fields.length + 4 + varbinds.length) =
      ⟨pduBytes pdu fields varbinds, ahead⟩ := by
  have innerFilled := asnBuildSequenceAt_append (outer ++ fields) varbinds ahead innerLength
    (show 4 ≤ length by omega) asnSequence varbinds.length
  have outerFilled := asnBuildSequenceAt_append []
    (fields ++ (sequenceHeader asnSequence varbinds.length ++ varbinds)) ahead outerLength
    (show 4 ≤ length - 4 by omega) (toUChar pdu.command) (fields.length + 4 + varbinds.length)
  simp only [List.append_assoc] at innerFilled
  simp only [List.nil_append, List.length_nil] at outerFilled
  rw [innerFilled, outerFilled, pduBytes]

theorem snmpPduBuild_spec {pdu : NetsnmpPdu} (encodable : pdu.Encodable) {memory : List Byte}
    {result : PduBuilt} (built : snmpPduBuild pdu ⟨[], memory⟩ = some result) :
    ∃ fields varbinds, (if pdu.command = snmpMsgTrap then EncodesTrap pdu fields
        else EncodesFields pdu fields) ∧ fields.length ≤ 700 ∧ VarbindsBytes pdu varbinds ∧
      result.buf.written = pduBytes pdu fields varbinds := by
  obtain ⟨fields, encodes, short, appendsHead⟩ := appends_buildHead encodable
  simp only [snmpPduBuild, Option.bind_eq_bind, Option.bind_eq_some_iff] at built
  obtain ⟨cp₁, first, cp₂, headed, cp₃, second, ⟨cp₄, dropped⟩, looped, result_eq⟩ := built
  obtain ⟨written₁, room₁⟩ := WBuf.written_of_append
    ((appends_asnBuildSequence (toUChar pdu.command) 0 _).symm.trans first)
  obtain ⟨written₂, room₂⟩ := WBuf.written_of_append ((appendsHead cp₁).symm.trans headed)
  obtain ⟨written₃, room₃⟩ := WBuf.written_of_append
    ((appends_asnBuildSequence asnSequence 0 cp₂).symm.trans second)
  obtain ⟨varbinds, shape, written₄⟩ := varbindsBytes_spec encodable looped
  obtain ⟨written, ahead⟩ := cp₄
  change written = cp₃.written ++ varbinds at written₄
  have whole : written = sequenceHeader (toUChar pdu.command) 0 ++
      (fields ++ (sequenceHeader asnSequence 0 ++ varbinds)) := by
    rw [written₄, written₃, written₂, written₁]
    simp only [List.nil_append, List.append_assoc]
  have filled := fill_headers fields varbinds ahead memory.length
    (length_sequenceHeader (toUChar pdu.command) 0) (length_sequenceHeader asnSequence 0) (by
      simp only [WBuf.datalength, length_sequenceHeader] at room₁ room₃ room₂
      omega) pdu
  have listLength : written.length - cp₃.written.length = varbinds.length := by
    rw [written₄, List.length_append, Nat.add_sub_cancel_left]
  have pduLength : written.length - cp₁.written.length = fields.length + 4 + varbinds.length := by
    rw [whole, written₁]
    simp only [List.nil_append, List.length_append, length_sequenceHeader]
    omega
  have start : cp₂.written.length = (sequenceHeader (toUChar pdu.command) 0 ++ fields).length := by
    rw [written₂, written₁, List.nil_append]
  refine ⟨fields, varbinds, encodes, short, shape, ?_⟩
  rw [← Option.some.inj result_eq]
  simp only [listLength, pduLength, start]
  rw [whole]
  exact congrArg WBuf.written filled

end NetSnmp
