import NetSnmp.Snmp.BuildWrites
import NetSnmp.Snmp.RoundTrip

/-!
# The forward PDU encoder against the reverse one

Both encode the same header fields, but the sequence around each variable comes out of
`snmp_build_var_op` with a length of four bytes, so that only PDUs without a variable are
decoded alike.
-/

namespace NetSnmp

open Ber Reader

/-- The forward encoder agrees with the reverse one: in every buffer that is large enough the PDU
is built and decoded to the same header fields and variables as `reverse`, and the sequence around
a variable is as long as it says. -/
def ForwardAgrees (fresh pdu : NetsnmpPdu) (reverse : List Byte) : Prop :=
  ∃ size, ∀ memory, size ≤ memory.length →
    ∃ built, snmpPduBuild pdu ⟨[], memory⟩ = some built ∧
      (∃ parsed parsed',
        (snmpPduParse fresh built.buf.written built.buf.written.length).outcome = .ok parsed ∧
        (snmpPduParse fresh reverse reverse.length).outcome = .ok parsed' ∧
        NetsnmpPdu.SameHeader parsed'.pdu parsed.pdu ∧
        parsed.pdu.variableList = parsed'.pdu.variableList) ∧
      ∀ var ∈ pdu.sentVariables, ∃ contents encoded, snmpBuildVarOp ⟨[], memory⟩ var =
        some encoded ∧ Encodes asnSequence contents encoded.written

theorem EncodableOid.three_le {name : Oid} {encoding : List Byte} (encodable : EncodableOid name)
    (encodes : Encodes asnObjectId (oidContents name) encoding) : 3 ≤ encoding.length := by
  have nonempty := List.length_pos_iff.mpr encodable.oidContents_ne_nil
  have length_ge := encodes.length_ge
  omega

theorem length_of_encodes_sequenceHeader {type : Byte} {length : Nat} {contents back : List Byte}
    (encodes : Encodes type contents (sequenceHeader type length ++ back)) :
    contents.length = length % 2 ^ 16 ∧ contents = back := by
  obtain ⟨field, lengthField, encoding_eq⟩ := encodes
  obtain ⟨field', header_eq, -, lengthField'⟩ := sequenceHeader_eq type length
  rw [header_eq, List.cons_append, List.cons.injEq] at encoding_eq
  have first := outcome_asnParseNlength back lengthField' (field' ++ back).length
  have second := outcome_asnParseNlength contents lengthField (field' ++ back).length
  rw [encoding_eq.2, if_pos (by rw [List.length_append])] at second
  rw [encoding_eq.2, second] at first
  split at first
  · simp only [Outcome.ok.injEq, Prod.mk.injEq] at first
    exact ⟨first.2, first.1⟩
  · simp at first

theorem not_encodes_snmpBuildVarOp {var : VariableList} {memory contents : List Byte}
    {encoded : WBuf} (encodable : EncodableOid var.name)
    (built : snmpBuildVarOp ⟨[], memory⟩ var = some encoded) :
    ¬ Encodes asnSequence contents encoded.written := by
  intro encodes
  obtain ⟨name, value, encodesName, length_ge, written⟩ := snmpBuildVarOp_spec encodable built
  rw [written, List.nil_append] at encodes
  obtain ⟨length_eq, contents_eq⟩ := length_of_encodes_sequenceHeader encodes
  have nameLength := encodable.three_le encodesName
  rw [contents_eq, List.length_append] at length_eq
  omega

theorem sentVariables_of_forwardAgrees {fresh pdu : NetsnmpPdu} {reverse : List Byte}
    (encodable : pdu.Encodable) (agrees : ForwardAgrees fresh pdu reverse) :
    pdu.sentVariables = [] := by
  obtain ⟨size, agrees⟩ := agrees
  obtain ⟨built, -, -, sequences⟩ := agrees (List.replicate size 0) (by simp)
  refine List.eq_nil_iff_forall_not_mem.mpr fun var mem => ?_
  obtain ⟨contents, encoded, builtVar, encodes⟩ := sequences var mem
  exact not_encodes_snmpBuildVarOp (encodable.varbinds var mem).1 builtVar encodes

theorem snmpPduBuildVarbinds_empty {pdu : NetsnmpPdu} (sent : pdu.sentVariables = []) (buf : WBuf) :
    ∃ left, snmpPduBuildVarbinds pdu.flags false pdu.variableList buf = some (buf, left) := by
  unfold NetsnmpPdu.sentVariables at sent
  cases vars : pdu.variableList with
  | nil => exact ⟨[], rfl⟩
  | cons var vars' =>
      rw [vars] at sent
      by_cases stops : var.type = asnPrivStop
      · exact ⟨var :: vars', by simp [snmpPduBuildVarbinds, stops]⟩
      · simp [stops] at sent

theorem WBuf.append_of_room {buf : WBuf} {bytes : List Byte}
    (room : bytes.length ≤ buf.ahead.length) :
    buf.append bytes = some ⟨buf.written ++ bytes, buf.ahead.drop bytes.length⟩ :=
  if_pos room

theorem snmpPduBuild_empty {pdu : NetsnmpPdu} (encodable : pdu.Encodable)
    (sent : pdu.sentVariables = []) {memory : List Byte} (room : 708 ≤ memory.length) :
    ∃ built, snmpPduBuild pdu ⟨[], memory⟩ = some built := by
  obtain ⟨fields, -, short, appendsHead⟩ := appends_buildHead encodable
  have first := appends_asnBuildSequence (toUChar pdu.command) 0 ⟨[], memory⟩
  have second (cp : WBuf) := appends_asnBuildSequence asnSequence 0 cp
  simp only [appendsHead _, snmpPduBuild, first]
  rw [WBuf.append_of_room (by rw [length_sequenceHeader]; simp only; omega)]
  simp only [Option.bind_eq_bind, Option.bind_some]
  rw [WBuf.append_of_room (by rw [length_sequenceHeader, List.length_drop]; omega)]
  simp only [Option.bind_some, second]
  rw [WBuf.append_of_room (by
    rw [length_sequenceHeader, length_sequenceHeader, List.length_drop, List.length_drop]
    omega)]
  obtain ⟨left, looped⟩ := snmpPduBuildVarbinds_empty sent
    ⟨[] ++ sequenceHeader (toUChar pdu.command) 0 ++ fields ++ sequenceHeader asnSequence 0,
      ((memory.drop (sequenceHeader (toUChar pdu.command) 0).length).drop fields.length).drop
        (sequenceHeader asnSequence 0).length⟩
  simp only [Option.bind_some, looped]
  exact ⟨_, rfl⟩

theorem encodes_sequenceHeader (type : Byte) {contents : List Byte}
    (small : contents.length < 2 ^ 16) :
    Encodes type contents (sequenceHeader type contents.length ++ contents) := by
  obtain ⟨field, header_eq, -, lengthField⟩ := sequenceHeader_eq type contents.length
  rw [Nat.mod_eq_of_lt small] at lengthField
  exact ⟨field, lengthField, by rw [header_eq, List.cons_append]⟩

theorem encodesPdu_snmpPduBuild_empty {pdu : NetsnmpPdu} (encodable : pdu.Encodable)
    (sent : pdu.sentVariables = []) {memory : List Byte} {built : PduBuilt}
    (builds : snmpPduBuild pdu ⟨[], memory⟩ = some built) :
    EncodesPdu pdu built.buf.written ∧ built.buf.written.length < 2 ^ 31 := by
  obtain ⟨fields, varbinds, encodesFields, short, shape, written⟩ :=
    snmpPduBuild_spec encodable builds
  rw [VarbindsBytes, sent] at shape
  subst shape
  have list : Encodes asnSequence [] (sequenceHeader asnSequence 0 ++ []) :=
    encodes_sequenceHeader asnSequence (by norm_num)
  have contentsLength : (fields ++ (sequenceHeader asnSequence 0 ++ [])).length =
      fields.length + 4 + ([] : List Byte).length := by
    simp only [List.length_append, length_sequenceHeader, List.length_nil]
  have whole := encodes_sequenceHeader (toUChar pdu.command)
    (show (fields ++ (sequenceHeader asnSequence 0 ++ [])).length < 2 ^ 16 by
      rw [contentsLength, List.length_nil]
      omega)
  rw [contentsLength] at whole
  rw [written]
  refine ⟨⟨fields, [], _, encodesFields, ?_, list, whole⟩, ?_⟩
  · rw [sent]
    exact .nil
  · simp only [pduBytes, List.length_append, length_sequenceHeader, List.length_nil]
    omega

theorem length_object_le (type : Byte) (contents : List Byte) (small : contents.length < 2 ^ 63) :
    (object type contents).length ≤ contents.length + 10 := by
  have field := (lengthField_lengthOctets small).length_le
  simp only [object, headerOctets, List.cons_append, List.length_cons, List.length_append]
  omega

/-- At most `bound` bytes are written, the same ones in every buffer. -/
def WritesAtMost (encoder : RBuf → Option RBuf) (bound : Nat) : Prop :=
  ∃ bytes, bytes.length ≤ bound ∧ ∀ buf, Wrote (encoder buf) bytes buf

theorem WritesAtMost.andThen {first second : RBuf → Option RBuf} {bound bound' : Nat}
    (writesFirst : WritesAtMost first bound) (writesSecond : WritesAtMost second bound') :
    WritesAtMost (fun buf => first buf >>= second) (bound + bound') := by
  obtain ⟨back, backShort, wroteBack⟩ := writesFirst
  obtain ⟨front, frontShort, wroteFront⟩ := writesSecond
  refine ⟨front ++ back, ?_, fun buf => (wroteBack buf).bind fun buf' _ => wroteFront buf'⟩
  rw [List.length_append]
  omega

theorem writesAtMost_int {value : Int} (inRange : IsInt32 value) :
    WritesAtMost (asnReallocRbuildInt true · asnInteger value) 18 := by
  obtain ⟨contents, -, width, -, wrote⟩ :=
    wrote_asnReallocRbuildInt asnInteger inRange.1 inRange.2
  have le := length_object_le asnInteger (contents) (by omega)
  exact ⟨_, by omega, wrote⟩

theorem writesAtMost_rbuildFields {pdu : NetsnmpPdu} (encodable : pdu.EncodableFields) :
    WritesAtMost (rbuildFields pdu) 700 := by
  have all := ((writesAtMost_int encodable.errindex).andThen
    (writesAtMost_int encodable.errstat)).andThen (writesAtMost_int encodable.reqid)
  simp only [bind_assoc] at all
  obtain ⟨bytes, short, wrote⟩ := all
  exact ⟨bytes, by omega, wrote⟩

theorem writesAtMost_rbuildTrapFields {pdu : NetsnmpPdu} (encodable : pdu.EncodableTrap) :
    WritesAtMost (rbuildTrapFields pdu) 750 := by
  obtain ⟨time, -, timeWidth, -, wroteTime⟩ :=
    wrote_asnReallocRbuildUnsignedInt asnTimeticks encodable.time
  have timeLe := length_object_le asnTimeticks (time) (by omega)
  have addressLe := length_object_le asnIpaddress (pdu.agentAddr.toList) (by simp)
  have contentsLe := length_oidContents_le encodable.enterprise
  have enterpriseLe := length_object_le asnObjectId (oidContents pdu.enterprise)
    (by omega)
  have writesTime : WritesAtMost (asnReallocRbuildUnsignedInt true · asnTimeticks pdu.time) 18 :=
    ⟨_, by omega, wroteTime⟩
  have writesAddress :
      WritesAtMost (asnReallocRbuildString true · asnIpaddress pdu.agentAddr.toList) 14 :=
    ⟨_, by simpa using addressLe, fun buf =>
      wrote_asnReallocRbuildString buf asnIpaddress pdu.agentAddr.toList⟩
  have writesEnterprise :
    WritesAtMost (asnReallocRbuildObjid true · asnObjectId pdu.enterprise) 650 :=
    ⟨_, by omega, wrote_asnReallocRbuildObjid asnObjectId encodable.enterprise⟩
  have all := (((writesTime.andThen (writesAtMost_int encodable.specificType)).andThen
    (writesAtMost_int encodable.trapType)).andThen writesAddress).andThen writesEnterprise
  simp only [bind_assoc] at all
  obtain ⟨bytes, short, wrote⟩ := all
  exact ⟨bytes, by omega, wrote⟩

theorem snmpPduReallocRbuild_short {pdu : NetsnmpPdu} (encodable : pdu.Encodable)
    (sent : pdu.sentVariables = []) {reverse : RBuf}
    (builds : snmpPduReallocRbuild pdu .empty = some reverse) :
      reverse.written.length < 2 ^ 31 := by
  have head : WritesAtMost (rbuildHead pdu) 750 := by
    unfold rbuildHead
    by_cases isTrap : pdu.command = snmpMsgTrap
    · simpa [isTrap] using writesAtMost_rbuildTrapFields (encodable.trap isTrap)
    · obtain ⟨bytes, short, wrote⟩ := writesAtMost_rbuildFields (encodable.fields isTrap)
      exact ⟨bytes, by omega, by simpa [isTrap] using wrote⟩
  obtain ⟨fields, short, wroteFields⟩ := head
  have wroteList : Wrote (some RBuf.empty) [] .empty := .done
  have sequence := wroteList.header asnSequence (fun buf' => buf'.offset - RBuf.empty.offset)
    fun buf' => Wrote.offset
  have whole := (sequence.bind fun buf' _ => wroteFields buf').header (toUChar pdu.command)
    (fun buf' => buf'.offset - RBuf.empty.offset) fun buf' => Wrote.offset
  have listLe := length_object_le asnSequence ([]) (by norm_num)
  have pduLe := length_object_le (toUChar pdu.command) (fields ++ object asnSequence []) (by
      rw [List.length_append]
      simp only [List.length_nil] at listLe
      omega)
  obtain ⟨buf', written_eq, written⟩ := whole
  have same : some buf' = some reverse := by
    rw [← written_eq, ← builds]
    simp only [snmpPduReallocRbuild]
    rw [rbuildVarbinds_sentVariables, sent]
    rfl
  obtain rfl : buf' = reverse := by simpa using same
  rw [written, List.length_append]
  rw [List.length_append] at pduLe
  simp only [List.length_nil, RBuf.empty] at listLe ⊢
  omega

theorem forwardAgrees_of_empty {fresh pdu : NetsnmpPdu} {reverse : RBuf} (encodable : pdu.Encodable)
    (empty : fresh.variableList = []) (sent : pdu.sentVariables = [])
    (builds : snmpPduReallocRbuild pdu .empty = some reverse) :
    ForwardAgrees fresh pdu reverse.written := by
  have short := snmpPduReallocRbuild_short encodable sent builds
  obtain ⟨encoding, encodes, wrote⟩ := writes_snmpPduReallocRbuild encodable
  obtain ⟨buf', built, written⟩ := wrote .empty
  obtain rfl : buf' = reverse := by simpa [built] using builds
  have encoding_eq : buf'.written = encoding := by rw [written]; exact List.append_nil _
  rw [encoding_eq] at short ⊢
  have reverseParsed := outcome_snmpPduParse [] empty encodable (encodes short) short
  rw [List.append_nil] at reverseParsed
  refine ⟨708, fun memory room => ?_⟩
  obtain ⟨forward, buildsForward⟩ := snmpPduBuild_empty encodable sent room
  obtain ⟨encodesForward, small⟩ := encodesPdu_snmpPduBuild_empty encodable sent buildsForward
  have parsed := outcome_snmpPduParse [] empty encodable encodesForward small
  rw [List.append_nil] at parsed
  refine ⟨forward, buildsForward, ⟨_, _, parsed, reverseParsed, ?_, rfl⟩, by simp [sent]⟩
  exact ⟨rfl, fun _ => ⟨rfl, rfl, rfl, rfl, rfl⟩, fun _ => ⟨rfl, rfl, rfl⟩⟩

/-- The two encoders agree on a PDU that is in range exactly when it has no variable. -/
theorem forwardAgrees_iff {fresh pdu : NetsnmpPdu} {reverse : RBuf} (encodable : pdu.Encodable)
    (empty : fresh.variableList = [])
    (builds : snmpPduReallocRbuild pdu .empty = some reverse) :
    ForwardAgrees fresh pdu reverse.written ↔ pdu.sentVariables = [] :=
  ⟨sentVariables_of_forwardAgrees encodable,
    fun sent => forwardAgrees_of_empty encodable empty sent builds⟩

theorem forwardAgrees_iff_requestFor :
    ∃ reverse, snmpPduReallocRbuild (requestFor [1, 3, 6, 1, 2, 1, 1, 3, 0]) .empty =
        some reverse ∧
      (ForwardAgrees {} (requestFor [1, 3, 6, 1, 2, 1, 1, 3, 0]) reverse.written ↔
        (requestFor [1, 3, 6, 1, 2, 1, 1, 3, 0]).sentVariables = []) := by
  have encodable : (requestFor [1, 3, 6, 1, 2, 1, 1, 3, 0]).Encodable :=
    encodable_requestFor (.mk (by decide) (by decide) (by decide) (by decide) (by decide))
  obtain ⟨encoding, -, wrote⟩ := writes_snmpPduReallocRbuild encodable
  obtain ⟨reverse, builds, -⟩ := wrote .empty
  exact ⟨reverse, builds, forwardAgrees_iff encodable rfl builds⟩

/-- The forward encoding of a request for `sysUpTime.0` is rejected by the decoder. -/
theorem not_forwardAgrees_requestFor :
    (requestFor [1, 3, 6, 1, 2, 1, 1, 3, 0]).Encodable ∧
      (snmpPduBuild (requestFor [1, 3, 6, 1, 2, 1, 1, 3, 0]) ⟨[], List.replicate 64 0⟩).map
        (fun built =>
          (snmpPduParse {} built.buf.written built.buf.written.length).outcome) = some .null ∧
      ∀ reverse, snmpPduReallocRbuild (requestFor [1, 3, 6, 1, 2, 1, 1, 3, 0]) .empty =
          some reverse →
        ¬ ForwardAgrees {} (requestFor [1, 3, 6, 1, 2, 1, 1, 3, 0]) reverse.written := by
  have encodable : (requestFor [1, 3, 6, 1, 2, 1, 1, 3, 0]).Encodable :=
    encodable_requestFor (.mk (by decide) (by decide) (by decide) (by decide) (by decide))
  refine ⟨encodable, by decide +kernel, fun reverse _ agrees => ?_⟩
  exact absurd (sentVariables_of_forwardAgrees encodable agrees) (by decide)

end NetSnmp
