import NetSnmp.Snmp.BuildWrites

/-!
# The room of the forward encoders

Whatever the forward encoders write comes out of the room that they are told, so
that a PDU is never larger than its buffer.  The variables that are left of a
bulk response that was too big fit into the buffer, so that building them once
more drops none and writes the same.
-/

namespace NetSnmp

def UsesRoom (encoder : WBuf → Option WBuf) : Prop :=
  ∀ buf buf', encoder buf = some buf' → buf.written.length ≤ buf'.written.length ∧
    buf'.written.length + buf'.datalength = buf.written.length + buf.datalength

theorem usesRoom_append (bytes : List Byte) : UsesRoom (·.append bytes) := by
  intro buf buf' built
  rcases WBuf.written_of_append built with ⟨written, room⟩
  rw [written, List.length_append]
  omega

theorem Appends.usesRoom {encoder : WBuf → Option WBuf} {bytes : List Byte}
    (appends : Appends encoder bytes) : UsesRoom encoder := by
  intro buf buf' built
  exact usesRoom_append bytes buf buf' ((appends buf).symm.trans built)

namespace UsesRoom

variable {first second : WBuf → Option WBuf}

theorem ite {condition : Prop} [Decidable condition] (yes : UsesRoom first)
    (no : UsesRoom second) : UsesRoom fun buf => if condition then first buf else second buf := by
  intro buf buf' built
  by_cases holds : condition
  · exact yes buf buf' ((if_pos holds).symm.trans built)
  · exact no buf buf' ((if_neg holds).symm.trans built)

theorem bind (uses : UsesRoom first) (uses' : UsesRoom second) :
    UsesRoom fun buf => (first buf).bind second := by
  intro buf buf' built
  rcases Option.bind_eq_some_iff.mp built with ⟨middle, built₁, built₂⟩
  have before := uses buf middle built₁
  have behind := uses' middle buf' built₂
  omega

end UsesRoom

theorem usesRoom_asnBuildHeaderCheck (typedlen : Nat) :
    UsesRoom (asnBuildHeaderCheck · typedlen) := by
  intro buf buf' built
  change asnBuildHeaderCheck buf typedlen = some buf' at built
  rw [asnBuildHeaderCheck] at built
  split at built
  · nomatch built
  · rw [← Option.some.inj built]
    exact ⟨le_refl _, rfl⟩

theorem usesRoom_asnBuildSequence (type : Byte) (length : Nat) :
    UsesRoom (asnBuildSequence · type length) :=
  (appends_asnBuildSequence type length).usesRoom

theorem usesRoom_values : HoldsOfValues UsesRoom where
  refused := fun _ _ built => nomatch built
  ite := UsesRoom.ite
  null := fun type => (appends_asnBuildHeader type 0).usesRoom
  object := fun type contents => (appends_buildObject type contents).usesRoom
  special := fun _ _ => (appends_asnBuildHeader asnOpaque _).usesRoom.bind
    ((usesRoom_asnBuildHeaderCheck _).bind ((usesRoom_append _).bind (usesRoom_append _)))

theorem length_asnBuildSequenceAt {buf : WBuf} {offset : Nat}
    (inside : offset + 4 ≤ buf.written.length) (datalength : Nat) (type : Byte) (length : Nat) :
    (asnBuildSequenceAt buf offset datalength type length).written.length = buf.written.length ∧
      (asnBuildSequenceAt buf offset datalength type length).datalength = buf.datalength := by
  rw [asnBuildSequenceAt]
  split
  · exact ⟨rfl, rfl⟩
  · refine ⟨?_, rfl⟩
    simp only [WBuf.patch, List.length_append, List.length_take, List.length_drop,
      length_sequenceHeader]
    omega

theorem usesRoom_snmpBuildVarOp (var : VariableList) : UsesRoom (snmpBuildVarOp · var) := by
  intro buf buf' built
  change snmpBuildVarOp buf var = some buf' at built
  rw [snmpBuildVarOp] at built
  split at built
  · nomatch built
  · rename_i room
    simp only [Option.bind_eq_bind, Option.bind_eq_some_iff] at built
    rcases built with ⟨buf₁, skipped, buf₂, named, buf₃, valued, headed⟩
    have skip := WBuf.written_of_append skipped
    have name := usesRoom_values.objid _ _ _ _ named
    have value := usesRoom_values.value _ _ _ _ valued
    have placeholder : (buf.ahead.take 4).length = 4 := by
      rw [WBuf.datalength] at room
      rw [List.length_take]
      omega
    rw [skip.1, List.length_append, placeholder] at name
    rw [placeholder] at skip
    have kept := @length_asnBuildSequenceAt buf₃ buf.written.length (by omega)
    rw [← Option.some.inj headed, (kept _ _ _).1, (kept _ _ _).2]
    omega

/-- What the loop leaves is the end of the list, and without it the loop writes the same. -/
structure Leaves (flags : UInt64) (saved : Bool) (vars : List VariableList) (buf : WBuf)
    (ending : BuildEnd) (kept : List VariableList) : Prop where
  vars_eq : vars = kept ++ ending.2
  again : snmpPduBuildVarbinds flags saved kept buf = some (ending.1, [])
  grows : buf.written.length ≤ ending.1.written.length
  room : ending.1.written.length + ending.1.datalength = buf.written.length + buf.datalength

theorem snmpPduBuildVarbinds_leaves {flags : UInt64} {vars : List VariableList}
    {ending : BuildEnd} {saved : Bool} {buf : WBuf}
    (built : snmpPduBuildVarbinds flags saved vars buf = some ending) :
    ∃ kept, Leaves flags saved vars buf ending kept := by
  induction vars generalizing saved buf with
  | nil =>
      obtain rfl : _ = ending := Option.some.inj built
      exact ⟨[], rfl, rfl, le_refl _, rfl⟩
  | cons vp rest ih =>
      -- a loop that stops in front of a variable writes nothing more
      have stopped {ending : BuildEnd} (here : some (buf, vp :: rest) = some ending) :
          Leaves flags saved (vp :: rest) buf ending [] := by
        obtain rfl : _ = ending := Option.some.inj here
        exact ⟨rfl, rfl, le_refl _, rfl⟩
      rw [snmpPduBuildVarbinds] at built
      split at built
      · exact ⟨[], stopped built⟩
      · rename_i goesOn
        split at built
        · rename_i buf' built'
          rcases ih built with ⟨kept, leaves⟩
          have uses := usesRoom_snmpBuildVarOp vp buf buf' built'
          refine ⟨vp :: kept, congrArg (vp :: ·) leaves.vars_eq, ?_, ?_, ?_⟩
          · rw [snmpPduBuildVarbinds, if_neg goesOn, built']
            exact leaves.again
          · exact uses.1.trans leaves.grows
          · exact leaves.room.trans uses.2
        · split at built
          · exact ⟨[], stopped built⟩
          · cases built

theorem usesRoom_buildHead (pdu : NetsnmpPdu) : UsesRoom (buildHead pdu) := by
  have values := usesRoom_values
  apply UsesRoom.ite
  · exact (values.objid _ _).bind ((values.string _ _).bind ((values.int _ _).bind
      ((values.int _ _).bind (values.unsignedInt _ _))))
  · exact (values.int _ _).bind ((values.int _ _).bind (values.int _ _))

/-- The list that is left is the original one, or a part in front of it that is not empty. -/
def KeepsFront (original left : List VariableList) : Prop :=
  left = original ∨ left ≠ [] ∧ left <+: original

/-- What a PDU that is built is to its buffer and to its variables. -/
structure BuildsPdu (pdu : NetsnmpPdu) (cp : WBuf) (built : PduBuilt) : Prop where
  grows : cp.written.length + 4 ≤ built.buf.written.length
  room : built.buf.written.length + built.buf.datalength = cp.written.length + cp.datalength
  front : KeepsFront pdu.variableList built.variableList
  again : snmpPduBuild { pdu with variableList := built.variableList } cp = some built

theorem snmpPduBuild_builds {pdu : NetsnmpPdu} {cp : WBuf} {built : PduBuilt}
    (success : snmpPduBuild pdu cp = some built) : BuildsPdu pdu cp built := by
  have whole := success
  simp only [snmpPduBuild, Option.bind_eq_bind, Option.bind_eq_some_iff] at success
  rcases success with
    ⟨cp₁, first, cp₂, headed, cp₃, second, ⟨cp₄, dropped⟩, looped, result_eq⟩
  rcases snmpPduBuildVarbinds_leaves looped with ⟨kept, leaves⟩
  have taken : pdu.variableList.take (pdu.variableList.length - dropped.length) = kept := by
    rw [leaves.vars_eq, List.length_append, Nat.add_sub_cancel, List.take_left]
  rw [taken] at result_eq
  have firstHeader := WBuf.written_of_append ((appends_asnBuildSequence _ 0 _).symm.trans first)
  have secondHeader := WBuf.written_of_append
    ((appends_asnBuildSequence asnSequence 0 _).symm.trans second)
  have head := usesRoom_buildHead pdu _ _ headed
  have grows : cp₃.written.length ≤ cp₄.written.length := leaves.grows
  have room : cp₄.written.length + cp₄.datalength = cp₃.written.length + cp₃.datalength :=
    leaves.room
  simp only [length_sequenceHeader] at firstHeader secondHeader
  have written₁ := congrArg List.length firstHeader.1
  have written₃ := congrArg List.length secondHeader.1
  simp only [List.length_append, length_sequenceHeader] at written₁ written₃
  have inner := @length_asnBuildSequenceAt cp₄ cp₂.written.length (by omega) cp.datalength
    asnSequence (cp₄.written.length - cp₃.written.length)
  have outer := @length_asnBuildSequenceAt _ cp.written.length
    (show cp.written.length + 4 ≤ _ by rw [inner.1]; omega) (cp.datalength - 4)
    (toUChar pdu.command) (cp₄.written.length - cp₁.written.length)
  refine ⟨?_, ?_, ?_, ?_⟩
  · rw [← Option.some.inj result_eq]
    change cp.written.length + 4 ≤ (asnBuildSequenceAt _ _ _ _ _).written.length
    rw [outer.1, inner.1]
    omega
  · rw [← Option.some.inj result_eq]
    change (asnBuildSequenceAt _ _ _ _ _).written.length +
      (asnBuildSequenceAt _ _ _ _ _).datalength = _
    rw [outer.1, outer.2, inner.1, inner.2]
    omega
  · rw [← Option.some.inj result_eq]
    by_cases none_kept : kept = []
    · exact .inl (if_pos none_kept)
    · refine .inr ?_
      change (if kept = [] then pdu.variableList else kept) ≠ [] ∧ _ <+: _
      rw [if_neg none_kept]
      exact ⟨none_kept, leaves.vars_eq ▸ List.prefix_append kept dropped⟩
  · by_cases none_kept : kept = []
    · rw [if_pos none_kept] at result_eq
      rw [← congrArg PduBuilt.variableList (Option.some.inj result_eq)]
      exact whole
    · rw [if_neg none_kept] at result_eq
      rw [← congrArg PduBuilt.variableList (Option.some.inj result_eq)]
      have headed' : buildHead { pdu with variableList := kept } cp₁ = some cp₂ := headed
      simp only [snmpPduBuild, first, headed', second, leaves.again, Option.bind_eq_bind,
        Option.bind_some, List.length_nil, Nat.sub_zero, List.take_length, if_neg none_kept]
      exact result_eq

end NetSnmp
