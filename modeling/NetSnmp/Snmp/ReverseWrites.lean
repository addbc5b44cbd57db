import NetSnmp.Asn.ReverseOpaque
import NetSnmp.Snmp.Decode
import NetSnmp.Snmp.ReverseBuild

/-!
# What the reverse encoders of values and variables write

An encoding of every value and of every variable that is in range.
-/

namespace NetSnmp

open Ber

/-- Whatever stands in the buffer, `encoder` adds the same bytes in front of it; unless they are
too many for a packet, they have the given property. -/
def Writes (encoder : RBuf → Option RBuf) (property : List Byte → Prop) : Prop :=
  ∃ bytes, (bytes.length < 2 ^ 31 → property bytes) ∧ ∀ buf, Wrote (encoder buf) bytes buf

theorem Writes.mono {encoder : RBuf → Option RBuf} {property weaker : List Byte → Prop}
    (writes : Writes encoder property) (implies : ∀ bytes, property bytes → weaker bytes) :
    Writes encoder weaker := by
  obtain ⟨bytes, holds, wrote⟩ := writes
  exact ⟨bytes, fun small => implies bytes (holds small), wrote⟩

theorem writes_object {encoder : RBuf → Option RBuf} {type : Byte} {contents : List Byte}
    (wrote : ∀ buf, Wrote (encoder buf) (object type contents) buf) :
    Writes encoder (Encodes type contents) := by
  refine ⟨object type contents, fun small => encodes_object ?_, wrote⟩
  have le := length_object_ge type contents
  omega

theorem writes_specialObject {encoder : RBuf → Option RBuf} {special : Byte} {inner : List Byte}
    (short : inner.length ≤ 9)
    (wrote : ∀ buf, Wrote (encoder buf) (specialObject special inner) buf) :
    Writes encoder fun encoding =>
      EncodesSpecial special inner encoding ∧ encoding.length = inner.length + 5 :=
  ⟨specialObject special inner, fun _ =>
    ⟨encodesSpecial_specialObject (by omega), length_specialObject (by omega)⟩, wrote⟩

section Values

theorem writes_asnReallocRbuildInt {value : Int} (inRange : IsInt32 value) :
    Writes (fun buf => asnReallocRbuildInt true buf asnInteger value) (EncodesInt value) := by
  obtain ⟨contents, nonempty, width, value_eq, wrote⟩ :=
    wrote_asnReallocRbuildInt asnInteger inRange.1 inRange.2
  exact (writes_object wrote).mono fun encoding encodes =>
    ⟨contents, nonempty, width, value_eq, encodes⟩

theorem writes_asnReallocRbuildUnsignedInt (type : Byte) {value : Nat}
    (upper : value ≤ uint32Max) :
    Writes (fun buf => asnReallocRbuildUnsignedInt true buf type value)
      (EncodesUnsigned type value) := by
  obtain ⟨contents, nonempty, width, value_eq, wrote⟩ :=
    wrote_asnReallocRbuildUnsignedInt type upper
  exact (writes_object wrote).mono fun encoding encodes =>
    ⟨contents, nonempty, width, value_eq, encodes⟩

theorem halves_combine {high low : Nat} (high_le : high ≤ uint32Max) (low_le : low ≤ uint32Max) :
    Octets.halves ((high * 2 ^ 32 + low : Nat) : Int) = (high, low) := by
  unfold uint32Max at high_le low_le
  unfold Octets.halves
  rw [Prod.mk.injEq]
  omega

theorem writes_counter64 {type : Byte} {high low : Nat} (isCounter64 : IsCounter64 type)
    (high_le : high ≤ uint32Max) (low_le : low ≤ uint32Max) :
    Writes (fun buf => snmpReallocRbuildValue true buf type (.counter64 high low))
      fun encoding => DecodesTo encoding type (.counter64 high low) := by
  have halves := halves_combine high_le low_le
  unfold uint32Max at high_le low_le
  obtain ⟨contents, width, leading, value, wroteSpecial, wrotePlain⟩ :=
    wrote_asnReallocRbuildUnsignedInt64 (show high < 2 ^ 32 by omega) (show low < 2 ^ 32 by omega)
  rw [← value] at halves
  rcases isCounter64 with rfl | rfl | rfl | rfl
  · refine (writes_object fun buf => wrotePlain asnCounter64 buf (by decide)).mono
      fun encoding encodes => ?_
    simpa [halves] using decodesTo_counter64 encodes width leading
  · refine (writes_specialObject width fun buf => wroteSpecial _ buf (.inl rfl)).mono
      fun encoding ⟨encodes, length_eq⟩ => ?_
    simpa [halves] using
      decodesTo_special_unsignedInt64 encodes (.inl rfl) width leading (by omega)
  · refine (writes_specialObject width fun buf => wroteSpecial _ buf (.inr rfl)).mono
      fun encoding ⟨encodes, length_eq⟩ => ?_
    simpa [halves] using
      decodesTo_special_unsignedInt64 encodes (.inr rfl) width leading (by omega)
  · obtain ⟨contents, width, halves, wrote⟩ :=
      wrote_asnReallocRbuildSignedInt64 (show high < 2 ^ 32 by omega) (show low < 2 ^ 32 by omega)
    refine (writes_specialObject (by omega) wrote).mono fun encoding ⟨encodes, length_eq⟩ => ?_
    simpa [halves] using decodesTo_special_signedInt64 encodes (by omega) (by omega) (by omega)

theorem writes_string {type : Byte} {str : List Byte} (isString : IsString type)
    (plain : type = asnOpaque → str.head? ≠ some asnOpaqueTag1)
    (address : type = asnIpaddress → str.length = 4) :
    Writes (fun buf => snmpReallocRbuildValue true buf type (.string str))
      fun encoding => DecodesTo encoding type (.string str) := by
  have switch (buf : RBuf) : snmpReallocRbuildValue true buf type (.string str) =
      asnReallocRbuildString true buf type str := by
    rcases isString with rfl | rfl | rfl | rfl <;> rfl
  simp only [switch]
  exact (writes_object fun buf => wrote_asnReallocRbuildString buf type str).mono
    fun encoding encodes => decodesTo_string isString encodes plain address

theorem writes_null {type : Byte} (isNull : isNullType type = true) (val : Vardata) :
    Writes (fun buf => snmpReallocRbuildValue true buf type val)
      fun encoding => DecodesTo encoding type (.unset 0) := by
  have switch (buf : RBuf) : snmpReallocRbuildValue true buf type val =
      asnReallocRbuildNull true buf type := by
    simp only [isNullType, Bool.or_eq_true, decide_eq_true_eq, or_assoc] at isNull
    rcases isNull with rfl | rfl | rfl | rfl <;> rfl
  simp only [switch]
  exact (writes_object fun buf => wrote_asnReallocRbuildNull buf type).mono
    fun encoding encodes => decodesTo_null isNull encodes

theorem writes_snmpReallocRbuildValue {type : Byte} {val : Vardata}
    (encodable : EncodableValue type val) :
    Writes (fun buf => snmpReallocRbuildValue true buf type val)
      fun encoding => DecodesTo encoding type (if isNullType type then .unset 0 else val) := by
  cases encodable with
  | integer lower upper =>
      exact (writes_asnReallocRbuildInt ⟨lower, upper⟩).mono
        fun encoding ⟨contents, nonempty, width, value_eq, encodes⟩ => by
          subst value_eq
          exact decodesTo_integer encodes nonempty width ⟨lower, upper⟩
  | @unsigned _ value isUnsigned upper =>
      have switch (buf : RBuf) : snmpReallocRbuildValue true buf type (.integer value) =
          asnReallocRbuildUnsignedInt true buf type value := by
        have kept : toSizeT (value : Int) = value :=
          toSizeT_eq_self (by unfold uint32Max at upper; omega)
        have same : snmpReallocRbuildValue true buf type (.integer value) =
            asnReallocRbuildUnsignedInt true buf type (toSizeT value) := by
          rcases isUnsigned with rfl | rfl | rfl | rfl <;> rfl
        rw [same, kept]
      have other : isNullType type = false := by
        rcases isUnsigned with rfl | rfl | rfl | rfl <;> rfl
      simp only [switch, other]
      exact (writes_asnReallocRbuildUnsignedInt type upper).mono
        fun encoding ⟨contents, nonempty, width, value_eq, encodes⟩ => by
          subst value_eq
          exact decodesTo_unsigned isUnsigned encodes nonempty width upper
  | counter64 isCounter64 high_le low_le =>
      have other : isNullType type = false := by
        rcases isCounter64 with rfl | rfl | rfl | rfl <;> rfl
      simpa [other] using writes_counter64 isCounter64 high_le low_le
  | string isString =>
      rcases isString with rfl | rfl
      · exact writes_string (.inl rfl) (fun isOpaque => absurd isOpaque (by decide))
          (fun isAddress => absurd isAddress (by decide))
      · exact writes_string (.inr (.inr (.inr rfl))) (fun isOpaque => absurd isOpaque (by decide))
          (fun isAddress => absurd isAddress (by decide))
  | ipaddress length_eq =>
      exact writes_string (.inr (.inl rfl)) (fun isOpaque => absurd isOpaque (by decide))
        fun _ => length_eq
  | opaqueString head =>
      exact writes_string (.inr (.inr (.inl rfl))) (fun _ => head)
        (fun isAddress => absurd isAddress (by decide))
  | objid encodable =>
      exact (writes_object (wrote_asnReallocRbuildObjid asnObjectId encodable)).mono
        fun encoding encodes => decodesTo_objid encodable encodes
  | null isNull => simpa [isNull] using writes_null isNull val
  | bitstring nonempty =>
      exact (writes_object fun buf => wrote_asnReallocRbuildString buf asnBitStr _).mono
        fun encoding encodes => decodesTo_bitstring encodes nonempty
  | @floatVal bits small =>
      refine (writes_specialObject (show (octetsOf 4 bits).length ≤ 9 by simp [length_octetsOf])
        fun buf => wrote_rbuildOpaqueBits buf asnOpaqueFloat 4 bits).mono
        fun encoding ⟨encodes, length_eq⟩ => ?_
      have decodes := decodesTo_float encodes (length_octetsOf 4 bits)
        (by rw [length_eq, length_octetsOf])
      rwa [beNat_octetsOf 4 (by omega)] at decodes
  | @doubleVal bits small =>
      refine (writes_specialObject (show (octetsOf 8 bits).length ≤ 9 by simp [length_octetsOf])
        fun buf => wrote_rbuildOpaqueBits buf asnOpaqueDouble 8 bits).mono
        fun encoding ⟨encodes, length_eq⟩ => ?_
      have decodes := decodesTo_double encodes (length_octetsOf 8 bits)
        (by rw [length_eq, length_octetsOf])
      rwa [beNat_octetsOf 8 (by omega)] at decodes

end Values

theorem writes_snmpReallocRbuildVarOp {var : VariableList} (encodable : var.Encodable) :
    Writes (fun buf => snmpReallocRbuildVarOp true buf var) (EncodesVarbind var.received) := by
  obtain ⟨value, decodes, wroteValue⟩ := writes_snmpReallocRbuildValue encodable.2
  obtain ⟨name, name_eq⟩ : ∃ name, name = object asnObjectId (oidContents var.name) := ⟨_, rfl⟩
  have received_eq : var.received =
      ⟨var.name, var.type, if isNullType var.type then .unset 0 else var.val⟩ := by
    unfold VariableList.received
    split <;> rfl
  refine ⟨object asnSequence (name ++ value), fun small => ?_, fun buf => ?_⟩
  · have le := length_object_ge asnSequence (name ++ value)
    have nameLe := length_object_ge asnObjectId (oidContents var.name)
    rw [List.length_append] at le
    rw [← name_eq] at nameLe
    have encodesName : Encodes asnObjectId (oidContents var.name) name := by
      rw [name_eq]
      exact encodes_object (by omega)
    rw [received_eq]
    refine ⟨name, value, encodable.1, encodesName, decodes (by omega), encodes_object ?_⟩
    rw [List.length_append]
    omega
  · have named := (wroteValue buf).bind fun buf' _ =>
      wrote_asnReallocRbuildObjid asnObjectId encodable.1 buf'
    rw [← name_eq] at named
    have sequence := named.header asnSequence (fun buf' => buf'.offset - buf.offset)
      fun buf' => Wrote.offset
    simpa [snmpReallocRbuildVarOp, asnReallocRbuildSequence, Option.bind_assoc] using sequence

def rbuildReversed (vars : List VariableList) (buf : RBuf) : Option RBuf :=
  vars.reverse.foldlM (snmpReallocRbuildVarOp true) buf

theorem writes_rbuildReversed {vars : List VariableList}
    (encodable : ∀ var ∈ vars, var.Encodable) :
    Writes (rbuildReversed vars) fun encoding => ∃ encodings, encoding = encodings.flatten ∧
      List.Forall₂ EncodesVarbind (vars.map VariableList.received) encodings := by
  induction vars with
  | nil => exact ⟨[], fun _ => ⟨[], rfl, .nil⟩, fun buf => .done⟩
  | cons var vars ih =>
      obtain ⟨first, encodesFirst, wroteFirst⟩ :=
        writes_snmpReallocRbuildVarOp (encodable var (by simp))
      obtain ⟨others, encodesOthers, wroteOthers⟩ :=
        ih fun other mem => encodable other (by simp [mem])
      refine ⟨first ++ others, fun small => ?_, fun buf => ?_⟩
      · rw [List.length_append] at small
        obtain ⟨encodings, rfl, encodes⟩ := encodesOthers (by omega)
        exact ⟨first :: encodings, rfl, .cons (encodesFirst (by omega)) encodes⟩
      · have wrote := (wroteOthers buf).bind fun buf' _ => wroteFirst buf'
        have same : rbuildReversed (var :: vars) buf =
            rbuildReversed vars buf >>= fun buf' => snmpReallocRbuildVarOp true buf' var := by
          simp [rbuildReversed, List.foldlM_append]
        rwa [same]

end NetSnmp
