import NetSnmp.Asn.Decode

/-!
# Decoding 64-bit numbers and the special `Opaque` values

A 64-bit number is read as two 32-bit halves.  The special values are objects
inside the contents of an `Opaque`; the remaining size that their decoders
report is of no use to anyone, so it is left open here.
-/

namespace NetSnmp

open Reader Ber

/-- A special value: an object with tag octets `ASN_OPAQUE_TAG1` and `special` as the
contents of an `Opaque`. -/
def EncodesSpecial (special : Byte) (inner encoding : List Byte) : Prop :=
  ∃ field field', LengthField field (field'.length + inner.length + 2) ∧
    LengthField field' inner.length ∧
    encoding = asnOpaque :: (field ++ (asnOpaqueTag1 :: special :: (field' ++ inner)))

theorem foldl_shiftCounter64 (octets : List Byte) {high low : Nat} (high_lt : high < 2 ^ 32)
    (low_lt : low < 2 ^ 32) :
    octets.foldl shiftCounter64 (high, low) =
      Octets.halves (((high * 2 ^ 32 + low) * 256 ^ octets.length + Octets.beNat
        octets : Nat)) := by
  induction octets generalizing high low with
  | nil =>
      simp only [List.foldl_nil, List.length_nil, pow_zero, Octets.beNat_nil, Octets.halves,
        Prod.mk.injEq]
      constructor <;> omega
  | cons octet octets ih =>
      have octet_lt := octet.toNat_lt
      rw [List.foldl_cons, shiftCounter64, ih (by omega) (by omega)]
      have step : (high % 2 ^ 24 * 2 ^ 8 + low % 2 ^ 32 / 2 ^ 24) * 2 ^ 32 +
          (low % 2 ^ 24 * 2 ^ 8 + octet.toNat) =
          ((high * 2 ^ 32 + low) * 256 + octet.toNat) % 2 ^ 64 := by omega
      have shape : (high * 2 ^ 32 + low) * 256 ^ (octet :: octets).length +
          Octets.beNat (octet :: octets) =
          ((high * 2 ^ 32 + low) * 256 + octet.toNat) * 256 ^ octets.length +
            Octets.beNat octets := by
        rw [Octets.beNat_cons, List.length_cons, pow_succ]
        ring
      have same (value : Nat) : (value % 2 ^ 64 * 256 ^ octets.length + Octets.beNat octets) %
          2 ^ 64 = (value * 256 ^ octets.length + Octets.beNat octets) % 2 ^ 64 := by
        rw [Nat.add_mod, Nat.mod_mul_mod, ← Nat.add_mod]
      rw [step, shape]
      unfold Octets.halves
      have cast (value : Nat) : ((value : Int) % 2 ^ 64).toNat = value % 2 ^ 64 := by omega
      rw [cast, cast, same]

theorem checkOverflowU_halves (value : Int) :
    (checkOverflowU (Octets.halves value).1, checkOverflowU (Octets.halves value).2) =
      Octets.halves value := by
  have high : (Octets.halves value).1 ≤ uint32Max := by
    simp only [Octets.halves, uint32Max]
    omega
  have low : (Octets.halves value).2 ≤ uint32Max := by
    simp only [Octets.halves, uint32Max]
    omega
  rw [checkOverflowU_eq_self high, checkOverflowU_eq_self low]

theorem foldl_shiftCounter64_unsigned (octets : List Byte) :
    octets.foldl shiftCounter64 (0, 0) = Octets.halves (Octets.beNat octets) := by
  rw [foldl_shiftCounter64 octets (by norm_num) (by norm_num)]
  simp

theorem foldl_shiftCounter64_negative {octet : Byte} (octets : List Byte)
    (negative : Octets.topBit octet = true) :
    (octet :: octets).foldl shiftCounter64 (0xFFFFFF, 0xFFFFFFFF) =
      Octets.halves (Octets.beInt (octet :: octets)) := by
  rw [foldl_shiftCounter64 (octet :: octets) (by norm_num) (by norm_num)]
  simp only [Octets.beInt, negative, if_true, List.length_cons]
  have scale : ((0xFFFFFF * 2 ^ 32 + 0xFFFFFFFF : Nat) * 256 ^ (octets.length + 1) : Int) =
      256 ^ octets.length * 2 ^ 64 - 256 ^ (octets.length + 1) := by
    rw [pow_succ]
    push_cast
    ring
  have same : (((0xFFFFFF * 2 ^ 32 + 0xFFFFFFFF) * 256 ^ (octets.length + 1) +
      Octets.beNat (octet :: octets) : Nat) : Int) % 2 ^ 64 =
      ((Octets.beNat (octet :: octets) : Int) - 256 ^ (octets.length + 1)) % 2 ^ 64 := by
    rw [Nat.cast_add, Nat.cast_mul, Nat.cast_pow, Nat.cast_ofNat, scale]
    rw [show (256 : Int) ^ octets.length * 2 ^ 64 - 256 ^ (octets.length + 1) +
        (Octets.beNat (octet :: octets) : Int) =
        (Octets.beNat (octet :: octets) : Int) - 256 ^ (octets.length + 1) +
          2 ^ 64 * 256 ^ octets.length by ring]
    exact Int.add_mul_emod_self_left _ _ _
  unfold Octets.halves
  rw [same]

section Objects

variable {contents inner encoding : List Byte} (rest : List Byte) (datalength : Nat)

theorem outcome_startCounter64 (contents rest : List Byte) (signed : Bool) :
    ∃ start, (startCounter64 signed contents.length (contents ++ rest)).outcome = .ok start ∧
      contents.foldl shiftCounter64 start =
        Octets.halves (if signed then Octets.beInt contents else Octets.beNat contents) := by
  have unsigned := foldl_shiftCounter64_unsigned contents
  cases signed with
  | false => exact ⟨(0, 0), by simp [startCounter64], by simpa using unsigned⟩
  | true =>
      match contents with
      | [] => exact ⟨(0, 0), by simp [startCounter64], by simp [Octets.beInt, Octets.halves]⟩
      | octet :: octets =>
          by_cases negative : Octets.topBit octet = true
          · refine ⟨(0xFFFFFF, 0xFFFFFFFF), by simp [startCounter64, hasBit8_eq, negative], ?_⟩
            simpa using foldl_shiftCounter64_negative octets negative
          · refine ⟨(0, 0), by simp [startCounter64, hasBit8_eq, negative], ?_⟩
            simpa [Octets.beInt, negative] using unsigned

theorem outcome_asnParseInt64Octets (signed : Bool) (data : Ptr) (type : Byte)
    (width : contents.length ≤ 9)
    (leading : contents.length = 9 → contents.head? = some 0) :
    (asnParseInt64Octets signed data
        ⟨contents ++ rest, datalength, type, contents.length⟩).outcome =
      .ok ⟨rest, lengthAfter datalength contents.length data (contents ++ rest), type,
        Octets.halves (if signed then Octets.beInt contents else Octets.beNat contents)⟩ := by
  have sized := toCInt_eq_self (show contents.length < 2 ^ 31 by omega)
  have zero := outcome_failUnlessLeadingZero (toCInt contents.length = 9) contents rest
    (fun nine => leading (by omega))
  obtain ⟨start, started, value⟩ := outcome_startCounter64 contents rest signed
  have notTooLong : ¬ 9 < toCInt contents.length := by omega
  simp [asnParseInt64Octets, notTooLong, zero, started, outcome_readBytes_append, value,
    checkOverflowU_halves]

theorem outcome_asnParseOpaqueTag {special : Byte} {field' : List Byte} (isTag : Byte → Bool)
    {asnLength : Nat} (lengthField : LengthField field' inner.length)
      (isTag_eq : isTag special = true)
    (asnLength_eq : asnLength = field'.length + inner.length + 2) (short : asnLength < 2 ^ 31) :
    (asnParseOpaqueTag true isTag asnOpaque
        (asnOpaqueTag1 :: special :: (field' ++ (inner ++ rest))) datalength asnLength).outcome =
      .ok ⟨inner ++ rest, asnLength, special, inner.length⟩ := by
  have header := outcome_asnParseNlength (inner ++ rest) lengthField
    (toSizeT ((asnLength : Int) - 2))
  have window : toSizeT ((asnLength : Int) - 2) = field'.length + inner.length := by
    unfold toSizeT
    omega
  rw [window, if_pos (Nat.le_refl _), ← window] at header
  simp [asnParseOpaqueTag, header, isTag_eq]

theorem outcome_asnParseUnsignedInt64 (encodes : Encodes asnCounter64 contents encoding)
    (width : contents.length ≤ 9)
    (leading : contents.length = 9 → contents.head? = some 0)
    (fits : encoding.length ≤ datalength) :
    ∃ left, (asnParseUnsignedInt64 (encoding ++ rest) datalength).outcome =
      .ok ⟨rest, left, asnCounter64, Octets.halves (Octets.beNat contents)⟩ := by
  rcases encodes with ⟨field, lengthField, rfl⟩
  have header := outcome_asnParseNlength (contents ++ rest) lengthField (datalength - 1)
  have fieldPos := lengthField.length_pos
  simp only [List.length_cons, List.length_append] at fits
  rw [if_pos (by omega)] at header
  have octets := outcome_asnParseInt64Octets rest datalength false
    (asnCounter64 :: (field ++ (contents ++ rest))) asnCounter64 width leading
  refine ⟨lengthAfter datalength contents.length
    (asnCounter64 :: (field ++ (contents ++ rest))) (contents ++ rest), ?_⟩
  have other : asnCounter64 ≠ asnOpaque := by decide
  simp only [asnParseUnsignedInt64, asnParseOpaqueTag, outcome_within]
  simp [header, octets, other, show ¬ datalength < 2 by omega]

section Special

variable {special : Byte}

theorem outcome_asnParseUnsignedInt64_special (encodes : EncodesSpecial special inner encoding)
    (isSpecial : special = asnOpaqueCounter64 ∨ special = asnOpaqueU64)
    (width : inner.length ≤ 9) (leading : inner.length = 9 → inner.head? = some 0)
    (short : encoding.length ≤ 14) (fits : encoding.length ≤ datalength) :
    ∃ left, (asnParseUnsignedInt64 (encoding ++ rest) datalength).outcome =
      .ok ⟨rest, left, special, Octets.halves (Octets.beNat inner)⟩ := by
  rcases encodes with ⟨field, field', lengthField, lengthField', rfl⟩
  have header := outcome_asnParseNlength
    (asnOpaqueTag1 :: special :: (field' ++ (inner ++ rest))) lengthField (datalength - 1)
  have fieldPos := lengthField.length_pos
  simp only [List.length_cons, List.length_append] at fits short
  rw [if_pos (by omega)] at header
  have tag := outcome_asnParseOpaqueTag rest datalength
    (fun tag => tag = asnOpaqueCounter64 || tag = asnOpaqueU64) lengthField'
    (by simpa using isSpecial) rfl (by omega)
  have octets := outcome_asnParseInt64Octets rest (field'.length + inner.length + 2) false
    (asnOpaque :: (field ++ (asnOpaqueTag1 :: special :: (field' ++ (inner ++ rest))))) special
    width leading
  have fitsLength : field'.length + inner.length + 2 ≤ asnOpaqueCounter64MxBerLen := by
    unfold asnOpaqueCounter64MxBerLen
    omega
  refine ⟨lengthAfter (field'.length + inner.length + 2) inner.length
    (asnOpaque :: (field ++ (asnOpaqueTag1 :: special :: (field' ++ (inner ++ rest)))))
    (inner ++ rest), ?_⟩
  simp only [asnParseUnsignedInt64, outcome_within]
  simp [header, tag, octets, fitsLength, show ¬ datalength < 2 by omega]

theorem outcome_asnParseSignedInt64 (encodes : EncodesSpecial asnOpaqueI64 inner encoding)
    (width : inner.length ≤ 9) (leading : inner.length = 9 → inner.head? = some 0)
    (short : encoding.length ≤ 14) (fits : encoding.length ≤ datalength) :
    ∃ left, (asnParseSignedInt64 (encoding ++ rest) datalength).outcome =
      .ok ⟨rest, left, asnOpaqueI64, Octets.halves (Octets.beInt inner)⟩ := by
  rcases encodes with ⟨field, field', lengthField, lengthField', rfl⟩
  have header := outcome_asnParseNlength
    (asnOpaqueTag1 :: asnOpaqueI64 :: (field' ++ (inner ++ rest))) lengthField (datalength - 1)
  have header' := outcome_asnParseNlength (inner ++ rest) lengthField'
    (field'.length + inner.length)
  have window : toSizeT ((field'.length : Int) + inner.length) = field'.length + inner.length := by
    simp only [List.length_cons, List.length_append] at short
    unfold toSizeT
    omega
  have fieldPos := lengthField.length_pos
  simp only [List.length_cons, List.length_append] at fits short
  rw [if_pos (by omega)] at header
  rw [if_pos (Nat.le_refl _)] at header'
  have octets := outcome_asnParseInt64Octets rest (field'.length + inner.length + 2) true
    (asnOpaque :: (field ++ (asnOpaqueTag1 :: asnOpaqueI64 :: (field' ++ (inner ++ rest)))))
    asnOpaqueI64 width leading
  have fitsLength : field'.length + inner.length + 2 ≤ asnOpaqueCounter64MxBerLen := by
    unfold asnOpaqueCounter64MxBerLen
    omega
  refine ⟨lengthAfter (field'.length + inner.length + 2) inner.length
    (asnOpaque :: (field ++ (asnOpaqueTag1 :: asnOpaqueI64 :: (field' ++ (inner ++ rest)))))
    (inner ++ rest), ?_⟩
  simp only [asnParseSignedInt64, outcome_within]
  simp [header, header', window, octets, fitsLength, show ¬ datalength < 2 by omega]

theorem outcome_asnParseOpaqueBits (berLen minimum : Nat) {size : Nat}
    (encodes : EncodesSpecial special inner encoding) (size_eq : inner.length = size)
    (minimum_le : minimum ≤ berLen) (berLen_small : berLen < 2 ^ 31)
    (encoding_eq : encoding.length = berLen + 2) (berLen_eq : berLen = size + 3)
    (fits : encoding.length ≤ datalength) :
    ∃ next left, (asnParseOpaqueBits special berLen size minimum (encoding ++ rest)
        datalength).outcome = .ok ⟨next, left, special, Octets.beNat inner⟩ := by
  rcases encodes with ⟨field, field', lengthField, lengthField', rfl⟩
  have header := outcome_asnParseNlength
    (asnOpaqueTag1 :: special :: (field' ++ (inner ++ rest))) lengthField (datalength - 1)
  have fieldPos := lengthField.length_pos
  have fieldPos' := lengthField'.length_pos
  simp only [List.length_cons, List.length_append] at fits encoding_eq
  rw [if_pos (by omega)] at header
  have tag := outcome_asnParseOpaqueTag rest datalength
    (fun tag => tag = special) lengthField' (decide_eq_true rfl) rfl (by omega)
  have total : field'.length + inner.length + 2 = berLen := by omega
  rw [total] at header tag
  refine ⟨inner ++ rest, lengthAfter berLen inner.length
    (asnOpaque :: (field ++ (asnOpaqueTag1 :: special :: (field' ++ (inner ++ rest)))))
    (inner ++ rest), ?_⟩
  simp only [asnParseOpaqueBits, outcome_within]
  simp [header, tag, show ¬ datalength < 2 by omega, show ¬ berLen < minimum by omega,
    ← size_eq, outcome_readBytes_append]

end Special

end Objects

end NetSnmp
