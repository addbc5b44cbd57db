import NetSnmp.Asn.Ber
import NetSnmp.Asn.Parse

/-!
# What the decoders make of a well-formed encoding

For each `asn_parse_*` routine, its outcome on an encoding followed by anything,
whatever size it is told: the value behind the encoding when the size covers the
encoding, and an error otherwise.
-/

namespace NetSnmp

open Reader Ber

theorem hasBit8_eq (octet : Byte) : hasBit8 octet = Octets.topBit octet := by
  revert octet
  exact Octets.forall_octet (by decide +kernel)

theorem toNat_and_127 (octet : Byte) : octet.toNat &&& 127 = octet.toNat % 128 :=
  Nat.and_two_pow_sub_one_eq_mod octet.toNat 7

@[simp]
theorem outcome_assignLength (given left : Nat) : (assignLength given left).outcome = .ok left := by
  simp [assignLength]

@[simp]
theorem outcome_ite {α : Type} (condition : Prop) [Decidable condition] (yes no : Reader α) :
    (if condition then yes else no).outcome = if condition then yes.outcome else no.outcome := by
  split <;> rfl

theorem outcome_failUnlessLeadingZero (greatest : Prop) [Decidable greatest]
    (contents rest : List Byte) (leading : greatest → contents.head? = some 0) :
    (failUnlessLeadingZero greatest (contents ++ rest)).outcome = .ok () := by
  unfold failUnlessLeadingZero
  by_cases holds : greatest
  · have head := leading holds
    match contents, head with
    | octet :: octets, head =>
        obtain rfl : octet = 0 := by simpa using head
        simp [holds]
  · simp [holds]

section Length

variable {field : List Byte} {length : Nat} (rest : List Byte)

theorem hasBit8_of_count {count : Byte} {octets : List Byte}
    (count_eq : count.toNat = 128 + octets.length) : hasBit8 count = true := by
  rw [hasBit8_eq]
  simp only [Octets.topBit, decide_eq_true_eq]
  omega

theorem and_127_of_count {count : Byte} {octets : List Byte}
    (count_eq : count.toNat = 128 + octets.length) (width : octets.length ≤ 8) :
    count.toNat &&& 127 = octets.length := by
  rw [toNat_and_127]
  omega

theorem outcome_asnParseLength_long {count : Byte} {octets : List Byte}
    (count_eq : count.toNat = 128 + octets.length) (nonempty : octets ≠ [])
    (width : octets.length ≤ 8) (positive : Octets.beNat octets < 2 ^ 63) :
    (asnParseLength (count :: (octets ++ rest))).outcome = .ok (rest, Octets.beNat octets) := by
  have low := and_127_of_count count_eq width
  have lowPos : count &&& 127 ≠ 0 := by
    intro zero
    have zeroLength : octets.length = 0 := by
      rw [← low]
      simpa using congrArg UInt8.toNat zero
    exact nonempty (List.length_eq_zero_iff.mp zeroLength)
  have nonneg : ¬ toCLong (Octets.beNat octets) < 0 := by
    unfold toCLong signedOfBits
    split <;> omega
  have fits : ¬ sizeofLong < octets.length := by
    unfold sizeofLong
    omega
  simp [asnParseLength, hasBit8_of_count count_eq, lowPos, low, fits, outcome_readBytes_append,
    Octets.foldl_shift, nonneg, Nat.add_comm 1]

theorem outcome_asnParseNlength (encodes : LengthField field length) (pktLen : Nat) :
    (asnParseNlength (field ++ rest) pktLen).outcome =
      if field.length + length ≤ pktLen then .ok (rest, length) else .null := by
  cases encodes with
  | short octet small =>
      have top : hasBit8 octet = false := by
        rw [hasBit8_eq]
        simpa [Octets.topBit] using small
      by_cases fits : octet.toNat + 1 ≤ pktLen
      · simp [asnParseNlength, top, show pktLen ≠ 0 by omega,
          show ¬ pktLen ≤ octet.toNat by omega, show 1 + octet.toNat ≤ pktLen by omega]
      · by_cases empty : pktLen = 0
        · simp [asnParseNlength, empty]
        · simp [asnParseNlength, top, empty, show pktLen ≤ octet.toNat by omega,
            show ¬ 1 + octet.toNat ≤ pktLen by omega]
  | @long count octets count_eq nonempty width positive =>
      have top := hasBit8_of_count count_eq
      have low := and_127_of_count count_eq width
      have inner := outcome_asnParseLength_long rest count_eq nonempty width positive
      by_cases headed : pktLen ≤ octets.length
      · by_cases empty : pktLen = 0
        · simp [asnParseNlength, empty]
        · simp [asnParseNlength, top, low, empty, headed,
            show ¬ octets.length + 1 + Octets.beNat octets ≤ pktLen by omega]
      · by_cases fits : octets.length + 1 + Octets.beNat octets ≤ pktLen
        · simp [asnParseNlength, top, low, inner, headed, fits, show pktLen ≠ 0 by omega,
            show ¬ pktLen < Octets.beNat octets + (octets.length + 1) by omega]
        · simp [asnParseNlength, top, low, inner, headed, fits, show pktLen ≠ 0 by omega,
            show pktLen < Octets.beNat octets + (octets.length + 1) by omega]

end Length

section Objects

variable {tag : Byte} {field contents encoding : List Byte} (rest : List Byte) (datalength : Nat)

theorem lengthAfter_eq (tag : Byte) (fits : field.length + contents.length + 1 ≤ datalength)
    (small : datalength < 2 ^ 64) (short : contents.length < 2 ^ 31) :
    lengthAfter datalength contents.length (tag :: (field ++ (contents ++ rest)))
        (contents ++ rest) =
      datalength - (field.length + contents.length + 1) := by
  unfold lengthAfter
  rw [toCInt_eq_self short]
  simp only [List.length_cons, List.length_append]
  unfold toSizeT
  omega

theorem outcome_deref_append {first : Byte} {octets : List Byte}
    (contents_eq : contents = first :: octets) :
    (deref (contents ++ rest)).outcome = .ok first := by
  rw [contents_eq]
  rfl

theorem outcome_asnParseInt (encodes : Encodes asnInteger contents encoding)
    (nonempty : contents ≠ []) (width : contents.length ≤ 8) (small : datalength < 2 ^ 64) :
    (asnParseInt (encoding ++ rest) datalength).outcome =
      if encoding.length ≤ datalength then
        .ok ⟨rest, datalength - encoding.length, asnInteger,
          checkOverflowS (Octets.beInt contents)⟩
      else .null := by
  rcases encodes with ⟨field, lengthField, rfl⟩
  have header := outcome_asnParseNlength (contents ++ rest) lengthField (datalength - 1)
  have pos := List.length_pos_iff.mpr nonempty
  have fieldPos := lengthField.length_pos
  by_cases fits : field.length + contents.length + 1 ≤ datalength
  · have after := lengthAfter_eq rest datalength asnInteger fits small (by omega)
    obtain ⟨first, octets, contents_eq⟩ := List.exists_cons_of_ne_nil nonempty
    have value : toCLong (Octets.beNat (List.replicate (8 - contents.length)
        (if hasBit8 first then 0xff else 0) ++ contents)) = Octets.beInt contents := by
      subst contents_eq
      rw [hasBit8_eq]
      exact Octets.toCLong_signExtend (Nat.lt_of_succ_le width)
    have sized : toCInt contents.length ≠ 0 := by
      rw [toCInt_eq_self (by omega)]
      omega
    rw [if_pos (by omega)] at header
    simp [asnParseInt, header, after, outcome_deref_append rest contents_eq,
      outcome_readBytes_append, sizeofLong, value, fits, sized,
      show ¬ 8 < contents.length by omega, show ¬ datalength < 2 by omega]
  · rw [if_neg (by omega)] at header
    by_cases short : datalength < 2 <;> simp [asnParseInt, header, fits, short]

/-- The types that `asn_parse_unsigned_int` accepts. -/
def IsUnsigned (type : Byte) : Prop :=
  type = asnCounter ∨ type = asnGauge ∨ type = asnTimeticks ∨ type = asnUinteger

theorem outcome_asnParseUnsignedInt (encodes : Encodes tag contents encoding)
    (isUnsigned : IsUnsigned tag) (nonempty : contents ≠ []) (width : contents.length ≤ 8)
    (small : datalength < 2 ^ 64) :
    (asnParseUnsignedInt (encoding ++ rest) datalength).outcome =
      if encoding.length ≤ datalength then
        .ok ⟨rest, datalength - encoding.length, tag, checkOverflowU (Octets.beNat contents)⟩
      else .null := by
  rcases encodes with ⟨field, lengthField, rfl⟩
  have header := outcome_asnParseNlength (contents ++ rest) lengthField (datalength - 1)
  have pos := List.length_pos_iff.mpr nonempty
  have fieldPos := lengthField.length_pos
  have accepted : ¬ (tag ≠ asnCounter ∧ tag ≠ asnGauge ∧ tag ≠ asnTimeticks ∧
      tag ≠ asnUinteger) := by
    rcases isUnsigned with rfl | rfl | rfl | rfl <;> decide
  by_cases fits : field.length + contents.length + 1 ≤ datalength
  · have after := lengthAfter_eq rest datalength tag fits small (by omega)
    have value : contents.foldl (fun value octet => (value * 256 + octet.toNat) % 2 ^ 64) 0 =
        Octets.beNat contents := by
      have bound := Octets.beNat_lt contents
      have scale : 256 ^ contents.length ≤ 256 ^ 8 := Nat.pow_le_pow_right (by omega) width
      rw [Octets.foldl_shift_mod contents (by norm_num), Nat.zero_mul, Nat.zero_add,
        Nat.mod_eq_of_lt (by omega)]
    have sized : toCInt contents.length ≠ 0 := by
      rw [toCInt_eq_self (by omega)]
      omega
    have zero := outcome_failUnlessLeadingZero (contents.length = sizeofLong + 1) contents rest
      (by unfold sizeofLong; omega)
    have limit : ¬ sizeofLong + 1 < contents.length := by
      unfold sizeofLong
      omega
    rw [if_pos (by omega)] at header
    simp only [Nat.reducePow] at value
    simp [asnParseUnsignedInt, header, after, accepted, outcome_readBytes_append, zero, limit,
      value, fits, sized,
      show ¬ datalength < 2 by omega, -not_and, -ne_eq]
  · rw [if_neg (by omega)] at header
    by_cases short : datalength < 2 <;>
      simp [asnParseUnsignedInt, header, fits, short, accepted, -not_and, -ne_eq]

theorem toSizeT_toCInt {length : Nat} (short : length < 2 ^ 31) :
    toSizeT (toCInt length) = length := by
  rw [toCInt_eq_self short, toSizeT_eq_self (by omega)]

theorem outcome_asnParseHeader {length : Nat} (body : List Byte)
    (lengthField : LengthField field length) (short : length < 2 ^ 31)
    (simple : isExtensionId tag = false)
    (plain : 2 < length → tag = asnOpaque → ∃ first more, body = first :: more ∧
      first ≠ asnOpaqueTag1) :
    (asnParseHeader (tag :: (field ++ body)) datalength).outcome =
      if field.length + length + 1 ≤ datalength then .ok ⟨body, length, tag, ()⟩ else .null := by
  have header := outcome_asnParseNlength body lengthField (datalength - 1)
  have fieldPos := lengthField.length_pos
  by_cases fits : field.length + length + 1 ≤ datalength
  · rw [if_pos (by omega)] at header
    have sized := toSizeT_toCInt short
    by_cases wrapper : 2 < length ∧ tag = asnOpaque
    · obtain ⟨first, more, rfl, notTag⟩ := plain wrapper.1 wrapper.2
      rcases wrapper with ⟨long, rfl⟩
      simp [asnParseHeader, header, fits, simple, sized, long, notTag,
        show ¬ datalength < 2 by omega]
    · simp [asnParseHeader, header, fits, simple, sized, wrapper,
        show ¬ datalength < 2 by omega, -not_and]
  · rw [if_neg (by omega)] at header
    by_cases short : datalength < 2 <;> simp [asnParseHeader, header, fits, short, simple]

theorem outcome_asnParseHeader_special {special : Byte} {field' inner : List Byte}
    (lengthField : LengthField field (field'.length + inner.length + 2))
    (lengthField' : LengthField field' inner.length)
    (isSpecial : isOpaqueSpecial special = true)
    (fits : field.length + (field'.length + inner.length + 2) + 1 ≤ datalength)
    (small : datalength < 2 ^ 31) :
    (asnParseHeader (asnOpaque :: (field ++ (asnOpaqueTag1 :: special ::
      (field' ++ (inner ++ rest))))) datalength).outcome =
      .ok ⟨inner ++ rest, inner.length, special, ()⟩ := by
  have header := outcome_asnParseNlength
    (asnOpaqueTag1 :: special :: (field' ++ (inner ++ rest))) lengthField (datalength - 1)
  have header' := outcome_asnParseNlength (inner ++ rest) lengthField'
    (field'.length + inner.length)
  have fieldPos := lengthField'.length_pos
  rw [if_pos (by omega)] at header
  rw [if_pos (Nat.le_refl _)] at header'
  have sized := toSizeT_toCInt (show field'.length + inner.length + 2 < 2 ^ 31 by omega)
  have sized' := toSizeT_toCInt (show inner.length < 2 ^ 31 by omega)
  have window : toSizeT ((field'.length : Int) + inner.length) = field'.length + inner.length := by
    unfold toSizeT
    omega
  have simple : isExtensionId asnOpaque = false := by decide
  simp only [Nat.cast_add, Nat.cast_ofNat] at sized
  simp [asnParseHeader, header, header', simple, sized, sized', window, isSpecial,
    show ¬ datalength < 2 by omega, show 0 < field'.length + inner.length by omega]

/-- The types that `asn_parse_string` accepts. -/
def IsString (type : Byte) : Prop :=
  type = asnOctetStr ∨ type = asnIpaddress ∨ type = asnOpaque ∨ type = asnNsap

theorem outcome_asnParseString {strlength : Nat} (encodes : Encodes tag contents encoding)
    (isString : IsString tag) (room : contents.length ≤ strlength)
    (small : datalength < 2 ^ 64) :
    (asnParseString (encoding ++ rest) datalength strlength).outcome =
      if encoding.length ≤ datalength then
        .ok ⟨rest, datalength - encoding.length, tag, contents⟩
      else .null := by
  rcases encodes with ⟨field, lengthField, rfl⟩
  have header := outcome_asnParseNlength (contents ++ rest) lengthField (datalength - 1)
  have fieldPos := lengthField.length_pos
  have accepted : ¬ (tag ≠ asnOctetStr ∧ tag ≠ asnIpaddress ∧ tag ≠ asnOpaque ∧
      tag ≠ asnNsap) := by
    rcases isString with rfl | rfl | rfl | rfl <;> decide
  by_cases fits : field.length + contents.length + 1 ≤ datalength
  · have after : toSizeT ((datalength : Int) - (contents.length +
        (((tag :: (field ++ (contents ++ rest))).length : Int) - (contents ++ rest).length))) =
        datalength - (field.length + contents.length + 1) := by
      simp only [List.length_cons, List.length_append]
      unfold toSizeT
      omega
    rw [if_pos (by omega)] at header
    simp only [List.length_cons, List.length_append, Nat.cast_add, Nat.cast_one] at after
    simp [asnParseString, header, after, accepted, outcome_readBytes_append, fits,
      show ¬ strlength < contents.length by omega, show ¬ datalength < 2 by omega, -not_and, -ne_eq]
  · rw [if_neg (by omega)] at header
    by_cases short : datalength < 2 <;>
      simp [asnParseString, header, fits, short, accepted, -not_and, -ne_eq]

theorem outcome_asnParseBitstring {strlength : Nat} (encodes : Encodes asnBitStr contents encoding)
    (nonempty : contents ≠ []) (room : contents.length ≤ strlength)
    (fits : encoding.length ≤ datalength) (small : datalength < 2 ^ 31) :
    (asnParseBitstring (encoding ++ rest) datalength strlength).outcome =
      .ok ⟨rest, datalength - encoding.length, asnBitStr, contents⟩ := by
  rcases encodes with ⟨field, lengthField, rfl⟩
  have header := outcome_asnParseNlength (contents ++ rest) lengthField (datalength - 1)
  have pos := List.length_pos_iff.mpr nonempty
  have fieldPos := lengthField.length_pos
  simp only [List.length_cons, List.length_append] at fits
  have after := lengthAfter_eq rest datalength asnBitStr fits (by omega) (by omega)
  obtain ⟨first, octets, contents_eq⟩ := List.exists_cons_of_ne_nil nonempty
  rw [if_pos (by omega)] at header
  simp [asnParseBitstring, header, after, outcome_deref_append rest contents_eq,
    outcome_readBytes_append, nonempty, show ¬ strlength < contents.length by omega,
    show ¬ datalength < 2 by omega]

end Objects

end NetSnmp
