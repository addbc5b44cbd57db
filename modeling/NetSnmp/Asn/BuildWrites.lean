import NetSnmp.Asn.Build
import NetSnmp.Asn.ReverseOpaque

/-!
# What the forward encoders write

An encoder appends bytes that do not depend on the buffer, or fails when they
do not fit.
-/

namespace NetSnmp

open Ber

namespace WBuf

theorem append_append (buf : WBuf) (front back : List Byte) :
    (buf.append front >>= fun buf' => buf'.append back) = buf.append (front ++ back) := by
  unfold append datalength
  by_cases fits : front.length ≤ buf.ahead.length
  · simp only [fits, if_true, Option.bind_eq_bind, Option.bind_some, List.length_drop,
      List.length_append, List.drop_drop, List.append_assoc]
    by_cases both : front.length + back.length ≤ buf.ahead.length
    · rw [if_pos both, if_pos (by omega)]
    · rw [if_neg both, if_neg (by omega)]
  · have both : ¬ (front ++ back).length ≤ buf.ahead.length := by
      rw [List.length_append]
      omega
    rw [if_neg fits, if_neg both]
    rfl

theorem written_of_append {buf buf' : WBuf} {bytes : List Byte}
    (appended : buf.append bytes = some buf') :
    buf'.written = buf.written ++ bytes ∧ buf'.datalength + bytes.length = buf.datalength := by
  unfold append datalength at *
  by_cases fits : bytes.length ≤ buf.ahead.length
  · rw [if_pos fits] at appended
    obtain rfl : _ = buf' := by simpa using appended
    simp only [List.length_drop, true_and]
    omega
  · simp [fits] at appended

theorem append_of_fits {buf : WBuf} {bytes : List Byte} (fits : bytes.length ≤ buf.datalength) :
    buf.append bytes = some ⟨buf.written ++ bytes, buf.ahead.drop bytes.length⟩ := by
  rw [append, if_pos fits]

end WBuf

/-- `encoder` appends `bytes` to every buffer that has room for them, and fails on the others. -/
def Appends (encoder : WBuf → Option WBuf) (bytes : List Byte) : Prop :=
  ∀ buf, encoder buf = buf.append bytes

namespace Appends

variable {first second : WBuf → Option WBuf} {front back : List Byte}

theorem andThen (appendsFront : Appends first front) (appendsBack : Appends second back) :
    Appends (fun buf => first buf >>= second) (front ++ back) := fun buf => by
  have same : second = fun buf' => buf'.append back := funext appendsBack
  change first buf >>= second = _
  rw [appendsFront buf, same, WBuf.append_append]

theorem checked (appends : Appends first front) {size : Nat} (size_le : size ≤ front.length) :
    Appends (fun buf => if buf.datalength < size then none else first buf) front := fun buf => by
  by_cases room : buf.datalength < size
  · simp only [room, if_true]
    rw [WBuf.append, if_neg (by omega)]
  · simp only [room, if_false]
    exact appends buf

end Appends

theorem length_buildLengthOctets_pos (length : Nat) : 0 < (buildLengthOctets length).length := by
  unfold buildLengthOctets
  split
  · simp
  · split <;> simp

theorem appends_asnBuildLength (length : Nat) :
    Appends (asnBuildLength · length) (buildLengthOctets length) := fun buf => by
  have appends : Appends (·.append (buildLengthOctets length)) (buildLengthOctets length) :=
    fun buf => rfl
  change asnBuildLength buf length = _
  unfold asnBuildLength
  by_cases short : length < 0x80
  · rw [if_pos short]
    exact appends.checked (by simp [buildLengthOctets, short]) buf
  · rw [if_neg short]
    by_cases medium : length ≤ 0xff
    · rw [if_pos medium]
      exact appends.checked (by simp [buildLengthOctets, short, medium]) buf
    · rw [if_neg medium]
      exact appends.checked (by simp [buildLengthOctets, short, medium]) buf

theorem appends_asnBuildHeader (type : Byte) (length : Nat) :
    Appends (asnBuildHeader · type length) (type :: buildLengthOctets length) := fun buf => by
  have put : Appends (putByte · type) [type] := fun buf => rfl
  have both := put.andThen (appends_asnBuildLength length)
  exact both.checked (show 1 ≤ (type :: buildLengthOctets length).length by simp) buf

/-- An object with the header that `asn_build_header` gives it. -/
def builtObject (type : Byte) (contents : List Byte) : List Byte :=
  type :: buildLengthOctets contents.length ++ contents

theorem appends_buildObject (type : Byte) (contents : List Byte) :
    Appends (buildObject · type contents) (builtObject type contents) := fun buf => by
  have append : Appends (·.append contents) contents := fun buf => rfl
  have checked := append.checked (le_refl contents.length)
  have both := (appends_asnBuildHeader type contents.length).andThen checked
  rw [builtObject, ← both buf]
  change buildObject buf type contents = _
  unfold buildObject asnBuildHeaderCheck
  refine bind_congr fun buf' => ?_
  split <;> rfl

theorem lengthField_buildLengthOctets {length : Nat} (small : length ≤ 0xffff) :
    LengthField (buildLengthOctets length) length := by
  unfold buildLengthOctets
  by_cases short : length < 0x80
  · rw [if_pos short]
    have toNat_eq := toNat_toUChar_natCast length
    have field := LengthField.short (toUChar length) (by omega)
    rwa [toNat_eq, Nat.mod_eq_of_lt (by omega)] at field
  · rw [if_neg short]
    by_cases medium : length ≤ 0xff
    · rw [if_pos medium]
      have value : Octets.beNat [toUChar length] = length := by
        simp only [Octets.beNat_cons, Octets.beNat_nil, List.length_nil, toNat_toUChar_natCast]
        omega
      have field := LengthField.long (show (0x81 : Byte).toNat =
        128 + [toUChar length].length from rfl)
        (by simp) (by simp) (by omega)
      rwa [value] at field
    · rw [if_neg medium]
      have value : Octets.beNat [toUChar (length / 2 ^ 8 % 2 ^ 8 : Nat),
          toUChar (length % 2 ^ 8 : Nat)] = length := by
        simp only [Octets.beNat_cons, Octets.beNat_nil, List.length_cons, List.length_nil,
          toNat_toUChar_natCast]
        omega
      have field := LengthField.long (show (0x82 : Byte).toNat = 128 +
        [toUChar (length / 2 ^ 8 % 2 ^ 8 : Nat), toUChar (length % 2 ^ 8 : Nat)].length from rfl)
        (by simp) (by simp) (by rw [value]; omega)
      rwa [value] at field

theorem encodes_builtObject {type : Byte} {contents : List Byte}
    (small : contents.length ≤ 0xffff) : Encodes type contents (builtObject type contents) :=
  ⟨buildLengthOctets contents.length, lengthField_buildLengthOctets small, rfl⟩

theorem length_topOctets (intsize integer : Nat) :
    (topOctets intsize integer).length = intsize := by
  induction intsize generalizing integer with
  | zero => rfl
  | succ intsize ih => simp [topOctets, ih]

theorem beNat_topOctets {intsize integer : Nat} (width : intsize ≤ 8) (small : integer < 2 ^ 64) :
    Octets.beNat (topOctets intsize integer) = integer / 256 ^ (8 - intsize) := by
  induction intsize generalizing integer with
  | zero =>
      rw [show 8 - 0 = 8 from rfl, Nat.div_eq_of_lt (by norm_num; omega)]
      rfl
  | succ intsize ih =>
      have scale : (2 : Nat) ^ 56 = 256 ^ intsize * 256 ^ (8 - (intsize + 1)) := by
        rw [← pow_add, show intsize + (8 - (intsize + 1)) = 7 by omega]
        norm_num
      have next : 256 ^ (8 - intsize) = 256 * 256 ^ (8 - (intsize + 1)) := by
        rw [← pow_succ', show 8 - (intsize + 1) + 1 = 8 - intsize by omega]
      have shifted : integer * 2 ^ 8 % 2 ^ 64 = integer % 2 ^ 56 * 256 := by omega
      have split : integer = integer % 2 ^ 56 + integer / 2 ^ 56 * 256 ^ intsize *
          256 ^ (8 - (intsize + 1)) := by
        rw [Nat.mul_assoc, ← scale]
        omega
      rw [topOctets, Octets.beNat_cons, length_topOctets,
        ih (by omega) (Nat.mod_lt _ (by norm_num)),
        toNat_toUChar_natCast, Nat.mod_eq_of_lt (by omega), shifted, next, Nat.mul_comm _ 256,
        Nat.mul_div_mul_left _ _ (by norm_num)]
      conv_rhs => rw [split]
      rw [Nat.add_mul_div_right _ _ (by positivity)]
      omega

theorem beInt_topOctets {integer : Nat} (small : integer < 2 ^ 64) :
    Octets.beInt (topOctets 8 integer) = toCLong integer := by
  have value := beNat_topOctets (le_refl 8) small
  rw [Nat.sub_self, pow_zero, Nat.div_one] at value
  have width := length_topOctets 7 (integer * 2 ^ 8 % 2 ^ 64)
  have top := Octets.topBit_iff (toUChar (integer / 2 ^ 56 : Nat))
    (topOctets 7 (integer * 2 ^ 8 % 2 ^ 64))
  rw [topOctets] at value ⊢
  rw [value, width] at top
  simp only [Octets.beInt, value, width, top]
  unfold toCLong signedOfBits
  split <;> split <;> omega

theorem beInt_topOctets_shift {intsize integer : Nat} (small : integer < 2 ^ 64)
    (repeats : integer / 2 ^ 55 = 0 ∨ integer / 2 ^ 55 = 0x1ff) :
    Octets.beInt (topOctets (intsize + 1) (integer * 2 ^ 8 % 2 ^ 64)) =
      Octets.beInt (topOctets (intsize + 2) integer) := by
  have next : topOctets (intsize + 2) integer =
      toUChar (integer / 2 ^ 56 : Nat) :: topOctets (intsize + 1) (integer * 2 ^ 8 % 2 ^ 64) := rfl
  have firstBit : Octets.topBit (toUChar (integer * 2 ^ 8 % 2 ^ 64 / 2 ^ 56 : Nat)) =
      decide (integer / 2 ^ 55 = 0x1ff) := by
    unfold Octets.topBit
    rw [toNat_toUChar_natCast]
    congr 1
    apply propext
    omega
  have first : toUChar (integer / 2 ^ 56 : Nat) =
      if decide (integer / 2 ^ 55 = 0x1ff) then 0xff else 0 := by
    rcases repeats with zero | ones
    · rw [show integer / 2 ^ 56 = 0 by omega, zero]
      rfl
    · rw [show integer / 2 ^ 56 = 255 by omega, ones]
      rfl
  rw [next, first, Octets.beInt_sign_cons]
  simp only [topOctets, Octets.beInt, firstBit, List.length_cons, length_topOctets]

theorem beInt_trimOctets (intsize : Nat) {integer : Nat} (small : integer < 2 ^ 64) :
    Octets.beInt (topOctets (trimOctets intsize integer).1 (trimOctets intsize integer).2) =
      Octets.beInt (topOctets intsize integer) := by
  induction intsize, integer using trimOctets.induct with
  | case1 integer => rfl
  | case2 integer => rfl
  | case3 intsize integer repeats ih =>
      rw [trimOctets, if_pos repeats, ih (Nat.mod_lt _ (by norm_num)),
        beInt_topOctets_shift small repeats]
  | case4 intsize integer differs => rw [trimOctets, if_neg differs]

theorem trimOctets_size {intsize : Nat} (integer : Nat) (pos : 0 < intsize) :
    0 < (trimOctets intsize integer).1 ∧ (trimOctets intsize integer).1 ≤ intsize := by
  induction intsize, integer using trimOctets.induct with
  | case1 integer => omega
  | case2 integer => simp [trimOctets]
  | case3 intsize integer repeats ih =>
      rw [trimOctets, if_pos repeats]
      have := ih (by omega)
      omega
  | case4 intsize integer differs =>
      rw [trimOctets, if_neg differs]
      exact ⟨pos, le_rfl⟩

theorem intOctets_spec {integer : Nat} (small : integer < 2 ^ 64) :
    intOctets integer ≠ [] ∧ (intOctets integer).length ≤ 8 ∧
      Octets.beInt (intOctets integer) = toCLong integer := by
  have size := trimOctets_size integer (show 0 < sizeofLong by decide)
  have length_eq : (intOctets integer).length = (trimOctets sizeofLong integer).1 :=
    length_topOctets _ _
  refine ⟨?_, ?_, ?_⟩
  · rw [ne_eq, ← List.length_eq_zero_iff]
    omega
  · unfold sizeofLong at *
    omega
  · rw [← beInt_topOctets small]
    exact beInt_trimOctets sizeofLong small

theorem appends_asnBuildInt {intp : Int} (lower : int32Min ≤ intp) (upper : intp ≤ int32Max) :
    ∃ contents, contents ≠ [] ∧ contents.length ≤ 8 ∧ Octets.beInt contents = intp ∧
      ∀ type, Appends (asnBuildInt · type intp) (builtObject type contents) := by
  obtain ⟨nonempty, width, value⟩ := intOctets_spec (toSizeT_lt intp)
  refine ⟨intOctets (toSizeT intp), nonempty, width, ?_, fun type buf => ?_⟩
  · unfold int32Min at lower
    unfold int32Max at upper
    rw [value]
    unfold toCLong toSizeT signedOfBits
    split <;> omega
  · change asnBuildInt buf type intp = _
    rw [asnBuildInt, checkOverflowS_eq_self lower upper]
    exact appends_buildObject type _ buf

theorem appends_asnBuildUnsignedInt {intp : Nat} (upper : intp ≤ uint32Max) :
    ∃ contents, contents ≠ [] ∧ contents.length ≤ 8 ∧ Octets.beNat contents = intp ∧
      ∀ type, Appends (asnBuildUnsignedInt · type intp) (builtObject type contents) := by
  unfold uint32Max at upper
  obtain ⟨nonempty, width, value⟩ := intOctets_spec (show intp < 2 ^ 64 by omega)
  rw [toCLong_eq_self (by omega)] at value
  have unsigned := Octets.beNat_of_beInt_nonneg (show 0 ≤ Octets.beInt (intOctets intp) by omega)
  refine ⟨intOctets intp, nonempty, width, by omega, fun type buf => ?_⟩
  change asnBuildUnsignedInt buf type intp = _
  rw [asnBuildUnsignedInt, checkOverflowU_eq_self upper, unsignedOctets, if_neg (by omega)]
  exact appends_buildObject type _ buf

theorem countGroups_eq {groups objid : Nat} (small : objid < 128 ^ groups) :
    countGroups groups objid = (highOctets objid).length := by
  induction groups generalizing objid with
  | zero =>
      rw [pow_zero] at small
      obtain rfl : objid = 0 := by omega
      rw [highOctets_zero]
      rfl
  | succ groups ih =>
      rw [pow_succ] at small
      by_cases zero : objid = 0
      · rw [zero, highOctets_zero]
        rfl
      · rw [countGroups, if_neg zero, highOctets_pos zero, ih (by omega)]
        simp

theorem buildSubid_marked (objidVal : Nat) :
    buildSubid (highOctets objidVal).length 0x80 objidVal = highOctets objidVal := by
  induction objidVal using Nat.strong_induction_on with
  | _ objidVal ih =>
      by_cases zero : objidVal = 0
      · rw [zero, highOctets_zero]
        rfl
      · have octet : toUChar (objidVal % 2 ^ 7 : Nat) ||| 0x80 =
            UInt8.ofNat (128 + objidVal % 128) := by
          rw [or_0x80, toNat_toUChar_natCast]
          congr 2
          omega
        have shift : objidVal / 2 ^ 7 = objidVal / 128 := by norm_num
        rw [highOctets_pos zero, List.length_append, List.length_singleton,
          buildSubid, octet, shift,
          ih (objidVal / 128) (by omega)]

theorem buildSubid_eq {objidVal : Nat} (small : objidVal ≤ maxSubid) :
    buildSubid (encodedOidLen objidVal) 0 objidVal = subidOctets objidVal := by
  have len : encodedOidLen objidVal = (highOctets (objidVal / 128)).length + 1 := by
    unfold encodedOidLen
    by_cases zero : objidVal = 0
    · rw [if_pos zero, zero, Nat.zero_div, highOctets_zero]
      rfl
    · unfold maxSubid at small
      rw [if_neg zero, countGroups_eq (by norm_num; omega), highOctets_pos zero]
      simp
  have shift : objidVal / 2 ^ 7 = objidVal / 128 := by norm_num
  have octet : toUChar (objidVal % 2 ^ 7 : Nat) ||| 0 = UInt8.ofNat (objidVal % 128) := by
    rw [UInt8.or_zero, ← toUChar_natCast]
    rfl
  rw [len, buildSubid, shift, buildSubid_marked, octet, subidOctets]

theorem appends_asnBuildObjid (type : Byte) {name : Oid} (encodable : EncodableOid name) :
    Appends (asnBuildObjid · type name) (builtObject type (oidContents name)) := fun buf => by
  cases encodable with
  | @mk first second more first_le second_lt combined subids length_le =>
      have accepted : ¬ ((40 ≤ second ∧ first < 2) ∨ uint32Max - first * 40 < second) := by
        unfold maxSubid at combined
        unfold uint32Max
        omega
      have short : ¬ maxOidLen < max (first :: second :: more).length 1 := by
        simp only [List.length_cons]
        omega
      have small : ∀ subid ∈ (first * 40 + second) :: more, subid ≤ maxSubid := by
        simpa using ⟨combined, subids⟩
      have kept : ((first * 40 + second) :: more).map checkOverflowU =
          (first * 40 + second) :: more := by
        rw [List.map_congr_left fun subid mem => checkOverflowU_eq_self (small subid mem),
          List.map_id']
      have contents : ((first * 40 + second) :: more).flatMap
          (fun subid => buildSubid (encodedOidLen subid) 0 subid) =
          oidContents (first :: second :: more) := by
        rw [oidContents]
        exact List.flatMap_congr fun subid mem => buildSubid_eq (small subid mem)
      have subids_eq : buildObjidSubids (first :: second :: more) =
          some ((first * 40 + second) :: more) := by
        rw [buildObjidSubids, if_neg (by omega), if_neg accepted]
      change asnBuildObjid buf type (first :: second :: more) = _
      rw [asnBuildObjid, subids_eq]
      simp only [Option.bind_eq_bind, Option.bind_some]
      rw [if_neg short, if_neg (List.cons_ne_nil _ _), kept, contents]
      exact appends_buildObject type _ buf

end NetSnmp
