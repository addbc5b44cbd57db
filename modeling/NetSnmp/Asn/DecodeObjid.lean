import NetSnmp.Asn.Decode

/-!
# Decoding object identifiers

The two loops of `asn_parse_objid` undo the base-128 encoding of a list of
subidentifiers, and the first of them is split in two.
-/

namespace NetSnmp

open Reader Ber

theorem highOctets_zero : highOctets 0 = [] := by
  rw [highOctets]
  simp

theorem highOctets_pos {subidentifier : Nat} (pos : subidentifier ≠ 0) :
    highOctets subidentifier =
      highOctets (subidentifier / 128) ++ [UInt8.ofNat (128 + subidentifier % 128)] := by
  rw [highOctets, if_neg pos]

theorem toNat_highOctet (subidentifier : Nat) :
    (UInt8.ofNat (128 + subidentifier % 128)).toNat = 128 + subidentifier % 128 := by
  rw [UInt8.toNat_ofNat']
  omega

theorem toNat_lowOctet (subidentifier : Nat) :
    (UInt8.ofNat (subidentifier % 128)).toNat = subidentifier % 128 := by
  rw [UInt8.toNat_ofNat']
  omega

theorem subidOctets_ne_nil (subidentifier : Nat) : subidOctets subidentifier ≠ [] := by
  simp [subidOctets]

/-- The octets above the low seven bits bring the accumulator to the value they encode.
The induction is on the value; what has not been read yet is part of the tail. -/
theorem outcome_asnParseSubid_high (subidentifier : Nat) (small : subidentifier ≤ maxSubid / 128)
    (length : Nat) (pos : 0 < length) (tail : List Byte) :
    (asnParseSubid (length + (highOctets subidentifier).length)
        (highOctets subidentifier ++ tail) 0).outcome =
      (asnParseSubid length tail subidentifier).outcome := by
  induction subidentifier using Nat.strong_induction_on generalizing length tail with
  | _ subidentifier ih =>
      by_cases zero : subidentifier = 0
      · simp [zero, highOctets_zero]
      · rw [highOctets_pos zero]
        set octet : Byte := UInt8.ofNat (128 + subidentifier % 128) with octet_eq
        have toNat_octet : octet.toNat = 128 + subidentifier % 128 := toNat_highOctet subidentifier
        have previous := ih (subidentifier / 128) (by omega) (by omega) (length + 1) (by omega)
          (octet :: tail)
        have shape : length + (highOctets (subidentifier / 128) ++ [octet]).length =
            length + 1 + (highOctets (subidentifier / 128)).length := by
          simp
          omega
        rw [shape, List.append_assoc, List.singleton_append, previous]
        have top : hasBit8 octet = true := by
          rw [hasBit8_eq]
          simp [Octets.topBit, toNat_octet]
        have low : octet.toNat &&& 127 = subidentifier % 128 := by
          rw [toNat_and_127]
          omega
        have value : subidentifier / 128 * 128 + subidentifier % 128 = subidentifier := by omega
        simp [asnParseSubid, top, low, pos, value,
          show ¬ maxSubid / 128 < subidentifier / 128 by omega]

theorem outcome_asnParseSubid (subidentifier : Nat) (small : subidentifier ≤ maxSubid)
    (length : Nat) (rest : List Byte) :
    ∃ last tail, hasBit8 last = false ∧
      (asnParseSubid (length + (subidOctets subidentifier).length)
        (subidOctets subidentifier ++ rest) 0).outcome =
        .ok ⟨rest, length, subidentifier, last :: tail⟩ := by
  set lastByte : Byte := UInt8.ofNat (subidentifier % 128) with lastByte_eq
  have toNat_last : lastByte.toNat = subidentifier % 128 := toNat_lowOctet subidentifier
  have top : hasBit8 lastByte = false := by
    rw [hasBit8_eq]
    simp only [Octets.topBit, toNat_last, decide_eq_false_iff_not]
    omega
  refine ⟨lastByte, rest, top, ?_⟩
  have bound : subidentifier / 128 ≤ maxSubid / 128 := Nat.div_le_div_right small
  have high := outcome_asnParseSubid_high (subidentifier / 128) bound (length + 1) (by omega)
    (lastByte :: rest)
  have shape : length + (subidOctets subidentifier).length =
      length + 1 + (highOctets (subidentifier / 128)).length := by
    simp [subidOctets]
    omega
  rw [shape, subidOctets, ← lastByte_eq, List.append_assoc, List.singleton_append, high]
  have low : lastByte.toNat &&& 127 = subidentifier % 128 := by
    rw [toNat_and_127, toNat_last]
    omega
  have value : subidentifier / 128 * 128 + subidentifier % 128 = subidentifier := by omega
  simp [asnParseSubid, top, low, value, show ¬ maxSubid / 128 < subidentifier / 128 by omega]

theorem outcome_asnParseSubids (subidentifiers : List Nat)
    (small : ∀ subidentifier ∈ subidentifiers, subidentifier ≤ maxSubid) (objidlength : Nat)
    (room : subidentifiers.length ≤ objidlength) (rest : List Byte) :
    (asnParseSubids objidlength (subidentifiers.flatMap subidOctets).length
        (subidentifiers.flatMap subidOctets ++ rest)).outcome =
      .ok (rest, 0, subidentifiers) := by
  induction subidentifiers generalizing objidlength with
  | nil => cases objidlength <;> simp [asnParseSubids]
  | cons subidentifier subidentifiers ih =>
      cases objidlength with
      | zero => simp at room
      | succ objidlength =>
          have head : subidentifier ≤ maxSubid := small subidentifier (by simp)
          have tail := ih (fun other mem => small other (by simp [mem])) objidlength
            (by simpa using room)
          obtain ⟨lastByte, more, clear, subid⟩ := outcome_asnParseSubid subidentifier head
            (subidentifiers.flatMap subidOctets).length
            (subidentifiers.flatMap subidOctets ++ rest)
          have nonempty : (subidOctets subidentifier).length ≠ 0 := by
            simp [subidOctets]
          rw [List.flatMap_cons, List.length_append, List.append_assoc, asnParseSubids,
            outcome_ite, if_neg (by omega), outcome_bind,
            Nat.add_comm (subidOctets subidentifier).length, subid]
          simp only [Outcome.bind_ok, outcome_bind, outcome_ite, outcome_deref_cons, clear,
            outcome_failIf, Bool.false_eq_true, if_false, outcome_pure, tail, ite_self,
            show ¬ maxSubid < subidentifier by omega]

/-- What the encoders and the decoder both allow of an object identifier.  The sum in front
has to stay a 32-bit number. -/
inductive EncodableOid : Oid → Prop
  /-- At least two subidentifiers: 0 or 1 and one below 40, or 2, and then anything. -/
  | mk {first second : Nat} {more : Oid} (first_le : first ≤ 2)
      (second_lt : first < 2 → second < 40) (combined : first * 40 + second ≤ maxSubid)
      (subids : ∀ subid ∈ more, subid ≤ maxSubid) (length_le : more.length + 2 ≤ maxOidLen) :
      EncodableOid (first :: second :: more)

theorem splitFirst_combine {first second : Nat} (first_le : first ≤ 2)
    (second_lt : first < 2 → second < 40) :
    splitFirst (first * 40 + second) = [first, second] := by
  have cases : first = 0 ∨ first = 1 ∨ first = 2 := by omega
  unfold splitFirst
  rcases cases with rfl | rfl | rfl
  · have small := second_lt (by omega)
    rw [if_neg (by omega), if_pos (by omega)]
    simp
  · have small := second_lt (by omega)
    by_cases iso : 1 * 40 + second = 0x2B
    · rw [if_pos iso]
      simp
      omega
    · rw [if_neg iso, if_neg (by omega), if_pos (by omega)]
      simp
  · rw [if_neg (by omega), if_neg (by omega), if_neg (by omega)]
    simp

theorem EncodableOid.oidContents_ne_nil {name : Oid} (encodable : EncodableOid name) :
    oidContents name ≠ [] := by
  cases encodable with
  | mk => simp [oidContents, subidOctets_ne_nil]

theorem outcome_asnParseObjid {name : Oid} {encoding : List Byte}
    (encodes : Encodes asnObjectId (oidContents name) encoding) (encodable : EncodableOid name)
    (short : (oidContents name).length < 2 ^ 31) (rest : List Byte) (datalength : Nat)
    (small : datalength < 2 ^ 64) :
    (asnParseObjid (encoding ++ rest) datalength maxOidLen).outcome =
      if encoding.length ≤ datalength then
        .ok ⟨rest, datalength - encoding.length, asnObjectId, name⟩
      else .null := by
  rcases encodes with ⟨field, lengthField, rfl⟩
  have header := outcome_asnParseNlength (oidContents name ++ rest) lengthField (datalength - 1)
  have fieldPos := lengthField.length_pos
  by_cases fits : field.length + (oidContents name).length + 1 ≤ datalength
  · have after := lengthAfter_eq rest datalength asnObjectId fits small short
    rw [if_pos (by omega)] at header
    cases encodable with
    | @mk first second more first_le second_lt combined subids length_le =>
        have loop : (asnParseSubids (maxOidLen - 1) (oidContents (first :: second :: more)).length
              (oidContents (first :: second :: more) ++ rest)).outcome =
            .ok (rest, 0, (first * 40 + second) :: more) := by
          refine outcome_asnParseSubids ((first * 40 + second) :: more) ?_ _ ?_ rest
          · intro subid mem
            rcases List.mem_cons.mp mem with rfl | mem
            · exact combined
            · exact subids subid mem
          · simp only [maxOidLen, List.length_cons] at length_le ⊢
            omega
        have split := splitFirst_combine first_le second_lt
        simp [asnParseObjid, header, after, loop, split, fits, show ¬ datalength < 2 by omega]
  · rw [if_neg (by omega)] at header
    by_cases tooShort : datalength < 2 <;> simp [asnParseObjid, header, fits, tooShort]

theorem length_highOctets_le (groups : Nat) {objid : Nat} (small : objid < 128 ^ groups) :
    (highOctets objid).length ≤ groups := by
  induction groups generalizing objid with
  | zero =>
      rw [pow_zero] at small
      obtain rfl : objid = 0 := by omega
      rw [highOctets_zero]
      rfl
  | succ groups ih =>
      rw [pow_succ] at small
      by_cases zero : objid = 0
      · rw [zero, highOctets_zero]
        exact Nat.zero_le _
      · have shorter := ih (show objid / 128 < 128 ^ groups by omega)
        rw [highOctets_pos zero, List.length_append, List.length_singleton]
        omega

theorem length_flatMap_subidOctets_le {subids : Oid} (small : ∀ subid ∈ subids, subid ≤ maxSubid) :
    (subids.flatMap subidOctets).length ≤ 5 * subids.length := by
  induction subids with
  | nil => simp
  | cons subid subids ih =>
      have first := length_highOctets_le 4 (show subid / 128 < 128 ^ 4 by
        have le := small subid (by simp)
        unfold maxSubid at le
        norm_num
        omega)
      have others := ih fun other mem => small other (by simp [mem])
      simp only [List.flatMap_cons, List.length_append, List.length_cons, subidOctets,
        List.length_nil]
      omega

theorem length_oidContents_le {name : Oid} (encodable : EncodableOid name) :
    (oidContents name).length ≤ 640 := by
  cases encodable with
  | @mk first second more first_le second_lt combined subids length_le =>
      have bound := length_flatMap_subidOctets_le
        (show ∀ subid ∈ (first * 40 + second) :: more, subid ≤ maxSubid by
          simpa using ⟨combined, subids⟩)
      unfold maxOidLen at length_le
      rw [List.length_cons] at bound
      rw [oidContents]
      omega

end NetSnmp
