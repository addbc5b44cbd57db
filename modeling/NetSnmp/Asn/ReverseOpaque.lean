import NetSnmp.Asn.ReverseWrites

/-!
# What the reverse encoders write for 64-bit numbers and special values

The octets of a 64-bit number come from two halves, the low one first; the
special values add their own tag and length in front and an `Opaque` header
around them.
-/

namespace NetSnmp

open Ber

def specialObject (special : Byte) (inner : List Byte) : List Byte :=
  object asnOpaque (asnOpaqueTag1 :: special :: UInt8.ofNat inner.length :: inner)

theorem encodesSpecial_specialObject {special : Byte} {inner : List Byte}
    (short : inner.length ≤ 120) :
    EncodesSpecial special inner (specialObject special inner) := by
  have toNat_eq : (UInt8.ofNat inner.length).toNat = inner.length := by
    rw [UInt8.toNat_ofNat']
    omega
  have field := LengthField.short (UInt8.ofNat inner.length) (by omega)
  rw [toNat_eq] at field
  refine ⟨lengthOctets (inner.length + 3), [UInt8.ofNat inner.length], ?_, field, ?_⟩
  · have outer := lengthField_lengthOctets (show inner.length + 3 < 2 ^ 63 by omega)
    have total : [UInt8.ofNat inner.length].length + inner.length + 2 = inner.length + 3 := by
      simp only [List.length_singleton]
      omega
    rwa [total]
  · simp [specialObject, object, headerOctets]

theorem length_specialObject {special : Byte} {inner : List Byte} (short : inner.length ≤ 120) :
    (specialObject special inner).length = inner.length + 5 := by
  have field : (lengthOctets (inner.length + 3)).length = 1 := by
    rw [lengthOctets, if_pos (by omega)]
    rfl
  simp only [specialObject, object, headerOctets, List.cons_append, List.length_cons,
    List.length_append, field]
  omega

theorem Wrote.opaqueWrapper {result : Option RBuf} {inner : List Byte} {buf : RBuf}
    (wrote : Wrote result inner buf)
    (room : ∀ buf', result = some buf' → 3 ≤ buf'.room) (special : Byte) (size : RBuf → Nat)
    (size_eq : ∀ buf', buf'.written = inner ++ buf.written → size buf' = inner.length) :
    Wrote (result >>= fun buf' => rbuildOpaqueWrapper true buf' special (size buf'))
      (specialObject special inner) buf := by
  obtain ⟨buf₁, stored, written₁⟩ := wrote
  have room₁ := room buf₁ stored
  obtain ⟨buf₂, poked₂, written₂, room₂⟩ :=
    poke_spec buf₁ (toUChar inner.length) (by omega)
  obtain ⟨buf₃, poked₃, written₃, room₃⟩ := poke_spec buf₂ special (by omega)
  obtain ⟨buf₄, poked₄, written₄, _⟩ := poke_spec buf₃ asnOpaqueTag1 (by omega)
  have contents : Wrote (some buf₄)
      (asnOpaqueTag1 :: special :: UInt8.ofNat inner.length :: inner) buf :=
    ⟨buf₄, rfl, by rw [written₄, written₃, written₂, written₁, toUChar_natCast]; rfl⟩
  have checked := contents.objectChecked asnOpaque (fun _ => inner.length + 3)
    (fun _ => inner.length + 3) (fun _ _ => by simp) fun buf' written => by
      have le := length_object_ge asnOpaque
        (asnOpaqueTag1 :: special :: UInt8.ofNat inner.length :: inner)
      rw [written, List.length_append]
      simp only [List.length_cons] at le
      omega
  obtain ⟨buf₅, headed, written₅⟩ := checked
  refine ⟨buf₅, ?_, written₅⟩
  simpa [stored, rbuildOpaqueWrapper, size_eq buf₁ written₁, poked₂, poked₃, poked₄] using headed

theorem Wrote.reserve {result : Option RBuf} {bytes : List Byte} {buf : RBuf}
    (wrote : Wrote result bytes buf) (size : Nat) :
    Wrote (result >>= NetSnmp.reserve true size) bytes buf ∧
      ∀ buf', (result >>= NetSnmp.reserve true size) = some buf' → size ≤ buf'.room := by
  obtain ⟨buf₁, rfl, written₁⟩ := wrote
  obtain ⟨buf₂, reserved, written₂, room⟩ := reserve_spec size buf₁
  refine ⟨⟨buf₂, by simpa using reserved, by rw [written₂, written₁]⟩, ?_⟩
  intro buf' same
  obtain rfl : buf₂ = buf' := by simpa [reserved] using same
  exact room

theorem storeFill_spec (octet : Byte) (missing : Nat) (buf : RBuf) :
    Wrote (storeFill true buf octet missing) (List.replicate missing octet) buf := by
  induction missing generalizing buf with
  | zero => exact .done
  | succ missing ih =>
      rw [storeFill, List.replicate_succ']
      exact (wrote_storeByte buf octet).bind fun buf' _ => ih buf'

theorem testvalue_natCast (value : Nat) : testvalue value = 0 := by
  unfold testvalue
  rw [if_neg (by omega)]

theorem storeHalf_spec (half : Int) (lower : -2 ^ 32 ≤ half) (upper : half < 2 ^ 32) :
    ∃ octets, octets ≠ [] ∧ octets.length ≤ 4 ∧
      half = testvalue half * 256 ^ octets.length + Octets.beNat octets ∧
      (2 ≤ octets.length ∨ half ≠ testvalue half →
        ∀ top ∈ octets.head?, top ≠ toUChar (testvalue half)) ∧
      ∀ buf, Wrote (storeByte true buf (toUChar half) >>= fun buf' =>
        storeOctets true buf' (half / 2 ^ 8)) octets buf := by
  obtain ⟨octets, length_le, value, last, head, wrote⟩ :=
    storeOctets_spec 3 (half / 2 ^ 8) (by norm_num; omega) (by norm_num; omega)
  rw [testvalue_shift] at value last head
  have length_le' : (octets ++ [toUChar half]).length ≤ 4 := by
    rw [List.length_append, List.length_singleton]
    omega
  refine ⟨octets ++ [toUChar half], by simp, length_le', append_low_octet value, ?_,
    fun buf => ?_⟩
  · intro more
    apply head_append_ne _ head
    rintro rfl
    rcases more with more | more
    · exact absurd more (by simp)
    · exact toUChar_ne_sign (isSign_testvalue half) (last rfl) more
  · exact (wrote_storeByte buf (toUChar half)).bind fun buf' _ => wrote buf'

theorem beNat_fill {sign : Int} (isSign : sign = -1 ∨ sign = 0) (missing : Nat)
    (octets : List Byte) :
    (Octets.beNat (List.replicate missing (toUChar sign) ++ octets) : Int) =
      sign * 256 ^ octets.length + Octets.beNat octets - sign * 256 ^
        (missing + octets.length) := by
  rw [Octets.beNat_append]
  rcases isSign with rfl | rfl
  · have ones := Octets.beNat_replicate_ones missing
    have octet : toUChar (-1) = 0xff := by decide
    have ones_eq : (Octets.beNat (List.replicate missing (0xff : Byte)) : Int) =
        256 ^ missing - 1 := by
      have cast : ((256 ^ missing : Nat) : Int) = 256 ^ missing := by simp
      omega
    rw [octet, pow_add]
    push_cast
    rw [ones_eq]
    ring
  · have octet : toUChar 0 = 0 := by decide
    rw [octet, Octets.beNat_replicate_zero]
    simp

theorem rbuildHighHalf_spec (high : Int) (lower : -2 ^ 32 ≤ high) (upper : high < 2 ^ 32)
    {lowOctets : List Byte} (low_length : lowOctets.length ≤ 4) :
    ∃ highOctets, (highOctets ++ lowOctets).length ≤ 8 ∧
      ((high = testvalue high ∧ highOctets = []) ∨
        high * 2 ^ 32 + (testvalue high * 256 ^ lowOctets.length + Octets.beNat lowOctets -
          testvalue high * 2 ^ 32) =
        testvalue high * 256 ^ (highOctets ++ lowOctets).length +
          Octets.beNat (highOctets ++ lowOctets)) ∧
      ((2 ≤ lowOctets.length → ∀ top ∈ lowOctets.head?, top ≠ toUChar (testvalue high)) →
        2 ≤ (highOctets ++ lowOctets).length →
          ∀ top ∈ (highOctets ++ lowOctets).head?, top ≠ toUChar (testvalue high)) ∧
      ∀ buf, Wrote (rbuildHighHalf true buf (4 - lowOctets.length) high) highOctets buf := by
  by_cases same : high = testvalue high
  · refine ⟨[], by simpa using by omega, .inl ⟨same, rfl⟩, fun differs => differs, fun buf => ?_⟩
    rw [rbuildHighHalf, if_neg (by simpa using same)]
    exact .done
  · obtain ⟨octets, nonempty, length_le, value, head, wrote⟩ := storeHalf_spec high lower upper
    have fill := beNat_fill (isSign_testvalue high) (4 - lowOctets.length) lowOctets
    have width : 4 - lowOctets.length + lowOctets.length = 4 := by omega
    refine ⟨octets ++ List.replicate (4 - lowOctets.length) (toUChar (testvalue high)), ?_,
      .inr ?_, ?_, fun buf => ?_⟩
    · simp only [List.length_append, List.length_replicate]
      omega
    · rw [List.append_assoc, Octets.beNat_append]
      simp only [List.length_append, List.length_replicate, width]
      rw [width] at fill
      push_cast
      rw [fill, pow_add]
      linear_combination 2 ^ 32 * value
    · rintro - -
      match octets, nonempty with
      | top :: octets, _ => exact head (.inr same)
    · rw [rbuildHighHalf, if_pos same]
      exact (storeFill_spec _ _ buf).bind fun buf' _ => wrote buf'

theorem rbuildUnsignedInt64Octets_spec {high low : Nat} (high_lt : high < 2 ^ 32)
    (low_lt : low < 2 ^ 32) :
    ∃ contents, contents.length ≤ 9 ∧ (contents.length = 9 → contents.head? = some 0) ∧
      Octets.beNat contents = high * 2 ^ 32 + low ∧
      Octets.beInt contents = high * 2 ^ 32 + low ∧ Octets.Shortest contents ∧
      ∀ buf, Wrote (rbuildUnsignedInt64Octets true buf high low) contents buf := by
  obtain ⟨lowOctets, lowNonempty, lowLength, lowValue, lowHead, wroteLow⟩ :=
    storeHalf_spec low (by omega) (by omega)
  obtain ⟨highOctets, length_le, highValue, highHead, wroteHigh⟩ :=
    rbuildHighHalf_spec high (by omega) (by omega) lowLength
  rw [testvalue_natCast] at lowValue lowHead highValue highHead
  have value : (Octets.beNat (highOctets ++ lowOctets) : Int) = high * 2 ^ 32 + low := by
    rcases highValue with ⟨zero, rfl⟩ | highValue
    · rw [zero, List.nil_append]
      omega
    · omega
  obtain ⟨signOctets, signLength, signHead, _, beInt_eq, shortest, wroteSign⟩ :=
    fixSign_spec (show highOctets ++ lowOctets ≠ [] by simp [lowNonempty]) (.inr rfl)
      (show (Octets.beNat (highOctets ++ lowOctets) : Int) =
        0 * 256 ^ (highOctets ++ lowOctets).length + Octets.beNat (highOctets ++ lowOctets) by simp)
  have value_eq :=
    Octets.beNat_of_beInt_nonneg
      (show 0 ≤ Octets.beInt (signOctets ++ (highOctets ++ lowOctets)) by omega)
  refine ⟨signOctets ++ (highOctets ++ lowOctets), ?_, ?_, by omega, by omega,
    shortest (highHead fun more => lowHead (.inl more)), fun buf => ?_⟩
  · rw [List.length_append]
    omega
  · intro nine
    rw [List.length_append] at nine
    have head := signHead (by omega)
    rw [List.head?_append, head]
    rfl
  · obtain ⟨buf₁, stored, written⟩ := wroteLow buf
    have low : Wrote (some buf₁) lowOctets buf := ⟨buf₁, rfl, written⟩
    have halves := low.bind fun buf' _ => wroteHigh buf'
    have signed := halves.bind fun buf' written' => wroteSign buf' ⟨buf.written, written'⟩
    simp only [Option.bind_eq_bind, Option.bind_some] at signed stored
    rw [← Wrote.offset written] at signed
    unfold rbuildUnsignedInt64Octets
    simp only [Option.bind_eq_bind]
    rw [← Option.bind_assoc, stored]
    exact signed

theorem asnReallocRbuildUnsignedInt64_spec (high low : Nat) :
    ∃ contents, contents.length ≤ 9 ∧ (contents.length = 9 → contents.head? = some 0) ∧
      Octets.beNat contents = checkOverflowU high * 2 ^ 32 + checkOverflowU low ∧
      Octets.beInt contents = checkOverflowU high * 2 ^ 32 + checkOverflowU low ∧
      Octets.Shortest contents ∧
      (∀ type buf, type = asnOpaqueCounter64 ∨ type = asnOpaqueU64 →
        Wrote (asnReallocRbuildUnsignedInt64 true buf type high low)
          (specialObject type contents) buf) ∧
      ∀ type buf, ¬ (type = asnOpaqueCounter64 ∨ type = asnOpaqueU64) →
        Wrote (asnReallocRbuildUnsignedInt64 true buf type high low)
          (object type contents) buf := by
  obtain ⟨contents, width, leading, value, signed, shortest, wrote⟩ :=
    rbuildUnsignedInt64Octets_spec (checkOverflowU_lt high) (checkOverflowU_lt low)
  refine ⟨contents, width, leading, value, signed, shortest, ?_, ?_⟩
  · intro type buf special
    obtain ⟨buf₁, stored, written⟩ := wrote buf
    have same : Wrote (some buf₁) contents buf := ⟨buf₁, rfl, written⟩
    obtain ⟨reserved, room⟩ := same.reserve 5
    have enough : ∀ buf', (some buf₁ >>= reserve true 5) = some buf' → 3 ≤ buf'.room :=
      fun buf' found => le_trans (by decide) (room buf' found)
    have wrapped := reserved.opaqueWrapper enough type (fun _ => contents.length) fun _ _ => rfl
    unfold asnReallocRbuildUnsignedInt64
    simpa [stored, special, Wrote.offset written] using wrapped
  · intro type buf plain
    obtain ⟨buf₁, stored, written⟩ := wrote buf
    have same : Wrote (some buf₁) contents buf := ⟨buf₁, rfl, written⟩
    have checked := same.objectChecked type (fun _ => contents.length)
      (fun _ => contents.length) (fun _ _ => rfl) fun buf' written => by
        have le := length_object_ge type contents
        rw [written, List.length_append]
        omega
    unfold asnReallocRbuildUnsignedInt64
    simpa [stored, plain, Wrote.offset written] using checked

theorem wrote_asnReallocRbuildUnsignedInt64 {high low : Nat} (high_lt : high < 2 ^ 32)
    (low_lt : low < 2 ^ 32) :
    ∃ contents, contents.length ≤ 9 ∧ (contents.length = 9 → contents.head? = some 0) ∧
      Octets.beNat contents = high * 2 ^ 32 + low ∧
      (∀ type buf, type = asnOpaqueCounter64 ∨ type = asnOpaqueU64 →
        Wrote (asnReallocRbuildUnsignedInt64 true buf type high low)
          (specialObject type contents) buf) ∧
      ∀ type buf, ¬ (type = asnOpaqueCounter64 ∨ type = asnOpaqueU64) →
        Wrote (asnReallocRbuildUnsignedInt64 true buf type high low)
          (object type contents) buf := by
  obtain ⟨contents, width, leading, value, -, -, special, plain⟩ :=
    asnReallocRbuildUnsignedInt64_spec high low
  have highKept : checkOverflowU high = high :=
    checkOverflowU_eq_self (by unfold uint32Max; omega)
  have lowKept : checkOverflowU low = low := checkOverflowU_eq_self (by unfold uint32Max; omega)
  rw [highKept, lowKept] at value
  exact ⟨contents, width, leading, value, special, plain⟩

theorem storeLowOctets_spec (sign : Int) (missing : Nat) (low : Int) :
    ∃ octets, ∃ rest : Int, octets.length ≤ missing ∧
      low = rest * 256 ^ octets.length + Octets.beNat octets ∧
      (rest = sign ∨ octets.length = missing) ∧
      ((sign = -1 ∨ sign = 0) → 0 < missing → -256 ^ missing ≤ 2 * low →
        2 * low < 256 ^ missing →
          (octets = [] → low = sign) ∧ ∀ top ∈ octets.head?, top ≠ toUChar sign) ∧
      ∀ buf, Wrote (storeLowOctets true buf sign missing low) octets buf := by
  induction missing generalizing low with
  | zero =>
      exact ⟨[], low, by simp, by simp, .inr rfl,
        fun _ pos => absurd pos (Nat.lt_irrefl 0), fun buf => .done⟩
  | succ missing ih =>
      by_cases same : low = sign
      · refine ⟨[], low, by simp, by simp, .inl same, fun _ _ _ _ => ⟨fun _ => same, by simp⟩,
          fun buf => ?_⟩
        rw [storeLowOctets, if_neg (by simpa using same)]
        exact .done
      · obtain ⟨octets, rest, length_le, value, stops, first, wrote⟩ := ih (low / 2 ^ 8)
        refine ⟨octets ++ [toUChar low], rest, by simpa using length_le, append_low_octet value, ?_,
          ?_, fun buf => ?_⟩
        · rcases stops with stops | stops
          · exact .inl stops
          · exact .inr (by simp [stops])
        · intro isSign _ lower upper
          refine ⟨by simp, ?_⟩
          rcases Nat.eq_zero_or_pos missing with rfl | pos
          · -- the half is complete with this octet, which is as good as the sign of it
            obtain rfl : octets = [] := List.length_eq_zero_iff.mp (Nat.le_zero.mp length_le)
            intro top mem
            obtain rfl : toUChar low = top := by simpa using mem
            intro equal
            have octet := toNat_toUChar low
            rw [equal, toNat_toUChar] at octet
            omega
          · have scale : (256 : Int) ^ (missing + 1) = 256 ^ missing * 256 := pow_succ _ _
            have even : (256 : Int) ^ missing = 256 ^ (missing - 1) * 256 := by
              rw [← pow_succ, Nat.sub_add_cancel pos]
            have first' := first isSign pos (by omega) (by omega)
            exact head_append_ne (fun none => toUChar_ne_sign isSign (first'.1 none) same) first'.2
        · rw [storeLowOctets, if_pos same]
          exact (wrote_storeByte buf (toUChar low)).bind fun buf' _ => wrote buf'

theorem low_half_value {sign low rest : Int} {octets : List Byte} (isSign : sign = -1 ∨ sign = 0)
    (length_le : octets.length ≤ 4) (value : low = rest * 256 ^ octets.length + Octets.beNat octets)
    (stops : rest = sign ∨ octets.length = 4) :
    sign * 256 ^ octets.length + Octets.beNat octets - sign * 2 ^ 32 = low % 2 ^ 32 := by
  have bound := Octets.beNat_lt octets
  have boundCast : (Octets.beNat octets : Int) < 256 ^ octets.length := by exact_mod_cast bound
  rcases stops with rfl | complete
  · have scale : (256 : Int) ^ octets.length ≤ 2 ^ 32 := by
      calc (256 : Int) ^ octets.length ≤ 256 ^ 4 := pow_le_pow_right₀ (by norm_num) length_le
        _ = 2 ^ 32 := by norm_num
    rcases isSign with rfl | rfl <;> omega
  · rw [complete] at value boundCast ⊢
    norm_num at value boundCast ⊢
    omega

theorem rbuildSignedInt64Octets_spec {high low : Int} (high_ge : -2 ^ 31 ≤ high)
    (high_lt : high < 2 ^ 31) (low_ge : -2 ^ 31 ≤ low) (low_lt : low < 2 ^ 31) :
    ∃ contents, contents.length ≤ 8 ∧
      Octets.beInt contents = high * 2 ^ 32 + low % 2 ^ 32 ∧ Octets.Shortest contents ∧
      ∀ buf, Wrote (rbuildSignedInt64Octets true buf high low) contents buf := by
  obtain ⟨octets, rest, octets_length, shifted, stops, first, wroteLow⟩ :=
    storeLowOctets_spec (testvalue high) 3 (low / 2 ^ 8)
  have lowValue := append_low_octet shifted
  have lowLength : (octets ++ [toUChar low]).length ≤ 4 := by
    rw [List.length_append, List.length_singleton]
    omega
  have unsigned := low_half_value (isSign_testvalue high) lowLength lowValue (by
    rcases stops with stops | stops
    · exact .inl stops
    · exact .inr (by simp [stops]))
  have lowHead : 2 ≤ (octets ++ [toUChar low]).length →
      ∀ top ∈ (octets ++ [toUChar low]).head?, top ≠ toUChar (testvalue high) := by
    intro more
    cases octets with
    | nil => exact absurd more (by simp)
    | cons top octets =>
        have first' := first (isSign_testvalue high) (by decide) (by norm_num; omega)
          (by norm_num; omega)
        simpa using first'.2
  set lowOctets := octets ++ [toUChar low] with lowOctets_eq
  obtain ⟨highOctets, length_le, highValue, highHead, wroteHigh⟩ :=
    rbuildHighHalf_spec high (by omega) (by omega) lowLength
  have value : high * 2 ^ 32 + low % 2 ^ 32 =
      testvalue high * 256 ^ (highOctets ++ lowOctets).length +
        Octets.beNat (highOctets ++ lowOctets) := by
    rcases highValue with ⟨same, rfl⟩ | highValue
    · rw [← unsigned, List.nil_append]
      linear_combination 2 ^ 32 * same
    · rw [← unsigned, highValue]
  obtain ⟨signOctets, signLength, _, inRange, beInt_eq, shortest, wroteSign⟩ :=
    fixSign_spec (show highOctets ++ lowOctets ≠ [] by simp [lowOctets_eq])
      (isSign_testvalue high) value
  refine ⟨signOctets ++ (highOctets ++ lowOctets), ?_, beInt_eq, shortest (highHead lowHead),
    fun buf => ?_⟩
  · -- eight octets hold every value of two halves, sign included
    rw [List.length_append]
    by_cases complete : (highOctets ++ lowOctets).length = 8
    · rw [complete] at inRange
      have none := inRange (by norm_num; omega) (by norm_num; omega)
      rw [none, List.length_nil]
      omega
    · omega
  · obtain ⟨buf₁, stored, written⟩ : Wrote (storeByte true buf (toUChar low) >>= fun buf' =>
        storeLowOctets true buf' (testvalue high) 3 (low / 2 ^ 8)) lowOctets buf :=
      (wrote_storeByte buf (toUChar low)).bind fun buf' _ => wroteLow buf'
    have low : Wrote (some buf₁) lowOctets buf := ⟨buf₁, rfl, written⟩
    have halves := low.bind fun buf' _ => wroteHigh buf'
    have signed := halves.bind fun buf' written' => wroteSign buf' ⟨buf.written, written'⟩
    simp only [Option.bind_eq_bind, Option.bind_some] at signed stored
    rw [← Wrote.offset written] at signed
    unfold rbuildSignedInt64Octets
    simp only [Option.bind_eq_bind]
    rw [← Option.bind_assoc, stored]
    exact signed

theorem asnReallocRbuildSignedInt64_spec (high low : Nat) :
    ∃ contents, contents.length ≤ 8 ∧
      Octets.beInt contents = toCInt high * 2 ^ 32 + toCInt low % 2 ^ 32 ∧
      Octets.Shortest contents ∧
      ∀ buf, Wrote (asnReallocRbuildSignedInt64 true buf high low)
        (specialObject asnOpaqueI64 contents) buf := by
  obtain ⟨contents, width, value, shortest, wrote⟩ := rbuildSignedInt64Octets_spec
    (toCInt_ge high) (toCInt_lt high) (toCInt_ge low) (toCInt_lt low)
  refine ⟨contents, width, value, shortest, fun buf => ?_⟩
  obtain ⟨buf₁, stored, written⟩ := wrote buf
  have same : Wrote (some buf₁) contents buf := ⟨buf₁, rfl, written⟩
  obtain ⟨reserved, room⟩ := same.reserve 5
  have wrapped := reserved.opaqueWrapper (fun buf' found => by have := room buf' found; omega)
    asnOpaqueI64 (fun _ => contents.length) fun _ _ => rfl
  unfold asnReallocRbuildSignedInt64
  simpa [stored, Wrote.offset written] using wrapped

theorem halves_of_toCInt {high low : Nat} (high_lt : high < 2 ^ 32) (low_lt : low < 2 ^ 32) :
    Octets.halves (toCInt high * 2 ^ 32 + toCInt low % 2 ^ 32) = (high, low) := by
  have highEq := toCInt_emod high_lt
  have lowEq := toCInt_emod low_lt
  unfold Octets.halves
  rw [Prod.mk.injEq]
  omega

theorem wrote_asnReallocRbuildSignedInt64 {high low : Nat} (high_lt : high < 2 ^ 32)
    (low_lt : low < 2 ^ 32) :
    ∃ contents, contents.length ≤ 8 ∧ Octets.halves (Octets.beInt contents) = (high, low) ∧
      ∀ buf, Wrote (asnReallocRbuildSignedInt64 true buf high low)
        (specialObject asnOpaqueI64 contents) buf := by
  obtain ⟨contents, width, value, -, wrote⟩ := asnReallocRbuildSignedInt64_spec high low
  refine ⟨contents, width, ?_, wrote⟩
  rw [value]
  exact halves_of_toCInt high_lt low_lt

theorem length_octetsOf (width value : Nat) : (octetsOf width value).length = width := by
  induction width generalizing value with
  | zero => rfl
  | succ width ih => simp [octetsOf, ih]

theorem beNat_octetsOf (width : Nat) {value : Nat} (small : value < 256 ^ width) :
    Octets.beNat (octetsOf width value) = value := by
  induction width generalizing value with
  | zero =>
      rw [pow_zero] at small
      simp only [octetsOf, Octets.beNat_nil]
      omega
  | succ width ih =>
      rw [pow_succ] at small
      have quotient : value / 2 ^ 8 < 256 ^ width := by omega
      rw [octetsOf, Octets.beNat_append, ih quotient]
      simp only [List.length_singleton, pow_one, Octets.beNat_cons, List.length_nil, pow_zero,
        mul_one, Octets.beNat_nil, add_zero, toNat_toUChar_natCast]
      omega

theorem wrote_rbuildOpaqueBits (buf : RBuf) (special : Byte) (size bits : Nat) :
    Wrote (rbuildOpaqueBits true buf special size bits)
      (specialObject special (octetsOf size bits)) buf := by
  obtain ⟨buf₁, reserved, written₁, room₁⟩ := reserve_spec (size + 3) buf
  have length_eq := length_octetsOf size bits
  obtain ⟨buf₂, copied, written₂, room₂⟩ := copyIn_spec buf₁ (octetsOf size bits) (by omega)
  have contents : Wrote (some buf₂) (octetsOf size bits) buf :=
    ⟨buf₂, rfl, by rw [written₂, written₁]⟩
  have wrapped := contents.opaqueWrapper (fun buf' found => by
    obtain rfl : buf₂ = buf' := by simpa using found
    omega) special (fun _ => size) fun _ _ => length_eq.symm
  unfold rbuildOpaqueBits
  simpa [reserved, copied] using wrapped

end NetSnmp
