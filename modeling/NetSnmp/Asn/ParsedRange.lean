import NetSnmp.Asn.IntegerCodec
import NetSnmp.Asn.RemainingLength

/-!
# The range of the integers that are parsed

Up to eight octets are accepted and cut to 32 bits afterwards.  An unsigned number
is cut to its low bits.  Of a signed number the low bits are taken without their
sign, which can leave a number that is not an `int`.
-/

namespace NetSnmp

open Reader

/-- The bytes that `asn_realloc_rbuild_int` writes for a value are parsed as this value. -/
def SignedComesBack (value : Int) : Prop :=
  ∃ bytes, Prepends (fun r buf => asnReallocRbuildInt r buf asnInteger value) bytes ∧
    ∀ rest datalength, bytes.length ≤ datalength → datalength < 2 ^ 64 →
      (asnParseInt (bytes ++ rest) datalength).outcome =
        .ok ⟨rest, datalength - bytes.length, asnInteger, value⟩

/-- The same for `asn_realloc_rbuild_unsigned_int`. -/
def UnsignedComesBack (type : Byte) (value : Nat) : Prop :=
  ∃ bytes, Prepends (fun r buf => asnReallocRbuildUnsignedInt r buf type value) bytes ∧
    ∀ rest datalength, bytes.length ≤ datalength → datalength < 2 ^ 64 →
      (asnParseUnsignedInt (bytes ++ rest) datalength).outcome =
        .ok ⟨rest, datalength - bytes.length, type, value⟩

/-- The number of the octets is an `int`, or its low bits make one: those of a positive number as
they are, those of a negative number negated. -/
def CutsToInt (number : Int) : Prop :=
  (int32Min ≤ number ∧ number ≤ int32Max) ∨ (int32Max < number ∧ number % 2 ^ 32 < 2 ^ 31) ∨
    (number < int32Min ∧ number % 2 ^ 32 ≤ 2 ^ 31)

theorem checkOverflowS_inRange_iff (number : Int) :
    int32Min ≤ checkOverflowS number ∧ checkOverflowS number ≤ int32Max ↔ CutsToInt number := by
  unfold checkOverflowS CutsToInt int32Max int32Min
  split
  · omega
  · split <;> omega

theorem signedComesBack_of_inRange {value : Int} (lower : int32Min ≤ value)
    (upper : value ≤ int32Max) : SignedComesBack value := by
  rcases agrees_int asnInteger value with ⟨bytes, -, prepends, reads⟩
  refine ⟨bytes, prepends, ?_⟩
  intro rest datalength fits small
  exact reads rest datalength fits small rfl lower upper

theorem unsignedComesBack_of_inRange {type : Byte} {value : Nat} (isUnsigned : IsUnsigned type)
    (upper : value ≤ uint32Max) : UnsignedComesBack type value := by
  rcases agrees_unsignedInt type value with ⟨bytes, -, prepends, reads⟩
  refine ⟨bytes, prepends, ?_⟩
  intro rest datalength fits small
  exact reads rest datalength fits small isUnsigned upper

section Parsed

variable {data : Ptr} {datalength : Nat}

theorem value_of_asnParseInt {parsed : Parsed Int}
    (accepted : (asnParseInt data datalength).outcome = .ok parsed) :
    ∃ length contents, objectAt data = some (asnInteger, length, contents) ∧
      parsed.value = checkOverflowS (Octets.beInt (contents.take length)) := by
  rcases header_of_checked accepted with ⟨type, length, bufp, header, typed, accepted⟩
  simp only [outcome_bind] at accepted
  rcases Outcome.bind_eq_ok.mp accepted with ⟨_, width, accepted⟩
  rcases Outcome.bind_eq_ok.mp accepted with ⟨left, -, accepted⟩
  rcases Outcome.bind_eq_ok.mp accepted with ⟨first, sign, accepted⟩
  rcases Outcome.bind_eq_ok.mp accepted with ⟨octets, read, accepted⟩
  have width := outcome_failIf_eq_ok.mp width
  rcases outcome_readBytes_eq_ok.mp read with ⟨inside, octets_eq⟩
  obtain rfl : type = asnInteger := not_not.mp typed
  obtain rfl : _ = parsed := Outcome.ok.inj accepted
  refine ⟨length, bufp, header.object, congrArg checkOverflowS ?_⟩
  unfold sizeofLong at width
  have length_eq : octets.length = length := by
    rw [octets_eq, List.length_take]
    omega
  have pos : 0 < length := by
    apply Nat.pos_of_ne_zero
    rintro rfl
    exact width (.inr rfl)
  have head := outcome_deref_eq_ok.mp sign
  rw [← octets_eq]
  cases octets with
  | nil => exact absurd length_eq pos.ne
  | cons octet rest =>
      obtain rfl : octet = first := by
        have taken : (bufp.take length).head? = some first := by
          rw [List.head?_take, if_neg pos.ne', head]
        rw [← octets_eq] at taken
        exact Option.some.inj taken
      have short : rest.length < 8 := by
        rw [List.length_cons] at length_eq
        omega
      have extended := @Octets.toCLong_signExtend octet rest short
      rw [← hasBit8_eq, length_eq] at extended
      exact extended

theorem value_of_asnParseUnsignedInt {parsed : Parsed Nat}
    (accepted : (asnParseUnsignedInt data datalength).outcome = .ok parsed) :
    IsUnsigned parsed.type ∧ parsed.value ≤ uint32Max := by
  rcases header_of_checked accepted with ⟨type, length, bufp, -, typed, accepted⟩
  simp only [outcome_bind] at accepted
  rcases Outcome.bind_eq_ok.mp accepted with ⟨_, -, accepted⟩
  rcases Outcome.bind_eq_ok.mp accepted with ⟨_, -, accepted⟩
  rcases Outcome.bind_eq_ok.mp accepted with ⟨left, -, accepted⟩
  rcases Outcome.bind_eq_ok.mp accepted with ⟨octets, -, accepted⟩
  obtain rfl : _ = parsed := Outcome.ok.inj accepted
  constructor
  · unfold IsUnsigned
    by_contra other
    simp only [not_or] at other
    exact typed other
  · exact Nat.le_of_lt_succ (checkOverflowU_lt _)

/-- A signed integer from the wire is an `int`, and comes back when it is written again, exactly
when its low bits make one; an unsigned one always fits 32 bits and comes back. -/
theorem parsedIntegers_inRange_iff (data : Ptr) (datalength : Nat) :
    (∀ parsed, (asnParseInt data datalength).outcome = .ok parsed →
      ((int32Min ≤ parsed.value ∧ parsed.value ≤ int32Max ∧ SignedComesBack parsed.value) ↔
        ∃ length contents, objectAt data = some (asnInteger, length, contents) ∧
          CutsToInt (Octets.beInt (contents.take length)))) ∧
    ∀ parsed, (asnParseUnsignedInt data datalength).outcome = .ok parsed →
      parsed.value ≤ uint32Max ∧ UnsignedComesBack parsed.type parsed.value := by
  constructor
  · intro parsed accepted
    rcases value_of_asnParseInt accepted with ⟨length, contents, object, value_eq⟩
    have inRange := checkOverflowS_inRange_iff (Octets.beInt (contents.take length))
    rw [← value_eq] at inRange
    constructor
    · rintro ⟨lower, upper, -⟩
      exact ⟨length, contents, object, inRange.mp ⟨lower, upper⟩⟩
    · rintro ⟨length', contents', object', cuts⟩
      obtain ⟨rfl, rfl⟩ : length = length' ∧ contents = contents' := by
        simpa [object] using object'
      rcases inRange.mpr cuts with ⟨lower, upper⟩
      exact ⟨lower, upper, signedComesBack_of_inRange lower upper⟩
  · intro parsed accepted
    rcases value_of_asnParseUnsignedInt accepted with ⟨isUnsigned, upper⟩
    exact ⟨upper, unsignedComesBack_of_inRange isUnsigned upper⟩

end Parsed

/-- The number 2 ^ 32 - 1 in five octets. -/
theorem not_parsedIntegers_inRange :
    ¬ ∀ (data : Ptr) (datalength : Nat) (parsed : Parsed Int),
      (asnParseInt data datalength).outcome = .ok parsed →
        int32Min ≤ parsed.value ∧ parsed.value ≤ int32Max ∧ SignedComesBack parsed.value := by
  intro inRange
  have upper := (inRange [0x02, 0x05, 0x00, 0xff, 0xff, 0xff, 0xff] 7
    ⟨[], 0, 0x02, 4294967295⟩ (by decide +kernel)).2.1
  exact absurd upper (by decide)

end NetSnmp
