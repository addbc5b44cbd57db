import NetSnmp.Asn.IntegerOctets

/-!
# Integers, written forwards and backwards and read back

The forward encoders shift octets out of the top of a word, the reverse ones out
of the bottom, and both come to the shortest octets of the number.  The forward
encoders of the two halves of a 64-bit number treat a half of more than 32 bits
in their own way.
-/

namespace NetSnmp

open Ber Reader

inductive IntegerCall where
  /-- `asn_build_int`, `asn_realloc_rbuild_int` -/
  | int (type : Byte) (intp : Int)
  /-- `asn_build_unsigned_int`, `asn_realloc_rbuild_unsigned_int` -/
  | unsignedInt (type : Byte) (intp : Nat)
  /-- `asn_build_unsigned_int64`, `asn_realloc_rbuild_unsigned_int64` -/
  | unsignedInt64 (type : Byte) (high low : Nat)
  /-- `asn_build_signed_int64`, `asn_realloc_rbuild_signed_int64` -/
  | signedInt64 (high low : Nat)
  deriving DecidableEq, Repr

namespace IntegerCall

def forward (call : IntegerCall) (buf : WBuf) : Option WBuf :=
  match call with
  | .int type intp => asnBuildInt buf type intp
  | .unsignedInt type intp => asnBuildUnsignedInt buf type intp
  | .unsignedInt64 type high low => asnBuildUnsignedInt64 buf type high low
  | .signedInt64 high low => asnBuildSignedInt64 buf high low

def reverse (call : IntegerCall) (r : Bool) (buf : RBuf) : Option RBuf :=
  match call with
  | .int type intp => asnReallocRbuildInt r buf type intp
  | .unsignedInt type intp => asnReallocRbuildUnsignedInt r buf type intp
  | .unsignedInt64 type high low => asnReallocRbuildUnsignedInt64 r buf type high low
  | .signedInt64 high low => asnReallocRbuildSignedInt64 r buf high low

/-- The arguments are a `long`, or are each a `u_long`. -/
def IsMachine (call : IntegerCall) : Prop :=
  match call with
  | .int _ intp => -2 ^ 63 ≤ intp ∧ intp < 2 ^ 63
  | .unsignedInt _ intp => intp < 2 ^ 64
  | .unsignedInt64 _ high low | .signedInt64 high low => high < 2 ^ 64 ∧ low < 2 ^ 64

def IsCounter64 (type : Byte) : Prop :=
  type = asnCounter64 ∨ type = asnOpaqueCounter64 ∨ type = asnOpaqueU64

/-- For a value in the range of its ASN.1 type, the decoder makes the value of the bytes, whatever
follows them, and stops behind them. -/
def ReadsValue (call : IntegerCall) (bytes : List Byte) : Prop :=
  ∀ rest datalength, bytes.length ≤ datalength → datalength < 2 ^ 64 →
    match call with
    | .int type intp => type = asnInteger → int32Min ≤ intp → intp ≤ int32Max →
        (asnParseInt (bytes ++ rest) datalength).outcome =
          .ok ⟨rest, datalength - bytes.length, type, intp⟩
    | .unsignedInt type intp => IsUnsigned type → intp ≤ uint32Max →
        (asnParseUnsignedInt (bytes ++ rest) datalength).outcome =
          .ok ⟨rest, datalength - bytes.length, type, intp⟩
    | .unsignedInt64 type high low => IsCounter64 type → high ≤ uint32Max → low ≤ uint32Max →
        ∃ left, (asnParseUnsignedInt64 (bytes ++ rest) datalength).outcome =
          .ok ⟨rest, left, type, (high, low)⟩
    | .signedInt64 high low => high ≤ uint32Max → low ≤ uint32Max →
        ∃ left, (asnParseSignedInt64 (bytes ++ rest) datalength).outcome =
          .ok ⟨rest, left, asnOpaqueI64, (high, low)⟩

end IntegerCall

/-- `encoder` puts `bytes` in front of what is written, in every buffer that may grow, and in the
others if it succeeds. -/
def Prepends (encoder : Bool → RBuf → Option RBuf) (bytes : List Byte) : Prop :=
  (∀ buf, ∃ buf', encoder true buf = some buf') ∧
    ∀ r buf buf', encoder r buf = some buf' → buf'.written = bytes ++ buf.written

/-- Both encoders write the same bytes, and the value is read back from them. -/
def IntegerCall.Agrees (call : IntegerCall) : Prop :=
  ∃ bytes, Appends call.forward bytes ∧ Prepends call.reverse bytes ∧ call.ReadsValue bytes

/-- The halves of a 64-bit number do not get in each other's way in the forward encoder: what the
low half has beyond 32 bits is in the high half already, and the high half, as a `long`, is not
below the least `int`, unless its sign does not matter. -/
def IntegerCall.HalvesFit (call : IntegerCall) : Prop :=
  match call with
  | .int _ _ | .unsignedInt _ _ => True
  | .unsignedInt64 _ high low => high % 2 ^ 32 ||| low / 2 ^ 32 = high % 2 ^ 32
  | .signedInt64 high _ =>
      -2 ^ 31 ≤ toCLong high ∨ high % 2 ^ 32 = 0 ∨ high % 2 ^ 32 = 2 ^ 31

theorem Appends.unique {encoder : WBuf → Option WBuf} {bytes bytes' : List Byte}
    (appends : Appends encoder bytes) (appends' : Appends encoder bytes') : bytes = bytes' := by
  let buf : WBuf := ⟨[], List.replicate (bytes.length + bytes'.length) 0⟩
  have room : buf.datalength = bytes.length + bytes'.length := List.length_replicate
  have same := (appends buf).symm.trans (appends' buf)
  rw [WBuf.append_of_fits (by omega), WBuf.append_of_fits (by omega)] at same
  exact congrArg WBuf.written (Option.some.inj same)

theorem prepends_of_wrote {encoder : Bool → RBuf → Option RBuf} {bytes : List Byte}
    (same : ∀ buf, SameWhenFixed (encoder · buf))
    (wrote : ∀ buf, Wrote (encoder true buf) bytes buf) : Prepends encoder bytes := by
  constructor
  · intro buf
    obtain ⟨buf', result, -⟩ := wrote buf
    exact ⟨buf', result⟩
  · intro r buf buf' result
    exact (same buf).written_eq (wrote buf) result

theorem Prepends.unique {encoder : Bool → RBuf → Option RBuf} {bytes bytes' : List Byte}
    (prepends : Prepends encoder bytes) (prepends' : Prepends encoder bytes') : bytes = bytes' := by
  obtain ⟨buf', result⟩ := prepends.1 ⟨0, [], le_rfl⟩
  have written := prepends.2 true _ buf' result
  rw [prepends'.2 true _ buf' result] at written
  simpa using written.symm

theorem contents_eq_of_object_eq {type : Byte} {contents contents' : List Byte}
    (short : contents.length ≤ 127) (short' : contents'.length ≤ 127)
    (same : object type contents = object type contents') : contents = contents' := by
  have header (contents : List Byte) (short : contents.length ≤ 127) :
      object type contents = [type, UInt8.ofNat contents.length] ++ contents := by
    simp [object, headerOctets, lengthOctets, short]
  rw [header contents short, header contents' short'] at same
  exact (List.append_inj same rfl).2

theorem inner_eq_of_specialObject_eq {special : Byte} {inner inner' : List Byte}
    (short : inner.length ≤ 120) (short' : inner'.length ≤ 120)
    (same : specialObject special inner = specialObject special inner') : inner = inner' := by
  have contents_eq := contents_eq_of_object_eq (by simp; omega) (by simp; omega) same
  have both : UInt8.ofNat inner.length = UInt8.ofNat inner'.length ∧ inner = inner' := by
    simpa using contents_eq
  exact both.2

theorem agrees_iff_of_contents {call : IntegerCall} {wrapper : List Byte → List Byte}
    {contents contents' : List Byte} {value value' : Int}
    (appends : Appends call.forward (wrapper contents))
    (prepends : Prepends call.reverse (wrapper contents'))
    (injective : wrapper contents = wrapper contents' → contents = contents')
    (shortest : Octets.Shortest contents) (shortest' : Octets.Shortest contents')
    (value_eq : Octets.beInt contents = value) (value_eq' : Octets.beInt contents' = value')
    (reads : call.ReadsValue (wrapper contents')) : call.Agrees ↔ value = value' := by
  constructor
  · rintro ⟨bytes, appends', prepends', -⟩
    have same := injective ((appends.unique appends').trans (prepends'.unique prepends))
    rw [← value_eq, ← value_eq', same]
  · rintro rfl
    have same : contents = contents' := shortest.eq shortest' (value_eq.trans value_eq'.symm)
    subst same
    exact ⟨wrapper contents, appends, prepends, reads⟩

theorem toCLong_toSizeT {value : Int} (lower : -2 ^ 63 ≤ value) (upper : value < 2 ^ 63) :
    toCLong (toSizeT value) = value := by
  unfold toCLong toSizeT signedOfBits
  split <;> omega

theorem agrees_int (type : Byte) (intp : Int) : (IntegerCall.int type intp).Agrees := by
  obtain ⟨contents, width, value, shortest, wrote⟩ := asnReallocRbuildInt_spec type intp
  have range := checkOverflowS_range intp
  obtain ⟨-, width', value'⟩ := intOctets_spec (toSizeT_lt (checkOverflowS intp))
  rw [toCLong_toSizeT (by omega) (by omega)] at value'
  have appends : Appends (IntegerCall.int type intp).forward
      (object type (intOctets (toSizeT (checkOverflowS intp)))) := by
    rw [← builtObject_eq_object (by omega)]
    exact appends_buildObject type _
  refine (agrees_iff_of_contents appends
    (prepends_of_wrote (same_asnReallocRbuildInt · type intp) wrote)
    (contents_eq_of_object_eq (by omega) (by omega))
    (shortest_intOctets (toSizeT_lt _)) shortest value' value ?_).mpr rfl
  intro rest datalength fits small typed lower upper
  subst typed
  have decoded := outcome_asnParseInt rest datalength
    (encodes_object (show contents.length < 2 ^ 63 by omega)) shortest.ne_nil (by omega) small
  rw [if_pos fits, value, checkOverflowS_eq_self lower upper,
    checkOverflowS_eq_self lower upper] at decoded
  exact decoded

theorem agrees_unsignedInt (type : Byte) (intp : Nat) :
    (IntegerCall.unsignedInt type intp).Agrees := by
  obtain ⟨contents, width, value, shortest, wrote⟩ := asnReallocRbuildUnsignedInt_spec type intp
  have range := checkOverflowU_lt intp
  obtain ⟨shortest', value', width', -⟩ :=
    unsignedOctets_spec (show checkOverflowU intp < 2 ^ 64 by omega)
  have appends : Appends (IntegerCall.unsignedInt type intp).forward
      (object type (unsignedOctets (checkOverflowU intp))) := by
    rw [← builtObject_eq_object (by omega)]
    exact appends_buildObject type _
  refine (agrees_iff_of_contents appends
    (prepends_of_wrote (same_asnReallocRbuildUnsignedInt · type intp) wrote)
    (contents_eq_of_object_eq (by omega) (by omega)) shortest' shortest value' value ?_).mpr rfl
  intro rest datalength fits small isUnsigned upper
  have unsigned := Octets.beNat_of_beInt_nonneg (show 0 ≤ Octets.beInt contents by omega)
  have value_eq : Octets.beNat contents = checkOverflowU intp := by omega
  have decoded := outcome_asnParseUnsignedInt rest datalength
    (encodes_object (show contents.length < 2 ^ 63 by omega)) isUnsigned shortest.ne_nil
    (by omega) small
  rw [if_pos fits, value_eq, checkOverflowU_eq_self upper, checkOverflowU_eq_self upper] at decoded
  exact decoded

theorem high_or_low (high low : Nat) :
    high * 2 ^ 32 % 2 ^ 64 ||| low =
      (high % 2 ^ 32 ||| low / 2 ^ 32) * 2 ^ 32 + low % 2 ^ 32 := by
  have shifted : high * 2 ^ 32 % 2 ^ 64 = high % 2 ^ 32 * 2 ^ 32 := by omega
  have top : (high % 2 ^ 32 * 2 ^ 32 ||| low) / 2 ^ 32 = high % 2 ^ 32 ||| low / 2 ^ 32 := by
    rw [Nat.or_div_two_pow, Nat.mul_div_cancel _ (by norm_num)]
  have bottom : (high % 2 ^ 32 * 2 ^ 32 ||| low) % 2 ^ 32 = low % 2 ^ 32 := by
    rw [Nat.or_mod_two_pow, Nat.mul_mod_left, Nat.zero_or]
  rw [shifted, ← top, ← bottom]
  omega

theorem readsValue_unsignedInt64 {type : Byte} {high low : Nat} {contents : List Byte}
    (width : contents.length ≤ 9) (leading : contents.length = 9 → contents.head? = some 0)
    (value : Octets.beNat contents = checkOverflowU high * 2 ^ 32 + checkOverflowU low) :
    (IntegerCall.unsignedInt64 type high low).ReadsValue
      (if type = asnOpaqueCounter64 ∨ type = asnOpaqueU64 then specialObject type contents
        else object type contents) := by
  intro rest datalength fits _ isCounter64 highUpper lowUpper
  rw [checkOverflowU_eq_self highUpper, checkOverflowU_eq_self lowUpper] at value
  have halves : Octets.halves (Octets.beNat contents) = (high, low) := by
    unfold uint32Max at highUpper lowUpper
    rw [value, Octets.halves, Prod.mk.injEq]
    omega
  rw [← halves]
  by_cases special : type = asnOpaqueCounter64 ∨ type = asnOpaqueU64
  · simp only [special, if_true] at fits ⊢
    have length_eq := @length_specialObject type contents (by omega)
    exact outcome_asnParseUnsignedInt64_special rest datalength
      (encodesSpecial_specialObject (by omega)) special width leading (by omega) fits
  · obtain rfl : type = asnCounter64 := isCounter64.resolve_right special
    rw [if_neg special] at fits ⊢
    exact outcome_asnParseUnsignedInt64 rest datalength (encodes_object (by omega)) width leading
      fits

theorem agrees_unsignedInt64_iff (type : Byte) {high low : Nat} (low_lt : low < 2 ^ 64) :
    (IntegerCall.unsignedInt64 type high low).Agrees ↔
      high % 2 ^ 32 ||| low / 2 ^ 32 = high % 2 ^ 32 := by
  obtain ⟨contents, width, leading, unsigned, value, shortest, special, plain⟩ :=
    asnReallocRbuildUnsignedInt64_spec high low
  have joined := high_or_low high low
  have highLt : high % 2 ^ 32 ||| low / 2 ^ 32 < 2 ^ 32 :=
    Nat.or_lt_two_pow (by omega) (by omega)
  obtain ⟨shortest', value', width', -⟩ :=
    unsignedOctets_spec (show high * 2 ^ 32 % 2 ^ 64 ||| low < 2 ^ 64 by omega)
  have reads := @readsValue_unsignedInt64 type high low contents width leading unsigned
  have same_iff : (((high * 2 ^ 32 % 2 ^ 64 ||| low : Nat) : Int) =
      checkOverflowU high * 2 ^ 32 + checkOverflowU low) ↔
      high % 2 ^ 32 ||| low / 2 ^ 32 = high % 2 ^ 32 := by
    rw [joined, checkOverflowU_eq_mod, checkOverflowU_eq_mod]
    omega
  rw [← same_iff]
  by_cases isSpecial : type = asnOpaqueCounter64 ∨ type = asnOpaqueU64
  · rw [if_pos isSpecial] at reads
    have appends : Appends (IntegerCall.unsignedInt64 type high low).forward
        (specialObject type (unsignedOctets (high * 2 ^ 32 % 2 ^ 64 ||| low))) := by
      intro buf
      simp only [IntegerCall.forward, asnBuildUnsignedInt64, isSpecial, if_true]
      exact appends_buildOpaque type (by omega) buf
    exact agrees_iff_of_contents appends
      (prepends_of_wrote (same_asnReallocRbuildUnsignedInt64 · type high low)
        fun buf => special type buf isSpecial)
      (inner_eq_of_specialObject_eq (by omega) (by omega)) shortest' shortest value' value reads
  · rw [if_neg isSpecial] at reads
    have appends : Appends (IntegerCall.unsignedInt64 type high low).forward
        (object type (unsignedOctets (high * 2 ^ 32 % 2 ^ 64 ||| low))) := by
      rw [← builtObject_eq_object (by omega)]
      intro buf
      simp only [IntegerCall.forward, asnBuildUnsignedInt64, isSpecial, if_false]
      exact appends_buildObject type _ buf
    exact agrees_iff_of_contents appends
      (prepends_of_wrote (same_asnReallocRbuildUnsignedInt64 · type high low)
        fun buf => plain type buf isSpecial)
      (contents_eq_of_object_eq (by omega) (by omega)) shortest' shortest value' value reads

theorem checkOverflowS_toCLong_iff (high : Nat) :
    (checkOverflowS (toCLong high) % 2 ^ 32).toNat = high % 2 ^ 32 ↔
      -2 ^ 31 ≤ toCLong high ∨ high % 2 ^ 32 = 0 ∨ high % 2 ^ 32 = 2 ^ 31 := by
  have low : toCLong high % 2 ^ 32 = (high % 2 ^ 32 : Nat) := by
    unfold toCLong signedOfBits
    split <;> omega
  generalize toCLong high = value at *
  unfold checkOverflowS int32Max int32Min
  split
  · omega
  · split <;> omega

def signedNumber (high low : Nat) : Nat :=
  joinHalves ((checkOverflowS (toCLong high) % 2 ^ 32).toNat, checkOverflowU low)

theorem signedNumber_lt (high low : Nat) : signedNumber high low < 2 ^ 64 := by
  have lowLt := checkOverflowU_lt low
  unfold signedNumber joinHalves
  omega

theorem appends_asnBuildSignedInt64 (high low : Nat) :
    Appends (asnBuildSignedInt64 · high low)
      (specialObject asnOpaqueI64 (intOctets (signedNumber high low))) := by
  have words : HalfWords ((checkOverflowS (toCLong high) % 2 ^ 32).toNat, checkOverflowU low) := by
    constructor
    · simp only
      omega
    · exact checkOverflowU_lt low
  obtain ⟨-, width, -⟩ := intOctets_spec (signedNumber_lt high low)
  intro buf
  simp only [asnBuildSignedInt64]
  rw [trimmedHalves_eq words, ← signedNumber]
  exact appends_buildOpaque asnOpaqueI64 (by omega) buf

theorem toCLong_signedNumber_iff (high low : Nat) :
    toCLong (signedNumber high low) = toCInt high * 2 ^ 32 + toCInt low % 2 ^ 32 ↔
      (checkOverflowS (toCLong high) % 2 ^ 32).toNat = high % 2 ^ 32 := by
  have lowEq : toCInt low % 2 ^ 32 = checkOverflowU low := by
    rw [checkOverflowU_eq_mod]
    unfold toCInt signedOfBits
    split <;> omega
  have lowLt := checkOverflowU_lt low
  have leftLt : (checkOverflowS (toCLong high) % 2 ^ 32).toNat < 2 ^ 32 := by omega
  unfold signedNumber joinHalves
  rw [lowEq]
  simp only
  generalize (checkOverflowS (toCLong high) % 2 ^ 32).toNat = left at *
  generalize checkOverflowU low = right at *
  have whole : toCLong (left * 2 ^ 32 + right : Nat) = toCInt left * 2 ^ 32 + right := by
    unfold toCLong toCInt signedOfBits
    split <;> split <;> omega
  have high_iff : toCInt left = toCInt high ↔ left = high % 2 ^ 32 := by
    unfold toCInt signedOfBits
    split <;> split <;> omega
  rw [whole, ← high_iff]
  omega

theorem agrees_signedInt64_iff (high low : Nat) :
    (IntegerCall.signedInt64 high low).Agrees ↔
      -2 ^ 31 ≤ toCLong high ∨ high % 2 ^ 32 = 0 ∨ high % 2 ^ 32 = 2 ^ 31 := by
  obtain ⟨contents, width, value, shortest, wrote⟩ := asnReallocRbuildSignedInt64_spec high low
  obtain ⟨-, width', value'⟩ := intOctets_spec (signedNumber_lt high low)
  rw [← checkOverflowS_toCLong_iff, ← toCLong_signedNumber_iff high low]
  refine agrees_iff_of_contents (appends_asnBuildSignedInt64 high low)
    (prepends_of_wrote (same_asnReallocRbuildSignedInt64 · high low) wrote)
    (inner_eq_of_specialObject_eq (by omega) (by omega))
    (shortest_intOctets (signedNumber_lt high low)) shortest value' value ?_
  intro rest datalength fits _ highUpper lowUpper
  unfold uint32Max at highUpper lowUpper
  have halves := halves_of_toCInt (show high < 2 ^ 32 by omega) (show low < 2 ^ 32 by omega)
  rw [← value] at halves
  rw [← halves]
  have length_eq := @length_specialObject asnOpaqueI64 contents (by omega)
  exact outcome_asnParseSignedInt64 rest datalength (encodesSpecial_specialObject (by omega))
    (by omega) (by omega) (by omega) fits

/-- The encoders agree, and their bytes are read back, exactly when the halves of a 64-bit number
fit. -/
theorem integerCall_agrees_iff {call : IntegerCall} (machine : call.IsMachine) :
    call.Agrees ↔ call.HalvesFit := by
  cases call with
  | int type intp => exact iff_of_true (agrees_int type intp) trivial
  | unsignedInt type intp => exact iff_of_true (agrees_unsignedInt type intp) trivial
  | unsignedInt64 type high low => exact agrees_unsignedInt64_iff type machine.2
  | signedInt64 high low => exact agrees_signedInt64_iff high low

theorem integerCall_agrees_greatest :
    (IntegerCall.unsignedInt64 asnCounter64 0xffffffff 0xffffffff).Agrees :=
  (@integerCall_agrees_iff (.unsignedInt64 asnCounter64 0xffffffff 0xffffffff)
    ⟨by decide, by decide⟩).mpr (show 0xffffffff % 2 ^ 32 ||| 0xffffffff / 2 ^ 32 = _ by decide)

/-- A low half of 33 bits: the forward encoder writes the number 2 ^ 32, the reverse one zero. -/
theorem not_integerCall_agrees :
    ¬ ∀ call : IntegerCall, call.IsMachine → call.Agrees := by
  intro agrees
  have counter := agrees (.unsignedInt64 asnCounter64 0 0x100000000) ⟨by decide, by decide⟩
  rw [agrees_unsignedInt64_iff asnCounter64 (by decide)] at counter
  exact absurd counter (by decide)

end NetSnmp
