import NetSnmp.Asn.Ber
import NetSnmp.Asn.Decode
import NetSnmp.Asn.DecodeObjid
import NetSnmp.Asn.DecodeOpaque
import NetSnmp.Asn.ReverseBuild
import NetSnmp.ShortestOctets

/-!
# What the reverse encoders write

A growing buffer never runs out, so every encoder succeeds on the values it is
made for, and what it adds in front of the buffer is an encoding in the sense
of `NetSnmp.Ber`.
-/

namespace NetSnmp

open Ber

/-- A step on `buf` succeeds and adds `bytes` in front of what is written. -/
def Wrote (result : Option RBuf) (bytes : List Byte) (buf : RBuf) : Prop :=
  ∃ buf', result = some buf' ∧ buf'.written = bytes ++ buf.written

namespace Wrote

variable {result : Option RBuf} {bytes more : List Byte} {buf : RBuf}

theorem done : Wrote (some buf) [] buf := ⟨buf, rfl, rfl⟩

theorem bind {next : RBuf → Option RBuf} (wrote : Wrote result bytes buf)
    (wroteNext : ∀ buf', buf'.written = bytes ++ buf.written → Wrote (next buf') more buf') :
    Wrote (result >>= next) (more ++ bytes) buf := by
  obtain ⟨buf', rfl, written⟩ := wrote
  obtain ⟨buf'', next_eq, written'⟩ := wroteNext buf' written
  exact ⟨buf'', next_eq, by rw [written', written, List.append_assoc]⟩

theorem andThen {next : RBuf → Option RBuf} (wrote : Wrote result bytes buf)
    (passes : ∀ buf', buf'.written = bytes ++ buf.written → next buf' = some buf') :
    Wrote (result >>= next) bytes buf := by
  obtain ⟨buf', rfl, written⟩ := wrote
  exact ⟨buf', passes buf' written, written⟩

theorem offset {buf' : RBuf} (written : buf'.written = bytes ++ buf.written) :
    buf'.offset - buf.offset = bytes.length := by
  simp [RBuf.offset, written]

end Wrote

theorem poke_spec (buf : RBuf) (byte : Byte) (room : 0 < buf.room) :
    ∃ buf', poke buf byte = some buf' ∧ buf'.written = byte :: buf.written ∧
      buf'.room + 1 = buf.room := by
  simp only [RBuf.room, RBuf.offset] at room ⊢
  refine ⟨⟨buf.pktLen, byte :: buf.written, by simpa using by omega⟩, ?_, rfl, ?_⟩
  · rw [poke, dif_pos (by omega)]
  · simp only [List.length_cons]
    omega

theorem copyIn_spec (buf : RBuf) (str : List Byte) (room : str.length ≤ buf.room) :
    ∃ buf', copyIn buf str = some buf' ∧ buf'.written = str ++ buf.written ∧
      buf'.room + str.length = buf.room := by
  have fits := buf.fits
  simp only [RBuf.room, RBuf.offset] at room ⊢
  have fits' : (str ++ buf.written).length ≤ buf.pktLen := by
    rw [List.length_append]
    omega
  refine ⟨⟨buf.pktLen, str ++ buf.written, fits'⟩, ?_, rfl, ?_⟩
  · rw [copyIn, dif_pos fits']
  · simp only [List.length_append]
    omega

theorem wrote_copyIn {buf : RBuf} (str : List Byte) (room : str.length ≤ buf.room) :
    Wrote (copyIn buf str) str buf := by
  obtain ⟨buf', copied, written, _⟩ := copyIn_spec buf str room
  exact ⟨buf', copied, written⟩

theorem wrote_storeByte (buf : RBuf) (byte : Byte) : Wrote (storeByte true buf byte)
    [byte] buf := by
  unfold storeByte makeRoom
  by_cases full : buf.room < 1
  · have grown := asnRealloc_room buf
    obtain ⟨buf', poked, written, _⟩ := poke_spec (asnRealloc buf) byte (by omega)
    exact ⟨buf', by simp [full, poked], by simpa using written⟩
  · obtain ⟨buf', poked, written, _⟩ := poke_spec buf byte (by omega)
    exact ⟨buf', by simp [full, poked], written⟩

theorem reserve_spec (size : Nat) (buf : RBuf) :
    ∃ buf', reserve true size buf = some buf' ∧ buf'.written = buf.written ∧
      size ≤ buf'.room := by
  induction missing : size - buf.room using Nat.strong_induction_on generalizing buf with
  | _ missing ih =>
      rw [reserve]
      by_cases small : buf.room < size
      · have grown := asnRealloc_room buf
        obtain ⟨buf', reserved, written, room⟩ :=
          ih (size - (asnRealloc buf).room) (by omega) (asnRealloc buf) rfl
        exact ⟨buf', by simpa [small] using reserved, by simpa using written, room⟩
      · exact ⟨buf, by simp [small], rfl, by omega⟩

theorem asnReallocBuildHeaderCheck_eq {buf : RBuf} {typedlen : Nat}
    (le : typedlen ≤ buf.written.length) : asnReallocBuildHeaderCheck buf typedlen = some buf := by
  have fits := buf.fits
  unfold asnReallocBuildHeaderCheck
  rw [if_neg (by omega)]

theorem ofNat_mod_256 (value : Nat) : UInt8.ofNat (value % 256) = UInt8.ofNat value := by
  apply UInt8.toNat_inj.mp
  simp

theorem toUChar_natCast (value : Nat) : toUChar value = UInt8.ofNat value := by
  apply UInt8.toNat_inj.mp
  rw [toNat_toUChar_natCast, UInt8.toNat_ofNat']

theorem or_0x80 (octet : Byte) : octet ||| 0x80 = UInt8.ofNat (128 + octet.toNat % 128) := by
  revert octet
  exact Octets.forall_octet (by decide +kernel)

theorem storeLengthOctets_spec (length : Nat) (buf : RBuf) :
    ∃ buf' top octets, storeLengthOctets true buf length = some (buf', top) ∧
      buf'.written = octets ++ buf.written ∧
      Octets.minimal length = toUChar top :: octets := by
  induction length using Nat.strong_induction_on generalizing buf with
  | _ length ih =>
      rw [storeLengthOctets]
      by_cases large : 255 < length
      · obtain ⟨buf₁, stored, written₁⟩ := wrote_storeByte buf (toUChar length)
        obtain ⟨buf₂, top, octets, rest, written₂, minimal_eq⟩ :=
          ih (length / 2 ^ 8) (by omega) buf₁
        refine ⟨buf₂, top, octets ++ [toUChar length], ?_, ?_, ?_⟩
        · simpa [large, stored] using rest
        · rw [written₂, written₁, List.append_assoc]
        · rw [Octets.minimal_large large, ofNat_mod_256, ← toUChar_natCast]
          have shift : length / 256 = length / 2 ^ 8 := by norm_num
          rw [shift, minimal_eq, List.cons_append]
      · refine ⟨buf, length, [], by simp [large], by simp, ?_⟩
        rw [Octets.minimal_small (by omega), toUChar_natCast]

theorem wrote_asnReallocRbuildLength (buf : RBuf) (length : Nat) :
    Wrote (asnReallocRbuildLength true buf length) (lengthOctets length) buf := by
  unfold asnReallocRbuildLength lengthOctets
  by_cases short : length ≤ 127
  · simpa [short, toUChar_natCast] using wrote_storeByte buf (toUChar length)
  · obtain ⟨buf₁, top, octets, stored, written₁, minimal_eq⟩ := storeLengthOctets_spec length buf
    obtain ⟨buf₂, reserved, written₂, room⟩ := reserve_spec 2 buf₁
    obtain ⟨buf₃, poked, written₃, room₃⟩ := poke_spec buf₂ (toUChar top) (by omega)
    have minimal_written : buf₃.written = Octets.minimal length ++ buf.written := by
      rw [written₃, written₂, written₁, minimal_eq, List.cons_append]
    obtain ⟨buf₄, poked', written₄, _⟩ := poke_spec buf₃
      (toUChar (Octets.minimal length).length ||| 0x80) (by omega)
    refine ⟨buf₄, ?_, ?_⟩
    · simp [short, stored, reserved, poked, Wrote.offset minimal_written, poked']
    · rw [written₄, minimal_written, or_0x80, toNat_toUChar_natCast,
        Nat.mod_mod_of_dvd _ (by norm_num : 128 ∣ 256), if_neg short, List.cons_append]

def headerOctets (type : Byte) (length : Nat) : List Byte := type :: lengthOctets length

def object (type : Byte) (contents : List Byte) : List Byte :=
  headerOctets type contents.length ++ contents

theorem encodes_object {type : Byte} {contents : List Byte} (small : contents.length < 2 ^ 63) :
    Encodes type contents (object type contents) :=
  ⟨lengthOctets contents.length, lengthField_lengthOctets small, rfl⟩

theorem wrote_asnReallocRbuildHeader (buf : RBuf) (type : Byte) (length : Nat) :
    Wrote (asnReallocRbuildHeader true buf type length) (headerOctets type length) buf :=
  (wrote_asnReallocRbuildLength buf length).bind fun buf' _ => wrote_storeByte buf' type

theorem Wrote.header {result : Option RBuf} {contents : List Byte} {buf : RBuf}
    (wrote : Wrote result contents buf) (type : Byte) (length : RBuf → Nat)
    (length_eq : ∀ buf', buf'.written = contents ++ buf.written → length buf' = contents.length) :
    Wrote (result >>= fun buf' => asnReallocRbuildHeader true buf' type (length buf'))
      (object type contents) buf :=
  wrote.bind fun buf' written => by
    rw [length_eq buf' written]
    exact wrote_asnReallocRbuildHeader buf' type contents.length

theorem testvalue_shift (integer : Int) : testvalue (integer / 2 ^ 8) = testvalue integer := by
  unfold testvalue
  split <;> split <;> omega

theorem append_low_octet {integer sign : Int} {octets : List Byte}
    (value : integer / 2 ^ 8 = sign * 256 ^ octets.length + Octets.beNat octets) :
    integer = sign * 256 ^ (octets ++ [toUChar integer]).length +
      Octets.beNat (octets ++ [toUChar integer]) := by
  have low := toNat_toUChar integer
  have shift : integer = integer / 2 ^ 8 * 256 + integer % 256 := by omega
  rw [List.length_append, List.length_singleton, pow_succ, Octets.beNat_append]
  simp only [Octets.beNat_cons, List.length_singleton, pow_one, List.length_nil, pow_zero,
    mul_one, Octets.beNat_nil, add_zero, Nat.cast_add, Nat.cast_mul, Nat.cast_ofNat, low]
  conv_lhs => rw [shift, value]
  ring

theorem isSign_testvalue (integer : Int) : testvalue integer = -1 ∨ testvalue integer = 0 := by
  unfold testvalue
  split <;> simp

theorem toUChar_ne_sign {integer sign : Int} (isSign : sign = -1 ∨ sign = 0)
    (next : integer / 2 ^ 8 = sign) (more : integer ≠ sign) : toUChar integer ≠ toUChar sign := by
  intro same
  have low := toNat_toUChar integer
  rw [same, toNat_toUChar] at low
  omega

theorem head_append_ne {octets : List Byte} {low sign : Byte} (first : octets = [] → low ≠ sign)
    (head : ∀ top ∈ octets.head?, top ≠ sign) : ∀ top ∈ (octets ++ [low]).head?, top ≠ sign := by
  cases octets with
  | nil => simpa using first rfl
  | cons top octets => simpa using head

theorem storeOctets_spec (width : Nat) (integer : Int) (lower : -256 ^ width ≤ integer)
    (upper : integer < 256 ^ width) :
    ∃ octets, octets.length ≤ width ∧
      integer = testvalue integer * 256 ^ octets.length + Octets.beNat octets ∧
      (octets = [] → integer = testvalue integer) ∧
      (∀ top ∈ octets.head?, top ≠ toUChar (testvalue integer)) ∧
      ∀ buf, Wrote (storeOctets true buf integer) octets buf := by
  induction width generalizing integer with
  | zero =>
      have same : integer = testvalue integer := by
        simp only [pow_zero] at lower upper
        unfold testvalue
        split <;> omega
      refine ⟨[], by simp, by simpa using same, fun _ => same, by simp, fun buf => ?_⟩
      rw [storeOctets, if_neg (by simpa using same)]
      exact .done
  | succ width ih =>
      by_cases same : integer = testvalue integer
      · refine ⟨[], by simp, by simpa using same, fun _ => same, by simp, fun buf => ?_⟩
        rw [storeOctets, if_neg (by simpa using same)]
        exact .done
      · have scale : (256 : Int) ^ (width + 1) = 256 ^ width * 256 := pow_succ _ _
        obtain ⟨octets, length_le, value, last, head, wrote⟩ :=
          ih (integer / 2 ^ 8) (by omega) (by omega)
        rw [testvalue_shift] at value last head
        refine ⟨octets ++ [toUChar integer], by simpa using length_le, append_low_octet value,
          by simp, ?_, fun buf => ?_⟩
        · exact head_append_ne
            (fun none => toUChar_ne_sign (isSign_testvalue integer) (last none) same) head
        · rw [storeOctets, if_pos same]
          exact (wrote_storeByte buf (toUChar integer)).bind fun buf' _ => wrote buf'

theorem fixSign_spec {contents : List Byte} {value sign : Int} (nonempty : contents ≠ [])
    (isSign : sign = -1 ∨ sign = 0)
    (value_eq : value = sign * 256 ^ contents.length + Octets.beNat contents) :
    ∃ octets, octets.length ≤ 1 ∧ (octets.length = 1 → octets.head? = some (toUChar sign)) ∧
      (-256 ^ contents.length ≤ 2 * value → 2 * value < 256 ^ contents.length → octets = []) ∧
      Octets.beInt (octets ++ contents) = value ∧
      ((2 ≤ contents.length → ∀ top ∈ contents.head?, top ≠ toUChar sign) →
        Octets.Shortest (octets ++ contents)) ∧
      ∀ buf, (∃ old, buf.written = contents ++ old) →
        Wrote (fixSign true buf sign) octets buf := by
  match contents, nonempty with
  | octet :: rest, _ =>
    have fill : toUChar sign = if decide (sign < 0) then 0xff else 0 := by
      rcases isSign with rfl | rfl <;> decide
    have shortest (differs : 2 ≤ (octet :: rest).length → ∀ top ∈ (octet :: rest).head?,
        top ≠ toUChar sign) := @Octets.shortest_of_fixed octet rest
      (decide (sign < 0)) fun more => by
        rw [← fill]
        apply differs
        · have pos := List.length_pos_iff.mpr more
          rw [List.length_cons]
          omega
        · rfl
    have value_eq' : value = (Octets.beNat (octet :: rest) : Int) -
        if decide (sign < 0) then 256 ^ (octet :: rest).length else 0 := by
      rw [value_eq]
      rcases isSign with rfl | rfl
      · simp
        ring
      · simp
    by_cases fixed : Octets.topBit octet = decide (sign < 0)
    · refine ⟨[], by simp, by simp, by simp, ?_, ?_, ?_⟩
      · exact Octets.beInt_eq_of_top _ value_eq' fixed
      · intro differs
        simpa only [if_pos fixed, List.nil_append] using shortest differs
      · rintro buf ⟨old, written⟩
        rw [fixSign, if_neg (by simp [written, hasBit8_eq, fixed])]
        exact .done
    · refine ⟨[toUChar sign], by simp, by simp, ?_, ?_, ?_, ?_⟩
      · intro lower upper
        have top := Octets.topBit_iff octet rest
        have cast : ((256 ^ (rest.length + 1) : Nat) : Int) = 256 ^ (rest.length + 1) := by simp
        rw [List.length_cons] at lower upper value_eq
        rcases isSign with rfl | rfl
        · simp only [Int.reduceNeg, Int.reduceLT, decide_true, Bool.not_eq_true] at fixed
          rw [fixed] at top
          simp only [Bool.false_eq_true, false_iff, not_le] at top
          omega
        · simp only [lt_self_iff_false, decide_false, Bool.not_eq_false] at fixed
          have large := top.mp fixed
          omega
      · rw [fill]
        exact Octets.beInt_sign_cons _ value_eq'
      · intro differs
        have short := shortest differs
        rw [if_neg fixed] at short
        rw [fill]
        exact short
      · rintro buf ⟨old, written⟩
        rw [fixSign, if_pos (by simp [written, hasBit8_eq, fixed])]
        exact wrote_storeByte buf (toUChar sign)

theorem rbuildOctets_spec (width : Nat) (integer : Int) (lower : -256 ^ (width + 1) ≤ integer)
    (upper : integer < 256 ^ (width + 1)) :
    ∃ contents, contents ≠ [] ∧ contents.length ≤ width + 2 ∧
      Octets.beInt contents = integer ∧ Octets.Shortest contents ∧
      ∀ buf, Wrote (rbuildOctets true buf integer) contents buf := by
  have scale : (256 : Int) ^ (width + 1) = 256 ^ width * 256 := pow_succ _ _
  obtain ⟨octets, length_le, value, _, head, wrote⟩ :=
    storeOctets_spec width (integer / 2 ^ 8) (by omega) (by omega)
  rw [testvalue_shift] at head
  have value_eq : integer = testvalue integer * 256 ^ (octets ++ [toUChar integer]).length +
      Octets.beNat (octets ++ [toUChar integer]) := by
    rw [testvalue_shift] at value
    exact append_low_octet value
  obtain ⟨signOctets, signLength, _, _, beInt_eq, shortest, wroteSign⟩ :=
    fixSign_spec (by simp) (isSign_testvalue integer) value_eq
  refine ⟨signOctets ++ (octets ++ [toUChar integer]), by simp, ?_, beInt_eq, shortest ?_,
    fun buf => ?_⟩
  · simp only [List.length_append, List.length_singleton]
    omega
  · intro more
    cases octets with
    | nil => exact absurd more (by simp)
    | cons top octets => simpa using head
  · unfold rbuildOctets
    have stored := (wrote_storeByte buf (toUChar integer)).bind fun buf' _ => wrote buf'
    rw [← bind_assoc]
    exact stored.bind fun buf' written => wroteSign buf' ⟨buf.written, written⟩

theorem length_object_ge (type : Byte) (contents : List Byte) :
    contents.length ≤ (object type contents).length := by
  simp [object]

theorem Wrote.objectChecked {result : Option RBuf} {contents : List Byte} {buf : RBuf}
    (wrote : Wrote result contents buf) (type : Byte) (length typedlen : RBuf → Nat)
    (length_eq : ∀ buf', buf'.written = contents ++ buf.written → length buf' = contents.length)
    (typedlen_le : ∀ buf', buf'.written = object type contents ++ buf.written →
      typedlen buf' ≤ buf'.written.length) :
    Wrote (result >>= fun buf' => asnReallocRbuildHeader true buf' type (length buf') >>=
      fun buf'' => asnReallocBuildHeaderCheck buf'' (typedlen buf''))
        (object type contents) buf := by
  rw [← bind_assoc]
  exact (wrote.header type length length_eq).andThen fun buf' written =>
    asnReallocBuildHeaderCheck_eq (typedlen_le buf' written)

theorem asnReallocRbuildInt_spec (type : Byte) (intp : Int) :
    ∃ contents, contents.length ≤ 5 ∧ Octets.beInt contents = checkOverflowS intp ∧
      Octets.Shortest contents ∧
      ∀ buf, Wrote (asnReallocRbuildInt true buf type intp) (object type contents) buf := by
  have range := checkOverflowS_range intp
  obtain ⟨contents, -, width, value, shortest, wrote⟩ :=
    rbuildOctets_spec 3 (checkOverflowS intp) (by norm_num; omega) (by norm_num; omega)
  refine ⟨contents, width, value, shortest, fun buf => ?_⟩
  refine (wrote buf).objectChecked type _ _ (fun buf' => Wrote.offset) fun buf' written => ?_
  simp only [RBuf.offset]
  omega

theorem wrote_asnReallocRbuildInt (type : Byte) {intp : Int} (lower : int32Min ≤ intp)
    (upper : intp ≤ int32Max) :
    ∃ contents, contents ≠ [] ∧ contents.length ≤ 8 ∧ Octets.beInt contents = intp ∧
      ∀ buf, Wrote (asnReallocRbuildInt true buf type intp) (object type contents) buf := by
  obtain ⟨contents, width, value, shortest, wrote⟩ := asnReallocRbuildInt_spec type intp
  rw [checkOverflowS_eq_self lower upper] at value
  exact ⟨contents, shortest.ne_nil, by omega, value, wrote⟩

theorem asnReallocRbuildUnsignedInt_spec (type : Byte) (intp : Nat) :
    ∃ contents, contents.length ≤ 5 ∧ Octets.beInt contents = checkOverflowU intp ∧
      Octets.Shortest contents ∧
      ∀ buf, Wrote (asnReallocRbuildUnsignedInt true buf type intp) (object type contents) buf := by
  have small := checkOverflowU_lt intp
  obtain ⟨contents, -, width, value, shortest, wrote⟩ :=
    rbuildOctets_spec 3 (checkOverflowU intp) (by omega) (by norm_num; omega)
  refine ⟨contents, width, value, shortest, fun buf => ?_⟩
  refine (wrote buf).objectChecked type _ _ (fun buf' => Wrote.offset) fun buf' written => ?_
  simp only [RBuf.offset]
  omega

theorem wrote_asnReallocRbuildUnsignedInt (type : Byte) {intp : Nat} (upper : intp ≤ uint32Max) :
    ∃ contents, contents ≠ [] ∧ contents.length ≤ 8 ∧ Octets.beNat contents = intp ∧
      ∀ buf, Wrote (asnReallocRbuildUnsignedInt true buf type intp) (object type contents) buf := by
  obtain ⟨contents, width, value, shortest, wrote⟩ := asnReallocRbuildUnsignedInt_spec type intp
  rw [checkOverflowU_eq_self upper] at value
  have value_eq := Octets.beNat_of_beInt_nonneg (show 0 ≤ Octets.beInt contents by omega)
  exact ⟨contents, shortest.ne_nil, by omega, by omega, wrote⟩

theorem wrote_asnReallocRbuildString (buf : RBuf) (type : Byte) (str : List Byte) :
    Wrote (asnReallocRbuildString true buf type str) (object type str) buf := by
  unfold asnReallocRbuildString
  obtain ⟨buf₁, reserved, written₁, room⟩ := reserve_spec str.length buf
  have wrote := (wrote_copyIn str room).objectChecked type (fun _ => str.length)
    (fun _ => str.length) (fun _ _ => rfl) fun buf' written => by
      rw [written, List.length_append]
      have le := length_object_ge type str
      omega
  obtain ⟨buf₂, stored, written₂⟩ := wrote
  exact ⟨buf₂, by simpa [reserved] using stored, by rw [written₂, written₁]⟩

theorem wrote_asnReallocRbuildNull (buf : RBuf) (type : Byte) :
    Wrote (asnReallocRbuildNull true buf type) (object type []) buf := by
  simpa [object, asnReallocRbuildNull] using wrote_asnReallocRbuildHeader buf type 0

theorem and_0x7f (octet : Byte) : octet &&& 0x7f = UInt8.ofNat (octet.toNat % 128) := by
  revert octet
  exact Octets.forall_octet (by decide +kernel)

theorem wrote_storeHighSubid (subid : Nat) (buf : RBuf) :
    Wrote (storeHighSubid true buf subid) (highOctets subid) buf := by
  induction subid using Nat.strong_induction_on generalizing buf with
  | _ subid ih =>
      rw [storeHighSubid]
      by_cases zero : subid = 0
      · rw [if_neg (by simpa using zero), zero, highOctets_zero]
        exact .done
      · rw [if_pos zero, highOctets_pos zero]
        have octet : UInt8.ofNat (128 + subid % 128) = toUChar subid ||| 0x80 := by
          rw [or_0x80, toNat_toUChar_natCast, Nat.mod_mod_of_dvd _ (by norm_num : 128 ∣ 256)]
        have shift : subid / 128 = subid / 2 ^ 7 := by norm_num
        rw [octet, shift]
        exact (wrote_storeByte buf _).bind fun buf' _ => ih (subid / 2 ^ 7) (by omega) buf'

theorem wrote_storeUint32 (subid : Nat) (buf : RBuf) :
    Wrote (storeUint32 true buf subid) (subidOctets subid) buf := by
  unfold storeUint32 subidOctets
  have octet : UInt8.ofNat (subid % 128) = toUChar subid &&& 0x7f := by
    rw [and_0x7f, toNat_toUChar_natCast, Nat.mod_mod_of_dvd _ (by norm_num : 128 ∣ 256)]
  have shift : subid / 128 = subid / 2 ^ 7 := by norm_num
  rw [octet, shift]
  exact (wrote_storeByte buf _).bind fun buf' _ => wrote_storeHighSubid (subid / 2 ^ 7) buf'

theorem wrote_storeSubids (reversed : Oid) (small : ∀ subid ∈ reversed, subid ≤ maxSubid)
    (buf : RBuf) :
    Wrote (storeSubids true buf reversed) (reversed.reverse.flatMap subidOctets) buf := by
  induction reversed generalizing buf with
  | nil => exact .done
  | cons subid reversed ih =>
      rw [storeSubids, List.reverse_cons, List.flatMap_append, List.flatMap_singleton,
        checkOverflowU_eq_self (small subid (by simp))]
      exact (wrote_storeUint32 subid buf).bind fun buf' _ =>
        ih (fun other mem => small other (by simp [mem])) buf'

theorem wrote_rbuildObjidContents {name : Oid} (encodable : EncodableOid name) (buf : RBuf) :
    Wrote (rbuildObjidContents true buf name) (oidContents name) buf := by
  cases encodable with
  | @mk first second more first_le second_lt combined subids length_le =>
      have rest := wrote_storeSubids more.reverse
        (fun subid mem => subids subid (by simpa using mem))
        buf
      rw [List.reverse_reverse] at rest
      have accepted : ¬ ((40 ≤ second ∧ first < 2) ∨ uint32Max - first * 40 < second) := by
        unfold maxSubid at combined
        unfold uint32Max
        omega
      rw [rbuildObjidContents, if_neg (by omega), oidContents, List.flatMap_cons]
      refine rest.bind fun buf' _ => ?_
      rw [if_neg accepted]
      exact wrote_storeUint32 (first * 40 + second) buf'

theorem wrote_asnReallocRbuildObjid (type : Byte) {name : Oid} (encodable : EncodableOid name)
    (buf : RBuf) :
    Wrote (asnReallocRbuildObjid true buf type name) (object type (oidContents name)) buf := by
  obtain ⟨buf₁, stored, written₁⟩ := wrote_rbuildObjidContents encodable buf
  have offset := Wrote.offset written₁
  have same : Wrote (some buf₁) (oidContents name) buf := ⟨buf₁, rfl, written₁⟩
  have wrote := same.objectChecked type (fun _ => (oidContents name).length)
    (fun _ => (oidContents name).length) (fun _ _ => rfl) fun buf' written => by
      rw [written, List.length_append]
      have le := length_object_ge type (oidContents name)
      omega
  obtain ⟨buf₂, checked, written₂⟩ := wrote
  refine ⟨buf₂, ?_, written₂⟩
  unfold asnReallocRbuildObjid
  simpa [stored, offset] using checked

end NetSnmp
