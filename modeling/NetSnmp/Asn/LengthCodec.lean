import NetSnmp.Asn.Accepted
import NetSnmp.Asn.BuildWrites
import NetSnmp.Asn.FixedBuffer

/-!
# Length fields, written and read back

There are three writers of a length field: the forward one with up to two
octets, the two octets of a sequence, and the reverse one with as many as it
takes.  The reader takes up to eight, for a length that is not negative.
-/

namespace NetSnmp

open Ber Reader

theorem buildLengthOctets_eq {length : Nat} (small : length ≤ 0xffff) :
    buildLengthOctets length = lengthOctets length := by
  unfold buildLengthOctets lengthOctets
  by_cases short : length ≤ 127
  · rw [if_pos (by omega), if_pos short, toUChar_natCast]
  · rw [if_neg (by omega), if_neg short]
    by_cases medium : length ≤ 0xff
    · have octets : Octets.minimal length = [UInt8.ofNat length] := by
        rw [Octets.minimal, if_neg (by omega)]
      rw [if_pos medium, octets, toUChar_natCast]
      rfl
    · have octets : Octets.minimal length =
          [UInt8.ofNat (length / 256), UInt8.ofNat (length % 256)] := by
        rw [Octets.minimal, if_pos (by omega), Octets.minimal, if_neg (by omega)]
        simp
      have high : length / 2 ^ 8 % 2 ^ 8 = length / 256 := by omega
      rw [if_neg medium, octets, high, toUChar_natCast, toUChar_natCast]
      rfl

theorem builtObject_eq_object {type : Byte} {contents : List Byte}
    (small : contents.length ≤ 0xffff) : builtObject type contents = object type contents := by
  rw [builtObject, object, headerOctets, buildLengthOctets_eq small]

def ReadsBack (field : List Byte) (length : Nat) : Prop :=
  ∀ rest, (asnParseLength (field ++ rest)).outcome = .ok (rest, length)

theorem readsBack_of_lengthField {field : List Byte} {length : Nat}
    (lengthField : LengthField field length) : ReadsBack field length := by
  intro rest
  exact asnParseLength_eq_ok_iff.mpr ⟨field, lengthField, rfl⟩

theorem ReadsBack.eq {field : List Byte} {length length' : Nat} (reads : ReadsBack field length)
    (lengthField : LengthField field length') : length = length' := by
  have read := reads []
  rw [readsBack_of_lengthField lengthField []] at read
  obtain rfl : length' = length := by simpa using read
  rfl

theorem ReadsBack.lengthField {field : List Byte} {length : Nat} (reads : ReadsBack field length) :
    LengthField field length := by
  rcases asnParseLength_eq_ok_iff.mp (reads []) with ⟨field', lengthField, field_eq⟩
  rw [List.append_nil, List.append_nil] at field_eq
  subst field_eq
  exact lengthField

theorem readsBack_twoOctets_iff {length : Nat} :
    ReadsBack [0x82, toUChar (length / 2 ^ 8 % 2 ^ 8 : Nat), toUChar (length % 2 ^ 8 : Nat)]
      length ↔ length ≤ 0xffff := by
  have value : Octets.beNat [toUChar (length / 2 ^ 8 % 2 ^ 8 : Nat),
      toUChar (length % 2 ^ 8 : Nat)] = length % 2 ^ 16 := by
    simp only [Octets.beNat_cons, Octets.beNat_nil, toNat_toUChar_natCast, List.length_cons,
      List.length_nil]
    omega
  have lengthField : LengthField [0x82, toUChar (length / 2 ^ 8 % 2 ^ 8 : Nat),
      toUChar (length % 2 ^ 8 : Nat)] (length % 2 ^ 16) := by
    rw [← value]
    apply LengthField.long
    · rfl
    · simp
    · simp
    · rw [value]
      omega
  constructor
  · intro reads
    have same := reads.eq lengthField
    omega
  · intro small
    have same : length % 2 ^ 16 = length := by omega
    rw [same] at lengthField
    exact readsBack_of_lengthField lengthField

theorem readsBack_buildLengthOctets_iff {length : Nat} :
    ReadsBack (buildLengthOctets length) length ↔ length ≤ 0xffff := by
  constructor
  · intro reads
    by_contra large
    rw [buildLengthOctets, if_neg (by omega), if_neg (by omega)] at reads
    exact large (readsBack_twoOctets_iff.mp reads)
  · intro small
    exact readsBack_of_lengthField (lengthField_buildLengthOctets small)

theorem readsBack_lengthOctets_iff {length : Nat} :
    ReadsBack (lengthOctets length) length ↔ length < 2 ^ 63 := by
  constructor
  · intro reads
    exact reads.lengthField.lt
  · intro small
    exact readsBack_of_lengthField (lengthField_lengthOctets small)

/-- What a forward routine that writes a header leaves in front of the pointer. -/
def WritesField (build : WBuf → Option WBuf) (type : Byte) (length : Nat) (reads : Prop) : Prop :=
  ∀ buf buf', build buf = some buf' →
    ∃ field, buf'.written = buf.written ++ type :: field ∧ (ReadsBack field length ↔ reads)

/-- What a reverse routine that writes a header leaves in front of the contents. -/
def WritesFieldBackwards (build : Bool → RBuf → Option RBuf) (type : Byte) (length : Nat)
    (reads : Prop) : Prop :=
  ∀ r buf buf', build r buf = some buf' →
    ∃ field, buf'.written = type :: field ++ buf.written ∧ (ReadsBack field length ↔ reads)

/-- A length that a header is written for is read back exactly when it has at most two octets, or,
for a header that is written backwards, when its top bit is clear. -/
theorem lengthCodec_iff (type : Byte) (length : Nat) :
    WritesField (asnBuildHeader · type length) type length (length ≤ 0xffff) ∧
    WritesField (asnBuildSequence · type length) type length (length ≤ 0xffff) ∧
    WritesFieldBackwards (asnReallocRbuildHeader · · type length) type length (length < 2 ^ 63) ∧
    WritesFieldBackwards (asnReallocRbuildSequence · · type length) type length
      (length < 2 ^ 63) := by
  have backwards : WritesFieldBackwards (asnReallocRbuildHeader · · type length) type length
      (length < 2 ^ 63) := by
    intro r buf buf' written
    refine ⟨lengthOctets length, ?_, readsBack_lengthOctets_iff⟩
    exact (same_asnReallocRbuildHeader buf type length).written_eq
      (wrote_asnReallocRbuildHeader buf type length) written
  refine ⟨?_, ?_, backwards, backwards⟩
  · intro buf buf' built
    rw [appends_asnBuildHeader type length buf] at built
    exact ⟨buildLengthOctets length, (WBuf.written_of_append built).1,
      readsBack_buildLengthOctets_iff⟩
  · intro buf buf' built
    simp only [asnBuildSequence] at built
    split at built
    · exact absurd built (by simp)
    · exact ⟨_, (WBuf.written_of_append built).1, readsBack_twoOctets_iff⟩

/-- A header for 65536 bytes of contents is written, and says that there are none. -/
theorem asnBuildHeader_truncates :
    asnBuildHeader ⟨[], [0, 0, 0, 0]⟩ asnOctetStr 0x10000 = some ⟨[0x04, 0x82, 0, 0], []⟩ ∧
      (asnParseLength [0x82, 0, 0]).outcome = .ok ([], 0) ∧ ¬ ReadsBack [0x82, 0, 0] 0x10000 := by
  have read : (asnParseLength [0x82, 0, 0]).outcome = .ok ([], 0) := by decide
  refine ⟨by decide, read, ?_⟩
  intro reads
  have same := (reads []).symm.trans read
  exact absurd same (by decide)

end NetSnmp
