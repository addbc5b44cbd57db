import NetSnmp.Octets

/-!
# Tag, length and contents

The encoding of an object as a tag octet, a length field and the contents, as a
relation: a length may be encoded in more than one way, and which one an encoder
chooses is of no concern to a decoder.
-/

namespace NetSnmp.Ber

/-- A field that encodes a length: one octet below 128, or the number of the octets that
follow and these octets, most significant first. -/
inductive LengthField : List Byte → Nat → Prop
  | short (octet : Byte) (small : octet.toNat < 128) : LengthField [octet] octet.toNat
  | long {count : Byte} {octets : List Byte} (count_eq : count.toNat = 128 + octets.length)
      (nonempty : octets ≠ []) (width : octets.length ≤ 8)
      (positive : Octets.beNat octets < 2 ^ 63) :
      LengthField (count :: octets) (Octets.beNat octets)

def lengthOctets (length : Nat) : List Byte :=
  if length ≤ 127 then [UInt8.ofNat length]
  else UInt8.ofNat (128 + (Octets.minimal length).length % 128) :: Octets.minimal length

/-- `encoding` is an object with the given tag and contents. -/
def Encodes (tag : Byte) (contents encoding : List Byte) : Prop :=
  ∃ field, LengthField field contents.length ∧ encoding = tag :: (field ++ contents)

/-- The octets of a subidentifier above its low seven bits, each with the top bit set. -/
def highOctets (subidentifier : Nat) : List Byte :=
  if subidentifier = 0 then []
  else highOctets (subidentifier / 128) ++ [UInt8.ofNat (128 + subidentifier % 128)]

def subidOctets (subidentifier : Nat) : List Byte :=
  highOctets (subidentifier / 128) ++ [UInt8.ofNat (subidentifier % 128)]

def oidContents : List Nat → List Byte
  | first :: second :: rest => ((first * 40 + second) :: rest).flatMap subidOctets
  | _ => []

theorem lengthField_lengthOctets {length : Nat} (small : length < 2 ^ 63) :
    LengthField (lengthOctets length) length := by
  unfold lengthOctets
  by_cases short : length ≤ 127
  · rw [if_pos short]
    have toNat_eq : (UInt8.ofNat length).toNat = length := by
      rw [UInt8.toNat_ofNat']
      omega
    have field := LengthField.short (UInt8.ofNat length) (by omega)
    rwa [toNat_eq] at field
  · rw [if_neg short]
    have width := Octets.length_minimal_le (by omega : 0 < 8)
      (lt_of_lt_of_le small (by norm_num))
    have value := Octets.beNat_minimal length
    have toNat_eq : (UInt8.ofNat (128 + (Octets.minimal length).length % 128)).toNat =
        128 + (Octets.minimal length).length := by
      rw [UInt8.toNat_ofNat']
      omega
    have field := LengthField.long toNat_eq (Octets.minimal_ne_nil length) width (by rwa [value])
    rwa [value] at field

theorem LengthField.length_pos {field : List Byte} {length : Nat}
    (encodes : LengthField field length) : 0 < field.length := by
  cases encodes <;> simp

theorem LengthField.length_le {field : List Byte} {length : Nat}
    (encodes : LengthField field length) : field.length ≤ 9 := by
  cases encodes with
  | short octet small => simp
  | long count_eq nonempty width positive =>
      simp only [List.length_cons]
      omega

theorem LengthField.lt {field : List Byte} {length : Nat}
    (encodes : LengthField field length) : length < 2 ^ 63 := by
  cases encodes with
  | short octet small => omega
  | long count_eq nonempty width positive => exact positive

theorem Encodes.length_ge {tag : Byte} {contents encoding : List Byte}
    (encodes : Encodes tag contents encoding) : contents.length + 2 ≤ encoding.length := by
  rcases encodes with ⟨field, lengthField, rfl⟩
  have pos := lengthField.length_pos
  simp only [List.length_cons, List.length_append]
  omega

end NetSnmp.Ber
