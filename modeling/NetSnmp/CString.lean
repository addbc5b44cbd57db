import Mathlib.Data.List.TakeWhile
import NetSnmp.LexCompare

/-!
# Strings of the C library

A string is the bytes in front of its terminating zero.  Bytes are compared as
unsigned characters, as `memcmp` and `strcmp` do.
-/

namespace NetSnmp

/-- The bytes of a C string, without the zero that ends it. -/
structure CString where
  chars : List Byte
  noNul : 0 ∉ chars
  deriving DecidableEq, Repr

namespace CString

theorem noNul_nil : (0 : Byte) ∉ [] := List.not_mem_nil

def strlen (str : CString) : Nat := str.chars.length

def ofBuffer (buffer : List Byte) : CString :=
  ⟨buffer.takeWhile (· ≠ 0), fun mem => by simpa using List.mem_takeWhile_imp mem⟩

theorem ext {str str' : CString} (chars_eq : str.chars = str'.chars) : str = str' := by
  cases str
  cases str'
  simpa using chars_eq

theorem ofBuffer_chars (str : CString) : ofBuffer str.chars = str := by
  apply ext
  have noNul := str.noNul
  apply List.takeWhile_eq_self_iff.mpr
  intro char mem
  simpa using ne_of_mem_of_not_mem mem noNul

end CString

def HoldsString (memory : Nat → Byte) (address : Nat) : List Byte → Prop
  | [] => memory address = 0
  | c :: str => memory address = c ∧ c ≠ 0 ∧ HoldsString memory (address + 1) str

theorem HoldsString.unique {memory : Nat → Byte} {address : Nat} {str str' : List Byte}
    (holds : HoldsString memory address str) (holds' : HoldsString memory address str') :
    str = str' := by
  induction str generalizing address str' with
  | nil =>
      cases str' with
      | nil => rfl
      | cons c' str' => exact absurd (holds'.1.symm.trans holds) holds'.2.1
  | cons c str ih =>
      cases str' with
      | nil => exact absurd (holds.1.symm.trans holds') holds.2.1
      | cons c' str' => rw [ih holds.2.2 holds'.2.2, holds.1.symm.trans holds'.1]

def byteValues (bytes : List Byte) : List Nat := bytes.map UInt8.toNat

theorem byteValues_inj {bytes bytes' : List Byte} :
    byteValues bytes = byteValues bytes' ↔ bytes = bytes' := by
  constructor
  · intro same
    exact List.map_injective_iff.mpr (fun _ _ => UInt8.toNat_inj.mp) same
  · intro same
    rw [same]

/-- `memcmp` of the first `count` bytes of two buffers. -/
def memcmp (left right : List Byte) (count : Nat) : Int :=
  lexCompare (byteValues (left.take count)) (byteValues (right.take count))

theorem memcmp_eq_zero_iff {left right : List Byte} {count : Nat} :
    memcmp left right count = 0 ↔ left.take count = right.take count := by
  rw [memcmp, lexCompare_eq_zero_iff, byteValues_inj]

def strcmp (left right : CString) : Int :=
  lexCompare (byteValues left.chars) (byteValues right.chars)

theorem strcmp_eq_zero_iff {left right : CString} : strcmp left right = 0 ↔ left = right := by
  rw [strcmp, lexCompare_eq_zero_iff, byteValues_inj]
  constructor
  · intro same
    exact CString.ext same
  · intro same
    rw [same]

end NetSnmp
