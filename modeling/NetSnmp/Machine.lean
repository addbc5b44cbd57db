import NetSnmp.Reader.Basic

/-!
# Machine integers

The conversions between the integer types of a C program on a machine with a
64-bit `long` and a 32-bit `int`, on the values themselves: an unsigned type is
a natural number, a signed type an integer, and a conversion reduces modulo the
width of its target.
-/

namespace NetSnmp

/-- The signed number with the given bits, for a type of `width` bits. -/
def signedOfBits (width bits : Nat) : Int :=
  if bits < 2 ^ (width - 1) then bits else (bits : Int) - 2 ^ width

/-- Conversion to `int`. -/
def toCInt (value : Int) : Int := signedOfBits 32 (value % 2 ^ 32).toNat

/-- Conversion to `long`. -/
def toCLong (value : Int) : Int := signedOfBits 64 (value % 2 ^ 64).toNat

/-- Conversion to `size_t` or `u_long`. -/
def toSizeT (value : Int) : Nat := (value % 2 ^ 64).toNat

/-- Conversion to `u_char`. -/
def toUChar (value : Int) : Byte := UInt8.ofNat (value % 256).toNat

/-- The size that `snmp_realloc` gives to a buffer of `bufLen` bytes. -/
def snmpReallocLen (bufLen : Nat) : Nat :=
  if bufLen ≤ 255 then bufLen + 256
  else if bufLen ≤ 8191 then bufLen * 2
  else bufLen + 8192

theorem le_snmpReallocLen (bufLen : Nat) : bufLen + 256 ≤ snmpReallocLen bufLen := by
  unfold snmpReallocLen
  split
  · omega
  · split <;> omega

theorem toCInt_eq_self {value : Nat} (small : value < 2 ^ 31) : toCInt value = value := by
  unfold toCInt signedOfBits
  split <;> omega

theorem toCInt_eq_self_of_range {value : Int} (lower : -2 ^ 31 ≤ value) (upper : value < 2 ^ 31) :
    toCInt value = value := by
  unfold toCInt signedOfBits
  split <;> omega

theorem toCLong_eq_self_of_range {value : Int} (lower : -2 ^ 63 ≤ value) (upper : value < 2 ^ 63) :
    toCLong value = value := by
  unfold toCLong signedOfBits
  split <;> omega

@[simp]
theorem toCInt_zero : toCInt 0 = 0 := rfl

theorem toCLong_eq_self {value : Nat} (small : value < 2 ^ 63) : toCLong value = value := by
  unfold toCLong signedOfBits
  split <;> omega

theorem toCInt_neg {value : Nat} (sign : 2 ^ 31 ≤ value % 2 ^ 32) : toCInt value < 0 := by
  unfold toCInt signedOfBits
  split <;> omega

theorem toCInt_nonneg_iff (value : Nat) : 0 ≤ toCInt value ↔ value % 2 ^ 32 < 2 ^ 31 := by
  unfold toCInt signedOfBits
  split <;> omega

theorem toCInt_le_self (value : Nat) : toCInt value ≤ value := by
  unfold toCInt signedOfBits
  split <;> omega

theorem toCInt_lt (value : Int) : toCInt value < 2 ^ 31 := by
  unfold toCInt signedOfBits
  split <;> omega

theorem toCInt_ge (value : Int) : -2 ^ 31 ≤ toCInt value := by
  unfold toCInt signedOfBits
  split <;> omega

theorem toCInt_emod {value : Nat} (small : value < 2 ^ 32) : toCInt value % 2 ^ 32 = value := by
  unfold toCInt signedOfBits
  split <;> omega

theorem toSizeT_eq_self {value : Nat} (small : value < 2 ^ 64) : toSizeT value = value := by
  unfold toSizeT
  omega

theorem toSizeT_of_nonneg {value : Int} (nonneg : 0 ≤ value) (small : value < 2 ^ 64) :
    toSizeT value = value.toNat := by
  unfold toSizeT
  omega

theorem toSizeT_sub {minuend subtrahend : Nat} (le : subtrahend ≤ minuend)
    (small : minuend < 2 ^ 64) : toSizeT ((minuend : Int) - subtrahend) = minuend - subtrahend := by
  unfold toSizeT
  omega

theorem toSizeT_lt (value : Int) : toSizeT value < 2 ^ 64 := by
  unfold toSizeT
  omega

@[simp]
theorem toNat_toUChar (value : Int) : ((toUChar value).toNat : Int) = value % 256 := by
  unfold toUChar
  rw [UInt8.toNat_ofNat']
  omega

theorem toNat_toUChar_natCast (value : Nat) : (toUChar value).toNat = value % 256 := by
  have cast := toNat_toUChar value
  omega

/-- The machine is the one the source tests for with `sizeof (long)`. -/
def sizeofLong : Nat := 8

/-- The largest `int32_t`. -/
def int32Max : Int := 2147483647

/-- The smallest `int32_t`. -/
def int32Min : Int := -2147483648

/-- The largest `uint32_t`. -/
def uint32Max : Nat := 4294967295

def checkOverflowS (x : Int) : Int :=
  if int32Max < x then x % 2 ^ 32
  else if x < int32Min then 0 - x % 2 ^ 32
  else x

def checkOverflowU (x : Nat) : Nat :=
  if uint32Max < x then x % 2 ^ 32 else x

theorem checkOverflowS_eq_self {x : Int} (lower : int32Min ≤ x) (upper : x ≤ int32Max) :
    checkOverflowS x = x := by
  unfold checkOverflowS
  rw [if_neg (by omega), if_neg (by omega)]

theorem checkOverflowU_eq_self {x : Nat} (upper : x ≤ uint32Max) : checkOverflowU x = x := by
  unfold checkOverflowU
  rw [if_neg (by omega)]

theorem checkOverflowU_eq_mod (x : Nat) : checkOverflowU x = x % 2 ^ 32 := by
  unfold checkOverflowU uint32Max
  split <;> omega

theorem checkOverflowU_lt (x : Nat) : checkOverflowU x < 2 ^ 32 := by
  rw [checkOverflowU_eq_mod]
  omega

theorem checkOverflowS_range (x : Int) : -2 ^ 32 < checkOverflowS x ∧
    checkOverflowS x < 2 ^ 32 := by
  unfold checkOverflowS int32Max int32Min
  split
  · omega
  · split <;> omega

end NetSnmp
