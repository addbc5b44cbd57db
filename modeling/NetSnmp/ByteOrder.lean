import Mathlib.Data.List.Basic
import NetSnmp.Reader.Basic

/-!
# Byte order

Numbers in memory, most or least significant byte first.
-/

namespace NetSnmp

/-- The order of the bytes of a number in memory. -/
inductive ByteOrder where
  | bigEndian
  | littleEndian
  deriving DecidableEq, Repr

def lowFirst : (width : Nat) → (value : Nat) → List Byte
  | 0, _ => []
  | width + 1, value => UInt8.ofNat (value % 256) :: lowFirst width (value / 256)

def lowFirstValue : List Byte → Nat
  | [] => 0
  | byte :: bytes => byte.toNat + 256 * lowFirstValue bytes

namespace ByteOrder

def store (order : ByteOrder) (width value : Nat) : List Byte :=
  match order with
  | .bigEndian => (lowFirst width value).reverse
  | .littleEndian => lowFirst width value

def load (order : ByteOrder) (bytes : List Byte) : Nat :=
  match order with
  | .bigEndian => lowFirstValue bytes.reverse
  | .littleEndian => lowFirstValue bytes

def swap (width value : Nat) : Nat := bigEndian.load (littleEndian.store width value)

end ByteOrder

variable {order : ByteOrder} {width value : Nat} {bytes : List Byte}

@[simp]
theorem length_lowFirst (width value : Nat) : (lowFirst width value).length = width := by
  induction width generalizing value with
  | zero => rfl
  | succ width ih => simp [lowFirst, ih]

theorem lowFirstValue_lowFirst (width value : Nat) :
    lowFirstValue (lowFirst width value) = value % 256 ^ width := by
  induction width generalizing value with
  | zero => simp [lowFirst, lowFirstValue, Nat.mod_one]
  | succ width ih =>
      have byte : (UInt8.ofNat (value % 256)).toNat = value % 256 := by
        simp only [UInt8.toNat_ofNat']
        omega
      rw [lowFirst, lowFirstValue, byte, ih, Nat.pow_succ', Nat.mod_mul]

theorem lowFirst_lowFirstValue (bytes : List Byte) :
    lowFirst bytes.length (lowFirstValue bytes) = bytes := by
  induction bytes with
  | nil => rfl
  | cons byte bytes ih =>
      have small := byte.toNat_lt
      have low : (byte.toNat + 256 * lowFirstValue bytes) % 256 = byte.toNat := by omega
      have high : (byte.toNat + 256 * lowFirstValue bytes) / 256 = lowFirstValue bytes := by omega
      rw [List.length_cons, lowFirst, lowFirstValue, low, high, ih, UInt8.ofNat_toNat]

namespace ByteOrder

@[simp]
theorem length_store (order : ByteOrder) (width value : Nat) :
    (order.store width value).length = width := by
  cases order with
  | bigEndian => simp [store]
  | littleEndian => simp [store]

theorem load_store (order : ByteOrder) (width value : Nat) :
    order.load (order.store width value) = value % 256 ^ width := by
  cases order with
  | bigEndian => simp [load, store, lowFirstValue_lowFirst]
  | littleEndian => simp [load, store, lowFirstValue_lowFirst]

theorem store_load (length_eq : bytes.length = width) :
    order.store width (order.load bytes) = bytes := by
  cases order with
  | bigEndian =>
      have reversed := lowFirst_lowFirstValue bytes.reverse
      rw [List.length_reverse, length_eq] at reversed
      simp [store, load, reversed]
  | littleEndian =>
      subst length_eq
      exact lowFirst_lowFirstValue bytes

theorem store_littleEndian_swap (width value : Nat) :
    littleEndian.store width (swap width value) = bigEndian.store width value := by
  have reversed := lowFirst_lowFirstValue (lowFirst width value).reverse
  rw [List.length_reverse, length_lowFirst] at reversed
  exact reversed

theorem swap_load_littleEndian (length_eq : bytes.length = width) :
    swap width (littleEndian.load bytes) = bigEndian.load bytes := by
  rw [swap, store_load length_eq]

end ByteOrder

theorem lowFirstValue_lt (bytes : List Byte) : lowFirstValue bytes < 256 ^ bytes.length := by
  induction bytes with
  | nil => exact Nat.one_pos
  | cons byte bytes ih =>
      have small := byte.toNat_lt
      rw [lowFirstValue, List.length_cons, Nat.pow_succ]
      omega

theorem ByteOrder.load_lt (order : ByteOrder) (bytes : List Byte) :
    order.load bytes < 256 ^ bytes.length := by
  cases order with
  | bigEndian =>
      have bound := lowFirstValue_lt bytes.reverse
      rwa [List.length_reverse] at bound
  | littleEndian => exact lowFirstValue_lt bytes

end NetSnmp
