import Mathlib.Tactic.IntervalCases
import NetSnmp.Reader.Basic

/-!
# Addresses and masks

IP addresses as their octets in network byte order, and masks. The number in `s_addr` depends on the
byte order of the host; `&`, `~` and `==` act on each octet.
-/

namespace NetSnmp

/-- `struct in_addr` for four octets, `struct in6_addr` for sixteen. -/
abbrev InAddr (octets : Nat) := Vector Byte octets

namespace InAddr

variable {octets : Nat} {network mask source : InAddr octets}

def bit (a : InAddr octets) (i : Nat) : Bool := ((a[i / 8]?).getD 0).toBitVec.getMsbD (i % 8)

def zero : InAddr octets := Vector.replicate octets 0

def ones : InAddr octets := Vector.replicate octets 0xff

/-- `network & ~mask` is not zero. -/
def mismatch (network mask : InAddr octets) : Bool :=
  Vector.zipWith (fun n m => n &&& ~~~m) network mask ≠ zero

/-- `(source & mask) == network` -/
def agrees (source mask network : InAddr octets) : Bool :=
  Vector.zipWith (· &&& ·) source mask = network

def htonl (host : BitVec 32) : InAddr 4 :=
  #v[⟨host.extractLsb' 24 8⟩, ⟨host.extractLsb' 16 8⟩, ⟨host.extractLsb' 8 8⟩,
    ⟨host.extractLsb' 0 8⟩]

theorem bit_eq {i : Nat} (inside : i / 8 < octets) (a : InAddr octets) :
    a.bit i = a[i / 8].toBitVec.getMsbD (i % 8) := by
  rw [bit, Vector.getElem?_eq_getElem inside, Option.getD_some]

theorem ext_bit {a b : InAddr octets} (same : ∀ i < 8 * octets, a.bit i = b.bit i) : a = b := by
  apply Vector.ext
  intro octet inside
  apply UInt8.toBitVec_inj.mp
  apply BitVec.eq_of_getMsbD_eq
  intro i small
  have bits := same (8 * octet + i) (by omega)
  rw [bit_eq (by omega), bit_eq (by omega)] at bits
  have octet_eq : (8 * octet + i) / 8 = octet := by omega
  have bit_eq : (8 * octet + i) % 8 = i := by omega
  simpa only [octet_eq, bit_eq] using bits

theorem bit_zipWith {f : Byte → Byte → Byte} {g : Bool → Bool → Bool}
    (bitwise : ∀ (x y : Byte), ∀ i < 8,
      (f x y).toBitVec.getMsbD i = g (x.toBitVec.getMsbD i) (y.toBitVec.getMsbD i))
    (a b : InAddr octets) {i : Nat} (inside : i < 8 * octets) :
    bit (Vector.zipWith f a b) i = g (a.bit i) (b.bit i) := by
  rw [bit_eq (by omega), bit_eq (by omega), bit_eq (by omega), Vector.getElem_zipWith]
  exact bitwise _ _ _ (Nat.mod_lt _ (by decide))

theorem bit_zero {i : Nat} (inside : i < 8 * octets) : (zero : InAddr octets).bit i = false := by
  rw [bit_eq (by omega)]
  simp [zero]

theorem not_bit_zero {i : Nat} (inside : i < 8 * octets) :
    ¬ (zero : InAddr octets).bit i = true := by
  rw [bit_zero inside]
  exact Bool.false_ne_true

theorem octet_ones : ∀ i < 8, (0xff : Byte).toBitVec.getMsbD i = true := by decide

theorem bit_ones {i : Nat} (inside : i < 8 * octets) : (ones : InAddr octets).bit i = true := by
  rw [bit_eq (by omega)]
  simp only [ones, Vector.getElem_replicate]
  exact octet_ones _ (Nat.mod_lt _ (by decide))

theorem mismatch_eq_false_iff :
    mismatch network mask = false ↔ ∀ i < 8 * octets, network.bit i → mask.bit i := by
  have bits : ∀ i < 8 * octets,
      bit (Vector.zipWith (fun n m => n &&& ~~~m) network mask) i =
        (network.bit i && !mask.bit i) := fun i inside =>
    bit_zipWith (g := fun n m => n && !m)
      (fun x y i small => by simp [BitVec.getMsbD_not, small]) network mask inside
  rw [mismatch, decide_eq_false_iff_not, not_not]
  constructor
  · intro none i inside one
    have bit_eq := bits i inside
    rw [none, bit_zero inside, one] at bit_eq
    simpa using bit_eq.symm
  · intro covered
    apply ext_bit
    intro i inside
    rw [bits i inside, bit_zero inside]
    cases one : network.bit i with
    | false => rfl
    | true =>
        rw [covered i inside one]
        rfl

theorem agrees_iff (covered : ∀ i < 8 * octets, network.bit i → mask.bit i) :
    agrees source mask network ↔
      ∀ i < 8 * octets, mask.bit i → source.bit i = network.bit i := by
  have bits : ∀ i < 8 * octets, bit (Vector.zipWith (· &&& ·) source mask) i =
      (source.bit i && mask.bit i) := fun i inside =>
    bit_zipWith (g := and) (fun x y i _ => by simp) source mask inside
  rw [agrees, decide_eq_true_iff]
  constructor
  · intro same i inside one
    have bit_eq := bits i inside
    rw [same, one, Bool.and_true] at bit_eq
    exact bit_eq.symm
  · intro same
    apply ext_bit
    intro i inside
    rw [bits i inside]
    have here := same i inside
    have inMask := covered i inside
    cases one : mask.bit i with
    | true => rw [here one, Bool.and_true]
    | false =>
        rw [Bool.and_false]
        cases networkBit : network.bit i with
        | false => rfl
        | true => exact absurd (inMask networkBit) (by rw [one]; decide)

theorem mismatch_eq_any (network mask : InAddr octets) : network.mismatch mask =
    (List.finRange octets).any fun i => decide (network[i] &&& ~~~mask[i] ≠ 0) := by
  rw [Bool.eq_iff_iff, mismatch, decide_eq_true_iff, List.any_eq_true]
  constructor
  · intro different
    by_contra none
    apply different
    apply Vector.ext
    intro i inside
    rw [Vector.getElem_zipWith, zero, Vector.getElem_replicate]
    by_contra some
    exact none ⟨⟨i, inside⟩, List.mem_finRange _, decide_eq_true some⟩
  · rintro ⟨i, -, different⟩ same
    apply of_decide_eq_true different
    have octet := congrArg (fun a : InAddr octets => a[i]) same
    simpa [zero] using octet

theorem agrees_eq_all (source mask network : InAddr octets) : source.agrees mask network =
    (List.finRange octets).all fun i => decide (source[i] &&& mask[i] = network[i]) := by
  rw [Bool.eq_iff_iff, agrees, decide_eq_true_iff, List.all_eq_true]
  constructor
  · intro same i _
    apply decide_eq_true
    have octet := congrArg (fun a : InAddr octets => a[i]) same
    simpa using octet
  · intro all
    apply Vector.ext
    intro i inside
    rw [Vector.getElem_zipWith]
    exact of_decide_eq_true (all ⟨i, inside⟩ (List.mem_finRange _))

/-- `htonl((in_addr_t)(~0UL << (32 - maskLen)))` -/
def leading4 (maskLen : Nat) : InAddr 4 :=
  htonl ((BitVec.allOnes 64 <<< (32 - maskLen)).setWidth 32)

/-- The octets that are set for a length of `8 * j + jj` bits. -/
def leading6 (masklength : Nat) : InAddr 16 :=
  let j := masklength / 8
  let jj := masklength % 8
  Vector.ofFn fun i => if i.val < j then 0xff else if i.val = j then UInt8.ofNat (0xff <<< (8 - jj))
    else 0

theorem bit_htonl (host : BitVec 32) {i : Nat} (inside : i < 32) :
    (htonl host).bit i = host.getMsbD i := by
  rw [bit_eq (by omega)]
  interval_cases i <;> simp [htonl, BitVec.getMsbD]

theorem bit_leading4 {maskLen i : Nat} (inside : i < 32) (short : maskLen ≤ 32) :
    (leading4 maskLen).bit i = decide (i < maskLen) := by
  rw [leading4, bit_htonl _ inside]
  simp only [BitVec.getMsbD, BitVec.getLsbD_setWidth, BitVec.getLsbD_shiftLeft,
    BitVec.getLsbD_allOnes]
  by_cases set : i < maskLen
  · simp only [set]
    simp
    omega
  · simp only [set]
    simp
    omega

theorem octet_leading6 : ∀ jj < 8, ∀ i < 8,
    (UInt8.ofNat (0xff <<< (8 - jj))).toBitVec.getMsbD i = decide (i < jj) := by decide +kernel

theorem bit_leading6 {masklength i : Nat} (inside : i < 128) :
    (leading6 masklength).bit i = decide (i < masklength) := by
  rw [bit_eq (by omega)]
  simp only [leading6, Vector.getElem_ofFn]
  have small : i % 8 < 8 := Nat.mod_lt _ (by decide)
  have rest : masklength % 8 < 8 := Nat.mod_lt _ (by decide)
  split_ifs with before last
  · have set : i < masklength := by omega
    rw [decide_eq_true set]
    exact octet_ones _ small
  · have set : i < masklength ↔ i % 8 < masklength % 8 := by omega
    rw [decide_eq_decide.mpr set]
    exact octet_leading6 _ rest _ small
  · have set : ¬ i < masklength := by omega
    rw [decide_eq_false set]
    simp

end InAddr

end NetSnmp
