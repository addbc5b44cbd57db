import NetSnmp.Machine

/-!
# Numbers as octets, most significant first

The value of a list of octets, unsigned and in two's complement, and the effect
on it of the loops that shift octets in one at a time or extend a sign.
-/

namespace NetSnmp.Octets

def beNat : List Byte → Nat
  | [] => 0
  | octet :: octets => octet.toNat * 256 ^ octets.length + beNat octets

def minimal (value : Nat) : List Byte :=
  if 255 < value then minimal (value / 256) ++ [UInt8.ofNat (value % 256)]
  else [UInt8.ofNat value]
termination_by value
decreasing_by omega

def topBit (octet : Byte) : Bool := decide (128 ≤ octet.toNat)

/-- The number that a list of octets denotes in two's complement, most significant first. -/
def beInt : List Byte → Int
  | [] => 0
  | octet :: octets =>
      (beNat (octet :: octets) : Int) -
        if topBit octet then 256 ^ (octets.length + 1) else 0

theorem forall_octet {property : Byte → Prop}
    (all : ∀ value : Fin 256, property (UInt8.ofNat value)) (octet : Byte) : property octet := by
  simpa using all ⟨octet.toNat, octet.toNat_lt⟩

@[simp]
theorem beNat_nil : beNat [] = 0 := rfl

@[simp]
theorem beNat_cons (octet : Byte) (octets : List Byte) :
    beNat (octet :: octets) = octet.toNat * 256 ^ octets.length + beNat octets := rfl

theorem beNat_append (high low : List Byte) :
    beNat (high ++ low) = beNat high * 256 ^ low.length + beNat low := by
  induction high with
  | nil => simp
  | cons octet high ih =>
      simp only [List.cons_append, beNat_cons, List.length_append, ih, pow_add]
      ring

theorem beNat_lt (octets : List Byte) : beNat octets < 256 ^ octets.length := by
  induction octets with
  | nil => simp
  | cons octet octets ih =>
      have bound : octet.toNat ≤ 255 := by have := octet.toNat_lt; omega
      calc beNat (octet :: octets)
          < octet.toNat * 256 ^ octets.length + 256 ^ octets.length := by simpa using ih
        _ = (octet.toNat + 1) * 256 ^ octets.length := by ring
        _ ≤ 256 * 256 ^ octets.length := Nat.mul_le_mul_right _ (by omega)
        _ = 256 ^ (octet :: octets).length := by simp [pow_succ, Nat.mul_comm]

theorem topBit_iff (octet : Byte) (octets : List Byte) :
    topBit octet = true ↔ 256 ^ (octets.length + 1) ≤ 2 * beNat (octet :: octets) := by
  have bound := beNat_lt octets
  rw [topBit, decide_eq_true_eq, beNat_cons, pow_succ]
  constructor
  · intro top
    have scaled := Nat.mul_le_mul_right (256 ^ octets.length) top
    omega
  · intro large
    by_contra small
    have scaled := Nat.mul_le_mul_right (256 ^ octets.length) (show octet.toNat ≤ 127 by omega)
    omega

theorem minimal_small {value : Nat} (small : value ≤ 255) :
    minimal value = [UInt8.ofNat value] := by
  rw [minimal, if_neg (by omega)]

theorem minimal_large {value : Nat} (large : 255 < value) :
    minimal value = minimal (value / 256) ++ [UInt8.ofNat (value % 256)] := by
  rw [minimal, if_pos large]

theorem minimal_ne_nil (value : Nat) : minimal value ≠ [] := by
  rw [minimal]
  split <;> simp

theorem beNat_minimal (value : Nat) : beNat (minimal value) = value := by
  induction value using Nat.strong_induction_on with
  | _ value ih =>
      by_cases large : 255 < value
      · rw [minimal_large large, beNat_append, ih _ (by omega)]
        simp only [List.length_singleton, pow_one, beNat_cons, List.length_nil, pow_zero, mul_one,
          beNat_nil, add_zero, UInt8.toNat_ofNat']
        omega
      · rw [minimal_small (by omega)]
        simp only [beNat_cons, List.length_nil, pow_zero, mul_one, beNat_nil, add_zero,
          UInt8.toNat_ofNat']
        omega

theorem length_minimal_le {value width : Nat} (pos : 0 < width) (small : value < 256 ^ width) :
    (minimal value).length ≤ width := by
  induction width generalizing value with
  | zero => omega
  | succ width ih =>
      by_cases large : 255 < value
      · rw [minimal_large large, List.length_append, List.length_singleton]
        have widthPos : 0 < width := by
          rcases width with _ | width
          · norm_num at small
            omega
          · omega
        have quotient : value / 256 < 256 ^ width := by
          rw [Nat.div_lt_iff_lt_mul (by norm_num)]
          rwa [pow_succ] at small
        have shorter := ih widthPos quotient
        omega
      · rw [minimal_small (by omega)]
        simp

theorem beNat_replicate_zero (count : Nat) : beNat (List.replicate count 0) = 0 := by
  induction count with
  | zero => rfl
  | succ count ih => simp [List.replicate_succ, ih]

theorem beNat_replicate_ones (count : Nat) :
    beNat (List.replicate count 0xff) + 1 = 256 ^ count := by
  induction count with
  | zero => rfl
  | succ count ih =>
      simp only [List.replicate_succ, beNat_cons, List.length_replicate, pow_succ]
      have ones : (0xff : Byte).toNat = 255 := rfl
      rw [ones]
      omega

theorem foldl_shift (octets : List Byte) (start : Nat) :
    octets.foldl (fun value octet => value * 256 + octet.toNat) start =
      start * 256 ^ octets.length + beNat octets := by
  induction octets generalizing start with
  | nil => simp
  | cons octet octets ih =>
      simp only [List.foldl_cons, ih, beNat_cons, List.length_cons, pow_succ]
      ring

theorem foldl_shift_mod (octets : List Byte) {start : Nat} (small : start < 2 ^ 64) :
    octets.foldl (fun value octet => (value * 256 + octet.toNat) % 2 ^ 64) start =
      (start * 256 ^ octets.length + beNat octets) % 2 ^ 64 := by
  induction octets generalizing start with
  | nil => simpa using (Nat.mod_eq_of_lt small).symm
  | cons octet octets ih =>
      rw [List.foldl_cons, ih (Nat.mod_lt _ (by norm_num)), Nat.add_mod, Nat.mod_mul_mod,
        ← Nat.add_mod, beNat_cons, List.length_cons, pow_succ]
      congr 1
      ring

def halves (value : Int) : Nat × Nat :=
  ((value % 2 ^ 64).toNat / 2 ^ 32, (value % 2 ^ 64).toNat % 2 ^ 32)

theorem beNat_of_beInt_nonneg {octets : List Byte} (nonneg : 0 ≤ beInt octets) :
    (beNat octets : Int) = beInt octets := by
  match octets with
  | [] => rfl
  | octet :: octets =>
      have bound := beNat_lt (octet :: octets)
      by_cases top : topBit octet = true
      · simp only [beInt, top, if_true] at nonneg
        have cast : ((256 ^ (octet :: octets).length : Nat) : Int) = 256 ^ (octets.length + 1) := by
          simp
        omega
      · simp [beInt, top]

theorem beInt_eq_of_top {octet : Byte} {octets : List Byte} {value : Int} (negative : Bool)
    (value_eq : value =
      (beNat (octet :: octets) : Int) - if negative then 256 ^ (octets.length + 1) else 0)
    (top : topBit octet = negative) : beInt (octet :: octets) = value := by
  rw [value_eq, ← top]
  rfl

theorem beInt_sign_cons {octets : List Byte} {value : Int} (negative : Bool)
    (value_eq : value =
      (beNat octets : Int) - if negative then 256 ^ octets.length else 0) :
    beInt ((if negative then 0xff else 0) :: octets) = value := by
  cases negative with
  | false => simpa [beInt, topBit] using value_eq.symm
  | true =>
      have ones : (0xff : Byte).toNat = 255 := rfl
      simp only [if_true] at value_eq ⊢
      simp only [beInt, topBit, beNat_cons, ones, value_eq]
      simp [pow_succ]
      ring

theorem toCLong_signExtend {octet : Byte} {octets : List Byte}
    (short : octets.length < 8) :
    toCLong (beNat (List.replicate (8 - (octet :: octets).length)
        (if topBit octet then 0xff else 0) ++ octet :: octets)) =
      beInt (octet :: octets) := by
  have bound := beNat_lt (octet :: octets)
  have width : 256 ^ (8 - (octet :: octets).length) * 256 ^ (octet :: octets).length =
      (2 : Nat) ^ 64 := by
    rw [← pow_add]
    have total : 8 - (octet :: octets).length + (octet :: octets).length = 8 := by
      simp only [List.length_cons]
      omega
    rw [total]
    norm_num
  rw [beNat_append]
  cases top : topBit octet with
  | false =>
      have small : octet.toNat < 128 := by simpa [topBit] using top
      have half : beNat (octet :: octets) < 2 ^ 63 := by
        have tail := beNat_lt octets
        have scale : 256 ^ octets.length ≤ 256 ^ 7 := Nat.pow_le_pow_right (by omega) (by omega)
        calc beNat (octet :: octets)
            < (octet.toNat + 1) * 256 ^ octets.length := by
              rw [beNat_cons, Nat.add_mul, Nat.one_mul]
              omega
          _ ≤ 128 * 256 ^ 7 := Nat.mul_le_mul (by omega) scale
          _ = 2 ^ 63 := by norm_num
      simp only [Bool.false_eq_true, if_false, beNat_replicate_zero, Nat.zero_mul, Nat.zero_add,
        beInt, top, toCLong, signedOfBits, sub_zero]
      split <;> omega
  | true =>
      have large : 128 ≤ octet.toNat := by simpa [topBit] using top
      have ones := beNat_replicate_ones (8 - (octet :: octets).length)
      set scale := 256 ^ (octet :: octets).length with scale_eq
      have scalePos : 0 < scale := Nat.pow_pos (by omega)
      have half : scale ≤ 2 * beNat (octet :: octets) := by
        have head : 128 * 256 ^ octets.length ≤ octet.toNat * 256 ^ octets.length :=
          Nat.mul_le_mul_right _ large
        rw [beNat_cons, scale_eq, List.length_cons, pow_succ]
        omega
      have product : beNat (List.replicate (8 - (octet :: octets).length) 0xff) * scale + scale =
          2 ^ 64 := by
        rw [← width, ← ones]
        ring
      simp only [if_true, beInt, top, toCLong]
      have scaleCast : (256 : Int) ^ (octets.length + 1) = (scale : Int) := by
        rw [scale_eq]
        simp
      generalize beNat (List.replicate (8 - (octet :: octets).length) 0xff) * scale = block at *
      rw [scaleCast]
      unfold signedOfBits
      split <;> omega

end NetSnmp.Octets
