import NetSnmp.Config.Text
import NetSnmp.Int64

/-!
# 64-bit numbers as text

Division and multiplication by ten on limbs of 16 bits, and the routines that
print and read decimal numbers with them.
-/

namespace NetSnmp

/-- `divBy10`: the quotient and the remainder. -/
def divBy10 (u64 : Counter64) : Counter64 × Nat :=
  let ulT := (u64.high.toNat >>> 16) &&& 0xffff
  let ulR := ulT % 10
  let high := (ulT / 10) <<< 16
  let ulT := (u64.high.toNat &&& 0xffff) + (ulR <<< 16)
  let ulR := ulT % 10
  let high := high ||| (ulT / 10)
  let ulT := ((u64.low.toNat >>> 16) &&& 0xffff) + (ulR <<< 16)
  let ulR := ulT % 10
  let low := (ulT / 10) <<< 16
  let ulT := (u64.low.toNat &&& 0xffff) + (ulR <<< 16)
  let low := low ||| (ulT / 10)
  (⟨UInt32.ofNat high, UInt32.ofNat low⟩, ulT % 10)

def multBy10 (u64 : Counter64) : Counter64 :=
  let ulP := (u64.low.toNat &&& 0xffff) * 10
  let ulK := ulP >>> 16
  let low := ulP &&& 0xffff
  let ulP := ((u64.low.toNat >>> 16) &&& 0xffff) * 10 + ulK
  let ulK := ulP >>> 16
  let low := ((ulP &&& 0xffff) <<< 16) ||| low
  let ulP := (u64.high.toNat &&& 0xffff) * 10 + ulK
  let ulK := ulP >>> 16
  let high := ulP &&& 0xffff
  let ulP := ((u64.high.toNat >>> 16) &&& 0xffff) * 10 + ulK
  let high := ((ulP &&& 0xffff) <<< 16) ||| high
  ⟨UInt32.ofNat high, UInt32.ofNat low⟩

def incrByU16 (pu64 : Counter64) (u16 : UInt32) : Counter64 := incrByU32 pu64 u16

def zeroU64 : Counter64 := ⟨0, 0⟩

def isZeroU64 (pu64 : Counter64) : Bool := pu64.low = 0 && pu64.high = 0

def i64CharSz : Nat := 21

/-- The loop of `printU64`, which fills a buffer from its end.  There is no text if it does not stop
in front of the buffer. -/
def printU64Loop : (left : Nat) → Counter64 → (text : List Byte) → Option (List Byte)
  | 0, _, _ => none
  | left + 1, u64a, text =>
      let divided := divBy10 u64a
      let text := UInt8.ofNat (0x30 + divided.2) :: text
      if isZeroU64 divided.1 then some text else printU64Loop left divided.1 text

def printU64 (pu64 : Counter64) : Option (List Byte) := printU64Loop i64CharSz pu64 []

def invertU64 (pu64 : Counter64) : Counter64 := incrByU32 ⟨~~~pu64.high, ~~~pu64.low⟩ 1

def printI64 (pu64 : Counter64) : Option (List Byte) :=
  if pu64.high &&& 0x80000000 ≠ 0 then (printU64 (invertU64 pu64)).map fun text => 0x2d :: text
  else printU64 pu64

/-- The loop of `read64`. -/
def read64Loop : List Byte → Counter64 → (ok : Int) → Int × Counter64
  | [], i64, ok => (ok, i64)
  | char :: str, i64, ok =>
      if char ≠ 0 ∧ isdigit char then
        read64Loop str (incrByU16 (multBy10 i64) (UInt32.ofNat (char.toNat - 0x30))) 1
      else (ok, i64)

/-- `read64`: what it returns, and the number. -/
def read64 (str : List Byte) : Int × Counter64 :=
  if str.head? = some 0x2d then
    let (ok, i64) := read64Loop str.tail zeroU64 0
    (ok, invertU64 i64)
  else read64Loop str zeroU64 0

namespace Counter64

theorem and_0xffff (n : Nat) : n &&& 0xffff = n % 2 ^ 16 := Nat.and_two_pow_sub_one_eq_mod n 16

theorem exists_limbs {half : Nat} (small : half < 2 ^ 32) :
    ∃ top bottom, (half >>> 16) &&& 0xffff = top ∧ half &&& 0xffff = bottom ∧
      half = top * 2 ^ 16 + bottom ∧ top < 2 ^ 16 ∧ bottom < 2 ^ 16 := by
  refine ⟨half / 2 ^ 16, half % 2 ^ 16, ?_, and_0xffff half, ?_, ?_, ?_⟩
  · rw [and_0xffff, Nat.shiftRight_eq_div_pow, Nat.mod_eq_of_lt (by omega)]
  · omega
  · omega
  · omega

theorem shiftLeft_or {high low : Nat} (small : low < 2 ^ 16) :
    (high <<< 16) ||| low = high * 2 ^ 16 + low := by
  rw [← Nat.shiftLeft_add_eq_or_of_lt small, Nat.shiftLeft_eq]

theorem divLimbs_spec {half carry : Nat} (small : half < 2 ^ 32) (digit : carry < 10) :
    let ulT := ((half >>> 16) &&& 0xffff) + (carry <<< 16)
    let ulT' := (half &&& 0xffff) + ((ulT % 10) <<< 16)
    ((ulT / 10) <<< 16) ||| (ulT' / 10) = (carry * 2 ^ 32 + half) / 10 ∧
      ulT' % 10 = (carry * 2 ^ 32 + half) % 10 := by
  rcases exists_limbs small with ⟨top, bottom, top_eq, bottom_eq, half_eq, topLt, bottomLt⟩
  simp only [top_eq, bottom_eq, Nat.shiftLeft_eq carry, Nat.shiftLeft_eq (_ % 10)]
  have whole := Nat.div_add_mod (top + carry * 2 ^ 16) 10
  have rest := Nat.mod_lt (top + carry * 2 ^ 16) (show 0 < 10 by decide)
  generalize (top + carry * 2 ^ 16) / 10 = quotient at *
  generalize (top + carry * 2 ^ 16) % 10 = remainder at *
  rw [shiftLeft_or (by omega), half_eq]
  omega

theorem divBy10_spec (c : Counter64) :
    (divBy10 c).1.value = c.value / 10 ∧ (divBy10 c).2 = c.value % 10 := by
  have highLt := c.high.toNat_lt
  have lowLt := c.low.toNat_lt
  rcases divLimbs_spec highLt (show 0 < 10 by decide) with ⟨highQuotient, highRemainder⟩
  have carry : c.high.toNat % 10 < 10 := Nat.mod_lt _ (by decide)
  rcases divLimbs_spec lowLt carry with ⟨lowQuotient, lowRemainder⟩
  simp only [Nat.zero_shiftLeft, Nat.add_zero, Nat.zero_mul, Nat.zero_add]
    at highQuotient highRemainder
  simp only [divBy10, value, highQuotient, highRemainder, lowQuotient, lowRemainder,
    UInt32.toNat_ofNat']
  have whole := Nat.div_add_mod c.high.toNat 10
  clear highQuotient highRemainder lowQuotient lowRemainder
  generalize c.high.toNat / 10 = quotient at *
  generalize c.high.toNat % 10 = remainder at *
  rw [← whole]
  constructor
  · rw [Nat.mod_eq_of_lt (by omega), Nat.mod_eq_of_lt (by omega)]
    omega
  · omega

theorem mulLimbs_spec {half : Nat} (carry : Nat) (small : half < 2 ^ 32) :
    let ulP := (half &&& 0xffff) * 10 + carry
    let ulP' := ((half >>> 16) &&& 0xffff) * 10 + (ulP >>> 16)
    ((ulP' &&& 0xffff) <<< 16) ||| (ulP &&& 0xffff) = (half * 10 + carry) % 2 ^ 32 ∧
      ulP' >>> 16 = (half * 10 + carry) / 2 ^ 32 := by
  rcases exists_limbs small with ⟨top, bottom, top_eq, bottom_eq, half_eq, topLt, bottomLt⟩
  simp only [top_eq, bottom_eq]
  simp only [and_0xffff, Nat.shiftRight_eq_div_pow]
  have whole := Nat.div_add_mod (bottom * 10 + carry) (2 ^ 16)
  have rest := Nat.mod_lt (bottom * 10 + carry) (show 0 < 2 ^ 16 by decide)
  generalize (bottom * 10 + carry) / 2 ^ 16 = quotient at *
  generalize (bottom * 10 + carry) % 2 ^ 16 = remainder at *
  rw [shiftLeft_or rest, half_eq]
  omega

theorem value_multBy10 (c : Counter64) : (multBy10 c).value = c.value * 10 % 2 ^ 64 := by
  have highLt := c.high.toNat_lt
  have lowLt := c.low.toNat_lt
  rcases mulLimbs_spec 0 lowLt with ⟨lowProduct, lowCarry⟩
  rcases mulLimbs_spec (c.low.toNat * 10 / 2 ^ 32) highLt with ⟨highProduct, -⟩
  simp only [Nat.add_zero] at lowProduct lowCarry
  simp only [multBy10, value, lowProduct, lowCarry, highProduct, UInt32.toNat_ofNat', Nat.mod_mod]
  clear lowProduct lowCarry highProduct
  omega

theorem value_incrByU32 (c : Counter64) (u32 : UInt32) :
    (incrByU32 c u32).value = (c.value + u32.toNat) % 2 ^ 64 := by
  have added := value_u64Incr c ⟨0, u32⟩
  have zero : (0 : UInt32).toNat = 0 := rfl
  simpa [u64Incr, value, zero] using added

theorem value_invertU64 (c : Counter64) : (invertU64 c).value = (2 ^ 64 - c.value) % 2 ^ 64 := by
  have highLt := c.high.toNat_lt
  have lowLt := c.low.toNat_lt
  have one : (1 : UInt32).toNat = 1 := rfl
  have size : UInt32.size = 2 ^ 32 := rfl
  rw [invertU64, value_incrByU32, one]
  simp only [value, UInt32.toNat_not, size]
  omega

theorem isZeroU64_iff (c : Counter64) : isZeroU64 c = true ↔ c.value = 0 := by
  have lowLt := c.low.toNat_lt
  have zero : (0 : UInt32).toNat = 0 := rfl
  simp only [isZeroU64, value, Bool.and_eq_true, decide_eq_true_eq, ← UInt32.toNat_inj, zero]
  omega

end Counter64

/-- The number that some digits stand for, behind those that make up `start`. -/
def decimalFrom (start : Nat) (digits : List Byte) : Nat :=
  digits.foldl (fun number digit => number * 10 + (digit.toNat - 0x30)) start

theorem decimalFrom_mod (start : Nat) (digits : List Byte) :
    decimalFrom (start % 2 ^ 64) digits % 2 ^ 64 = decimalFrom start digits % 2 ^ 64 := by
  induction digits generalizing start with
  | nil => exact Nat.mod_mod _ _
  | cons digit digits ih =>
      simp only [decimalFrom, List.foldl_cons] at ih ⊢
      rw [← ih, ← ih (start * 10 + (digit.toNat - 0x30))]
      congr 2
      omega

/-- At least one digit and at most `count`. -/
structure Digits (count : Nat) (digits : List Byte) : Prop where
  all : ∀ digit ∈ digits, isdigit digit = true
  nonempty : digits ≠ []
  length_le : digits.length ≤ count

theorem isdigit_ofNat {u : Nat} (digit : u < 10) : isdigit (UInt8.ofNat (0x30 + u)) = true := by
  have value : (UInt8.ofNat (0x30 + u)).toNat = 0x30 + u := by
    rw [UInt8.toNat_ofNat']
    omega
  simp only [isdigit, Bool.and_eq_true, decide_eq_true_eq, UInt8.le_iff_toNat_le, value]
  constructor
  · exact Nat.le_add_right _ _
  · change 0x30 + u ≤ 0x39
    omega

theorem Digits.snoc {count u : Nat} {digits : List Byte} (form : Digits count digits)
    (digit : u < 10) : Digits (count + 1) (digits ++ [UInt8.ofNat (0x30 + u)]) := by
  refine ⟨?_, by simp, ?_⟩
  · intro char mem
    rcases List.mem_append.mp mem with early | late
    · exact form.all char early
    · rw [List.mem_singleton.mp late]
      exact isdigit_ofNat digit
  · have length_le := form.length_le
    rw [List.length_append, List.length_singleton]
    omega

theorem digits_singleton {count u : Nat} (pos : 0 < count) (digit : u < 10) :
    Digits count [UInt8.ofNat (0x30 + u)] := by
  refine ⟨?_, by simp, pos⟩
  intro char mem
  rw [List.mem_singleton.mp mem]
  exact isdigit_ofNat digit

theorem decimalFrom_snoc {start u : Nat} (digits : List Byte) (digit : u < 10) :
    decimalFrom start (digits ++ [UInt8.ofNat (0x30 + u)]) = decimalFrom start digits * 10 + u := by
  have char_value : (UInt8.ofNat (0x30 + u)).toNat - 0x30 = u := by
    rw [UInt8.toNat_ofNat']
    omega
  rw [decimalFrom, List.foldl_append, List.foldl_cons, List.foldl_nil, char_value, decimalFrom]

theorem printU64Loop_spec {left count : Nat} (pos : 0 < count) (le : count ≤ left) {c : Counter64}
    (small : c.value < 10 ^ count) (text : List Byte) :
    ∃ digits, printU64Loop left c text = some (digits ++ text) ∧ Digits count digits ∧
      decimalFrom 0 digits = c.value := by
  induction left generalizing count c text with
  | zero => omega
  | succ left ih =>
      rcases Counter64.divBy10_spec c with ⟨quotient, remainder⟩
      have isLast := Counter64.isZeroU64_iff (divBy10 c).1
      rw [printU64Loop]
      generalize (divBy10 c).1 = next at *
      generalize (divBy10 c).2 = u at *
      have digit : u < 10 := by omega
      by_cases last : next.value = 0
      · rw [if_pos (isLast.mpr last)]
        refine ⟨[UInt8.ofNat (0x30 + u)], by rw [List.singleton_append],
          digits_singleton pos digit, ?_⟩
        have value := @decimalFrom_snoc 0 u [] digit
        rw [List.nil_append] at value
        rw [value, decimalFrom, List.foldl_nil]
        omega
      · rw [if_neg (fun zero => last (isLast.mp zero))]
        cases count with
        | zero => omega
        | succ count =>
            have fewer : next.value < 10 ^ count := by
              rw [quotient, Nat.div_lt_iff_lt_mul (by decide)]
              rwa [Nat.pow_succ] at small
            have some_count : 0 < count := by
              apply Nat.pos_of_ne_zero
              rintro rfl
              omega
            rcases ih some_count (by omega) fewer (UInt8.ofNat (0x30 + u) :: text) with
              ⟨digits, printed, form, value⟩
            refine ⟨digits ++ [UInt8.ofNat (0x30 + u)], ?_, form.snoc digit, ?_⟩
            · rw [printed, List.append_assoc, List.singleton_append]
            · rw [decimalFrom_snoc digits digit, value]
              omega

theorem printU64_spec (c : Counter64) :
    ∃ digits, printU64 c = some digits ∧ Digits 20 digits ∧ decimalFrom 0 digits = c.value := by
  have small := c.value_lt
  rcases @printU64Loop_spec i64CharSz 20 (by decide) (by decide) c
    (lt_trans small (by decide)) [] with ⟨digits, printed, form, value⟩
  rw [List.append_nil] at printed
  exact ⟨digits, printed, form, value⟩

theorem read64Loop_digits {digits : List Byte} (all : ∀ digit ∈ digits, isdigit digit = true)
    (i64 : Counter64) (ok : Int) :
    ∃ i64', read64Loop digits i64 ok = (if digits = [] then ok else 1, i64') ∧
      i64'.value = decimalFrom i64.value digits % 2 ^ 64 := by
  induction digits generalizing i64 ok with
  | nil => exact ⟨i64, rfl, (Nat.mod_eq_of_lt i64.value_lt).symm⟩
  | cons digit digits ih =>
      have isDigit := all digit List.mem_cons_self
      have nonzero : digit ≠ 0 := by
        rintro rfl
        exact absurd isDigit (by decide)
      have small := digit.toNat_lt
      have next_value : (incrByU16 (multBy10 i64) (UInt32.ofNat (digit.toNat - 0x30))).value =
          (i64.value * 10 + (digit.toNat - 0x30)) % 2 ^ 64 := by
        rw [incrByU16, Counter64.value_incrByU32, Counter64.value_multBy10, UInt32.toNat_ofNat',
          Nat.mod_eq_of_lt (show digit.toNat - 0x30 < 2 ^ 32 by omega), Nat.mod_add_mod]
      rcases ih (fun later mem => all later (List.mem_cons_of_mem _ mem))
        (incrByU16 (multBy10 i64) (UInt32.ofNat (digit.toNat - 0x30))) 1 with ⟨i64', read, value⟩
      refine ⟨i64', ?_, ?_⟩
      · rw [read64Loop, if_pos ⟨nonzero, isDigit⟩, read, ite_self]
        simp
      · rw [value, next_value, decimalFrom_mod]
        rfl

theorem read64_digits {count : Nat} {digits : List Byte} (form : Digits count digits) :
    ∃ i64, read64 digits = (1, i64) ∧ read64 (0x2d :: digits) = (1, invertU64 i64) ∧
      i64.value = decimalFrom 0 digits % 2 ^ 64 := by
  rcases read64Loop_digits form.all zeroU64 0 with ⟨i64, read, value⟩
  rw [if_neg form.nonempty] at read
  refine ⟨i64, ?_, ?_, value⟩
  · have noSign : digits.head? ≠ some 0x2d := by
      intro sign
      have isDigit := form.all _ (List.mem_of_mem_head? sign)
      exact absurd isDigit (by decide)
    rw [read64, if_neg noSign, read]
  · simp [read64, read]

/-- The text of a number is read as this number, and it is no longer than the buffer of the caller:
20 digits at most, and a sign. -/
theorem read64_print (c : Counter64) :
    (∃ text, printU64 c = some text ∧ read64 text = (1, c) ∧ Digits 20 text) ∧
      ∃ text, printI64 c = some text ∧ read64 text = (1, c) ∧
        (Digits 20 text ∨ ∃ digits, text = 0x2d :: digits ∧ Digits 20 digits) := by
  have unsigned (c : Counter64) :
      ∃ text, printU64 c = some text ∧ read64 text = (1, c) ∧ Digits 20 text := by
    rcases printU64_spec c with ⟨digits, printed, form, value⟩
    rcases read64_digits form with ⟨i64, read, -, value'⟩
    rw [value, Nat.mod_eq_of_lt c.value_lt] at value'
    obtain rfl : i64 = c := Counter64.ext_value value'
    exact ⟨digits, printed, read, form⟩
  refine ⟨unsigned c, ?_⟩
  by_cases negative : c.high &&& 0x80000000 ≠ 0
  · rcases printU64_spec (invertU64 c) with ⟨digits, printed, form, value⟩
    rcases read64_digits form with ⟨i64, -, read, value'⟩
    have same : invertU64 i64 = c := by
      have small := c.value_lt
      apply Counter64.ext_value
      rw [Counter64.value_invertU64, value', value, Counter64.value_invertU64]
      omega
    refine ⟨0x2d :: digits, ?_, ?_, .inr ⟨digits, rfl, form⟩⟩
    · rw [printI64, if_pos negative, printed]
      rfl
    · rw [read, same]
  · rcases unsigned c with ⟨digits, printed, read, form⟩
    refine ⟨digits, ?_, read, .inl form⟩
    rw [printI64, if_neg negative, printed]

example : printI64 ⟨0x80000000, 0⟩ = some (0x2d :: "9223372036854775808".toUTF8.toList) := by
  decide +kernel

end NetSnmp
