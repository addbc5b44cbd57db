import Mathlib.Data.Nat.Digits.Lemmas
import NetSnmp.Mib.OctetHint
import NetSnmp.Mib.PrintHint

/-!
# Printed numbers

`strtol` reads the numbers that the formats of a hint print, in front of anything that is no digit,
and the octets of a number are the ones that it was read from.
-/

namespace NetSnmp

variable {base n : Nat} {number rest : List Byte}

theorem byte_forall {P : Byte → Prop} (all : ∀ value < 256, P (UInt8.ofNat value)) (c : Byte) :
    P c := by
  have value := all c.toNat c.toNat_lt
  rwa [UInt8.ofNat_toNat] at value

def EndsNumber (c : Byte) : Prop := isalpha c = false ∧ isdigit c = false

instance (c : Byte) : Decidable (EndsNumber c) := inferInstanceAs (Decidable (_ ∧ _))

theorem EndsNumber.no_digit {c : Byte} (ends : EndsNumber c) :
    digitValue 16 c = none ∧ tolower c ≠ 0x78 := by
  have all : ∀ value < 256, EndsNumber (UInt8.ofNat value) →
      digitValue 16 (UInt8.ofNat value) = none ∧ tolower (UInt8.ofNat value) ≠ 0x78 := by
    decide +kernel
  have here : EndsNumber c → digitValue 16 c = none ∧ tolower c ≠ 0x78 :=
    @byte_forall (fun c => EndsNumber c → digitValue 16 c = none ∧ tolower c ≠ 0x78) all c
  exact here ends

theorem digitValue_mono {c : Byte} (small : base ≤ 16) (noDigit : digitValue 16 c = none) :
    digitValue base c = none := by
  rw [digitValue, Option.filter_eq_none_iff] at *
  intro value value_eq less
  exact noDigit value value_eq (decide_eq_true (Nat.lt_of_lt_of_le (of_decide_eq_true less) small))

theorem hexDigit_facts {digit : Nat} (small : digit < 16) :
    digitValue 16 (hexDigit digit) = some digit ∧ isspace (hexDigit digit) = false ∧
      hexDigit digit ≠ 0x2d ∧ hexDigit digit ≠ 0x2b ∧ tolower (hexDigit digit) ≠ 0x78 ∧
        hexDigit digit ≠ 0 := by
  have all : ∀ digit < 16, digitValue 16 (hexDigit digit) = some digit ∧
      isspace (hexDigit digit) = false ∧ hexDigit digit ≠ 0x2d ∧ hexDigit digit ≠ 0x2b ∧
        tolower (hexDigit digit) ≠ 0x78 ∧ hexDigit digit ≠ 0 := by decide +kernel
  exact all digit small

theorem digitValue_hexDigit {digit : Nat} (small : base ≤ 16) (isDigit : digit < base) :
    digitValue base (hexDigit digit) = some digit := by
  have value := (hexDigit_facts (Nat.lt_of_lt_of_le isDigit small)).1
  rw [digitValue, Option.filter_eq_some_iff] at *
  exact ⟨value.1, decide_eq_true isDigit⟩

def IsNumber (base n : Nat) (number : List Byte) : Prop :=
  number = sprintfNumber base n ∨ number = 0x30 :: sprintfNumber base n

theorem IsNumber.digits (isNumber : IsNumber base n number) (large : 2 ≤ base) :
    ∃ digits : List Nat, digits ≠ [] ∧ (∀ digit ∈ digits, digit < base) ∧
      number = digits.map hexDigit ∧
        digits.foldl (fun value digit => base * value + digit) 0 = n := by
  have one : ∃ digits : List Nat, digits ≠ [] ∧ (∀ digit ∈ digits, digit < base) ∧
      sprintfNumber base n = digits.map hexDigit ∧
        digits.foldl (fun value digit => base * value + digit) 0 = n := by
    rw [sprintfNumber]
    by_cases zero : n = 0
    · rw [if_pos zero]
      refine ⟨[0], List.cons_ne_nil _ _, ?_, rfl, zero.symm⟩
      intro digit mem
      rw [List.mem_singleton.mp mem]
      exact Nat.lt_of_lt_of_le Nat.two_pos large
    · rw [if_neg zero]
      refine ⟨(Nat.digits base n).reverse, ?_, ?_, rfl, ?_⟩
      · simpa [Nat.digits_ne_nil_iff_ne_zero]
      · intro digit mem
        exact Nat.digits_lt_base large (List.mem_reverse.mp mem)
      · rw [List.foldl_reverse]
        have value := Nat.ofDigits_digits base n
        rw [Nat.ofDigits_eq_foldr] at value
        simpa [Nat.add_comm] using value
  rcases one with ⟨digits, nonempty, small, number_eq, value⟩
  rcases isNumber with rfl | rfl
  · exact ⟨digits, nonempty, small, number_eq, value⟩
  · refine ⟨0 :: digits, List.cons_ne_nil _ _, ?_, ?_, ?_⟩
    · exact List.forall_mem_cons.mpr ⟨Nat.lt_of_lt_of_le Nat.two_pos large, small⟩
    · rw [number_eq]
      rfl
    · simpa using value

theorem IsNumber.noNul (isNumber : IsNumber base n number) (large : 2 ≤ base) (small : base ≤ 16) :
    0 ∉ number := by
  rcases isNumber.digits large with ⟨digits, -, less, rfl, -⟩
  rw [List.mem_map]
  rintro ⟨digit, mem, zero⟩
  exact (hexDigit_facts (Nat.lt_of_lt_of_le (less digit mem) small)).2.2.2.2.2 zero

theorem IsNumber.ne_nil (isNumber : IsNumber base n number) (large : 2 ≤ base) : number ≠ [] := by
  rcases isNumber.digits large with ⟨digits, nonempty, -, rfl, -⟩
  simpa using nonempty

theorem strtolSign_of_ne {c : Byte} (text : List Byte) (noMinus : c ≠ 0x2d) (noPlus : c ≠ 0x2b) :
    strtolSign (c :: text) = (false, c :: text) := by
  unfold strtolSign
  split
  next same => exact absurd (List.cons.inj same).1 noMinus
  next same => exact absurd (List.cons.inj same).1 noPlus
  next => rfl

theorem strtolPrefix_of_ne (base : Nat) (c : Byte) (text : List Byte)
    (noMark : ∀ c ∈ text.head?, tolower c ≠ 0x78) : strtolPrefix base (c :: text) = c :: text := by
  unfold strtolPrefix
  split
  next x digit rest same =>
    rw [(List.cons.inj same).2] at noMark
    exact if_neg fun all => noMark x rfl all.2.1
  next => rfl

theorem strtolEnd_number (isNumber : IsNumber base n number) (large : 2 ≤ base) (small : base ≤ 16)
    (fits : n < 2 ^ 63) (ends : ∀ c ∈ rest.head?, EndsNumber c) :
    strtolEnd base (number ++ rest) = some ((n : Int), rest) := by
  rcases isNumber.digits large with ⟨digits, nonempty, less, rfl, value⟩
  cases digits with
  | nil => exact absurd rfl nonempty
  | cons digit digits =>
      have isHex (other : Nat) (mem : other ∈ digit :: digits) :=
        hexDigit_facts (Nat.lt_of_lt_of_le (less other mem) small)
      have first := isHex digit List.mem_cons_self
      have noSpace : ((digit :: digits).map hexDigit ++ rest).dropWhile isspace =
          hexDigit digit :: (digits.map hexDigit ++ rest) := by
        simp [first.2.1]
      have noMark : ∀ c ∈ (digits.map hexDigit ++ rest).head?, tolower c ≠ 0x78 := by
        intro c mem
        cases digits with
        | nil => exact (ends c mem).no_digit.2
        | cons second digits =>
            rcases Option.some.inj mem with rfl
            exact (isHex second (by simp)).2.2.2.2.1
      have word_eq : (hexDigit digit :: (digits.map hexDigit ++ rest)).takeWhile
          (fun c => (digitValue base c).isSome) = (digit :: digits).map hexDigit := by
        change (((digit :: digits).map hexDigit) ++ rest).takeWhile _ = _
        rw [List.takeWhile_append_of_pos]
        · have stops : rest.takeWhile (fun c => (digitValue base c).isSome) = [] := by
            cases rest with
            | nil => rfl
            | cons c rest =>
                have noDigit := digitValue_mono small (ends c rfl).no_digit.1
                simp [noDigit]
          rw [stops, List.append_nil]
        · intro c mem
          rcases List.mem_map.mp mem with ⟨other, otherMem, rfl⟩
          simp [digitValue_hexDigit small (less other otherMem)]
      have value_eq : ((digit :: digits).map hexDigit).foldl
          (fun value c => base * value + (digitValue base c).getD 0) 0 = n := by
        rw [List.foldl_map, ← value]
        apply List.foldl_ext
        intro acc other mem
        rw [digitValue_hexDigit small (less other mem), Option.getD_some]
      simp only [strtolEnd, noSpace, strtolSign_of_ne _ first.2.2.1 first.2.2.2.1,
        strtolPrefix_of_ne base _ _ noMark, word_eq, value_eq]
      rw [if_neg (by simp)]
      have dropped : (hexDigit digit :: (digits.map hexDigit ++ rest)).drop
          ((digit :: digits).map hexDigit).length = rest :=
        @List.drop_left _ ((digit :: digits).map hexDigit) rest
      rw [dropped]
      have least : min (n : Int) (2 ^ 63 - 1) = n := by omega
      rw [if_neg Bool.false_ne_true, least]

def octetsNumber (octets : List Byte) : Nat :=
  octets.foldl (fun value c => value * 256 + c.toNat) 0

theorem octetsNumber_snoc (octets : List Byte) (c : Byte) :
    octetsNumber (octets ++ [c]) = octetsNumber octets * 256 + c.toNat := by
  rw [octetsNumber, List.foldl_append]
  rfl

theorem octetsNumber_lt (octets : List Byte) : octetsNumber octets < 256 ^ octets.length := by
  induction octets using List.reverseRecOn with
  | nil => exact Nat.one_pos
  | append_singleton octets c ih =>
      have small := c.toNat_lt
      rw [octetsNumber_snoc, List.length_append, List.length_singleton, Nat.pow_succ]
      omega

theorem readNumber_from (octets : List Byte) (value : Nat) (rest : List Byte)
    (fits : (value + 1) * 256 ^ octets.length ≤ 2 ^ 64) :
    readNumber octets.length value (octets ++ rest) =
      (octets.foldl (fun value c => value * 256 + c.toNat) value, rest) := by
  induction octets generalizing value with
  | nil => rfl
  | cons c octets ih =>
      have small := c.toNat_lt
      have positive : 1 ≤ 256 ^ octets.length := Nat.one_le_pow _ _ (by decide)
      rw [List.length_cons, Nat.pow_succ, Nat.mul_comm (256 ^ octets.length), ← Nat.mul_assoc]
        at fits
      have least : (value * 256 + c.toNat + 1) * 256 ^ octets.length ≤ 2 ^ 64 :=
        (Nat.mul_le_mul_right _ (by omega)).trans fits
      have value_lt : value * 256 + c.toNat < 2 ^ 64 :=
        Nat.lt_of_lt_of_le (Nat.lt_of_lt_of_le (Nat.lt_succ_self _)
          (Nat.le_mul_of_pos_right _ positive)) least
      change readNumber octets.length ((value * 256 + c.toNat) % 2 ^ 64) (octets ++ rest) = _
      rw [Nat.mod_eq_of_lt value_lt]
      exact ih _ least

theorem readNumber_append {octets : List Byte} (few : octets.length ≤ 8) (rest : List Byte) :
    readNumber octets.length 0 (octets ++ rest) = (octetsNumber octets, rest) := by
  apply readNumber_from
  rw [Nat.zero_add, Nat.one_mul]
  exact Nat.pow_le_pow_right (by decide) few

theorem numberOctets_octetsNumber {octets : List Byte} (few : octets.length ≤ 8) :
    numberOctets (octetsNumber octets : Int) (octets.length : Int) = octets := by
  have fits : octetsNumber octets < 2 ^ 64 :=
    Nat.lt_of_lt_of_le (octetsNumber_lt octets) (Nat.pow_le_pow_right (by decide) few)
  have value_eq : ((octetsNumber octets : Int) % 2 ^ 64).toNat = octetsNumber octets := by omega
  rw [numberOctets, value_eq, Int.toNat_natCast]
  clear value_eq fits
  induction octets using List.reverseRecOn with
  | nil => rfl
  | append_singleton octets c ih =>
      rw [List.length_append, List.length_singleton] at few ⊢
      have small := c.toNat_lt
      rw [List.range_succ, List.map_append, List.map_singleton]
      congr 1
      · refine Eq.trans (List.map_congr_left fun i mem => ?_) (ih (by omega))
        have inside := List.mem_range.mp mem
        have shift : 8 * (octets.length + 1 - 1 - i) % 64 = 8 + 8 * (octets.length - 1 - i) % 64 := by
          omega
        rw [shift, Nat.shiftRight_add, octetsNumber_snoc]
        have low : (octetsNumber octets * 256 + c.toNat) >>> 8 = octetsNumber octets := by
          rw [Nat.shiftRight_eq_div_pow]
          omega
        rw [low]
      · have shift : 8 * (octets.length + 1 - 1 - octets.length) % 64 = 0 := by
          rw [Nat.add_sub_cancel, Nat.sub_self]
        rw [shift, Nat.shiftRight_zero, octetsNumber_snoc]
        have low : UInt8.ofNat (octetsNumber octets * 256 + c.toNat) = c := by
          apply UInt8.toNat_inj.mp
          rw [UInt8.toNat_ofNat']
          omega
        rw [low]

end NetSnmp
