import Mathlib.Data.List.DropRight
import Mathlib.Data.Nat.Digits.Defs
import NetSnmp.Reader.Basic

/-!
# Lines of configuration files

Words, numbers and octet strings as they are written to the persistent file and read
from it, and the round trips.
-/

namespace NetSnmp

/-- `isspace` in the C locale. -/
def isspace (c : Byte) : Bool := c = 0x20 || (0x09 ≤ c && c ≤ 0x0d)

def isdigit (c : Byte) : Bool := 0x30 ≤ c && c ≤ 0x39

/-- `isalpha` in the C locale. -/
def isalpha (c : Byte) : Bool := (0x41 ≤ c && c ≤ 0x5a) || (0x61 ≤ c && c ≤ 0x7a)

def tolower (c : Byte) : Byte := if 0x41 ≤ c && c ≤ 0x5a then c + 0x20 else c

/-- `strcasecmp` finds no difference. -/
def sameWord (word word' : List Byte) : Bool := word.map tolower = word'.map tolower

theorem isspace_of_isalpha {c : Byte} (alpha : isalpha c = true) : isspace c = false := by
  simp only [isalpha, isspace, Bool.and_eq_true, decide_eq_true_eq, UInt8.le_iff_toNat_le,
    Bool.or_eq_false_iff, decide_eq_false_iff_not, Bool.and_eq_false_iff, Bool.or_eq_true,
    ← UInt8.toNat_inj] at *
  change (65 ≤ c.toNat ∧ c.toNat ≤ 90) ∨ (97 ≤ c.toNat ∧ c.toNat ≤ 122) at alpha
  constructor
  · change ¬ c.toNat = 32
    omega
  · right
    change ¬ c.toNat ≤ 13
    omega

/-- `skip_white_const`: nothing is left at the end of the line and in front of a comment. -/
def skipWhite (line : List Byte) : Option (List Byte) :=
  match line.dropWhile isspace with
  | [] => none
  | c :: rest => if c = 0x23 then none else some (c :: rest)

theorem skipWhite_cons {c : Byte} {rest : List Byte} (notSpace : isspace c = false)
    (notComment : c ≠ 0x23) : skipWhite (c :: rest) = some (c :: rest) := by
  simp [skipWhite, notSpace, notComment]

theorem skipWhite_space (text : List Byte) : skipWhite (0x20 :: text) = skipWhite text := rfl

/-- The loop of `copy_nword_const`: what is copied up to the character that ends the word, and what
is left of the line from there. A backslash takes the next character as it is. -/
def copyChars (ends : Byte → Bool) : List Byte → List Byte × List Byte
  | [] => ([], [])
  | [c] => if ends c then ([], [c]) else ([c], [])
  | c :: c' :: rest =>
      if ends c then ([], c :: c' :: rest)
      else if c = 0x5c then
        let copied := copyChars ends rest
        (c' :: copied.1, copied.2)
      else
        let copied := copyChars ends (c' :: rest)
        (c :: copied.1, copied.2)

/-- `copy_nword_const` without its memory: the word in a buffer of length `len`, and the rest of the
line. -/
def copyNword (line : List Byte) (len : Nat) : List Byte × Option (List Byte) :=
  match line with
  | [] => ([], none)
  | quote :: rest =>
      if quote = 0x22 || quote = 0x27 then
        let copied := copyChars (fun c => c = quote) rest
        (copied.1.take (len - 1), skipWhite (copied.2.drop 1))
      else
        let copied := copyChars isspace (quote :: rest)
        (copied.1.take (len - 1), skipWhite copied.2)

theorem copyChars_append {ends : Byte → Bool} {word : List Byte} (rest : List Byte)
    (plain : ∀ c ∈ word, ends c = false ∧ c ≠ 0x5c) (ended : ∀ c ∈ rest.head?, ends c = true) :
    copyChars ends (word ++ rest) = (word, rest) := by
  induction word with
  | nil =>
      match rest with
      | [] => rfl
      | [c] => simp [copyChars, ended c rfl]
      | c :: c' :: rest => simp [copyChars, ended c rfl]
  | cons c word ih =>
      have here := plain c List.mem_cons_self
      have later := ih fun c' mem => plain c' (List.mem_cons_of_mem _ mem)
      rw [List.cons_append]
      cases split : word ++ rest with
      | nil =>
          rw [List.append_eq_nil_iff] at split
          simp [copyChars, here, split]
      | cons c' rest' =>
          rw [split] at later
          simp [copyChars, here, later]

def digitChar (digit : Nat) : Byte := UInt8.ofNat (0x30 + digit)

def decimal (n : Nat) : List Byte :=
  if n = 0 then [digitChar 0] else (Nat.digits 10 n).reverse.map digitChar

/-- `sprintf` of an `unsigned long` with `%ld`. -/
def formatLd (n : Nat) : List Byte :=
  if n < 2 ^ 63 then decimal n else 0x2d :: decimal (2 ^ 64 - n)

def magnitude (text : List Byte) : Nat :=
  (text.takeWhile isdigit).foldl (fun value c => 10 * value + (c.toNat - 0x30)) 0

/-- `strtol` with base 10, which stops at the limits of a `long`. -/
def strtol (text : List Byte) : Int :=
  match text.dropWhile isspace with
  | 0x2d :: digits => max (-magnitude digits) (-2 ^ 63)
  | 0x2b :: digits => min (magnitude digits) (2 ^ 63 - 1)
  | digits => min (magnitude digits) (2 ^ 63 - 1)

def atoi (text : List Byte) : Int := (strtol text).bmod (2 ^ 32)

theorem digitChar_toNat {digit : Nat} (small : digit < 10) :
    (digitChar digit).toNat = 0x30 + digit := by
  simp only [digitChar, UInt8.toNat_ofNat']
  omega

theorem isdigit_digitChar {digit : Nat} (small : digit < 10) :
    isdigit (digitChar digit) = true := by
  have value := digitChar_toNat small
  simp only [isdigit, Bool.and_eq_true, decide_eq_true_eq, UInt8.le_iff_toNat_le, value]
  constructor
  · change 48 ≤ 0x30 + digit
    omega
  · change 0x30 + digit ≤ 57
    omega

theorem isspace_of_isdigit {c : Byte} (digit : isdigit c = true) : isspace c = false := by
  simp only [isdigit, isspace, Bool.and_eq_true, decide_eq_true_eq, UInt8.le_iff_toNat_le,
    Bool.or_eq_false_iff, decide_eq_false_iff_not, Bool.and_eq_false_iff, ← UInt8.toNat_inj] at *
  change 48 ≤ c.toNat ∧ c.toNat ≤ 57 at digit
  constructor
  · change ¬ c.toNat = 32
    omega
  · right
    change ¬ c.toNat ≤ 13
    omega

theorem decimal_digits (n : Nat) : ∀ c ∈ decimal n, isdigit c = true := by
  intro c mem
  rw [decimal] at mem
  split at mem
  · rw [List.mem_singleton.mp mem]
    exact isdigit_digitChar (by decide)
  · rcases List.mem_map.mp mem with ⟨digit, digitMem, rfl⟩
    exact isdigit_digitChar (Nat.digits_lt_base (by decide) (List.mem_reverse.mp digitMem))

theorem decimal_ne_nil (n : Nat) : decimal n ≠ [] := by
  rw [decimal]
  split
  · simp
  · simpa [Nat.digits_ne_nil_iff_ne_zero]

theorem magnitude_decimal (n : Nat) : magnitude (decimal n) = n := by
  rw [magnitude, List.takeWhile_eq_self_iff.mpr (decimal_digits n), decimal]
  split
  · simp_all [digitChar]
  · rw [List.foldl_map, List.foldl_reverse]
    have values : ∀ digits : List Nat, (∀ digit ∈ digits, digit < 10) →
        digits.foldr (fun digit value => 10 * value + ((digitChar digit).toNat - 0x30)) 0 =
          Nat.ofDigits 10 digits := by
      intro digits small
      induction digits with
      | nil => rfl
      | cons digit digits ih =>
          have here := digitChar_toNat (small digit List.mem_cons_self)
          have later := ih fun digit' mem => small digit' (List.mem_cons_of_mem _ mem)
          rw [List.foldr_cons, later, here, Nat.ofDigits_cons]
          omega
    rw [values _ fun digit mem => Nat.digits_lt_base (by decide) mem, Nat.ofDigits_digits]

theorem atoi_formatLd {n : Nat} (small : n < 2 ^ 31) : atoi (formatLd n) = n := by
  have digits := decimal_digits n
  have first : ∃ c rest, decimal n = c :: rest ∧ isdigit c = true := by
    cases whole : decimal n with
    | nil => exact absurd whole (decimal_ne_nil n)
    | cons c rest => exact ⟨c, rest, rfl, digits c (whole ▸ List.mem_cons_self)⟩
  rcases first with ⟨c, rest, whole, digit⟩
  have noSpace : (decimal n).dropWhile isspace = c :: rest := by
    rw [whole, List.dropWhile_cons_of_neg (by simp [isspace_of_isdigit digit])]
  have value : magnitude (c :: rest) = n := by rw [← whole, magnitude_decimal]
  have notMinus : c ≠ 0x2d := by
    rintro rfl
    exact absurd digit (by decide)
  have notPlus : c ≠ 0x2b := by
    rintro rfl
    exact absurd digit (by decide)
  have result : strtol (formatLd n) = n := by
    rw [formatLd, if_pos (by omega), strtol, noSpace]
    split
    · simp_all
    · simp_all
    · rw [value]
      omega
  rw [atoi, result]
  apply Int.bmod_eq_of_le
  · omega
  · omega

/-- A digit of `%02x`. -/
def hexDigit (value : Nat) : Byte := UInt8.ofNat (if value < 10 then 0x30 + value else 0x57 + value)

/-- The bytes as they are printed with `%02x`. -/
def hexDigits (str : List Byte) : List Byte :=
  str.flatMap fun c => [hexDigit (c.toNat / 16), hexDigit (c.toNat % 16)]

/-- `read_config_save_octet_string`, whose string may be `NULL`. -/
def saveOctetString : (str : Option (List Byte)) → List Byte
  | none => [0x22, 0x22]
  | some str =>
      if str ≠ [] ∧ str.all fun c => isalpha c || isdigit c || c = 0x20 then 0x22 :: str ++ [0x22]
      else 0x30 :: 0x78 :: hexDigits str

def hexValue (c : Byte) : Option Nat :=
  if isdigit c then some (c.toNat - 0x30)
  else if 0x61 ≤ c && c ≤ 0x66 then some (c.toNat - 0x57)
  else if 0x41 ≤ c && c ≤ 0x46 then some (c.toNat - 0x37)
  else none

/-- The loop that reads two digits for each byte with `sscanf`. -/
def readHex : List Byte → Option (List Byte)
  | high :: low :: rest =>
      match hexValue high, hexValue low with
      | some high, some low => (readHex rest).map (UInt8.ofNat (16 * high + low) :: ·)
      | _, _ => none
  | _ => some []

theorem hexValue_hexDigit {value : Nat} (small : value < 16) :
    hexValue (hexDigit value) = some value := by
  have all : ∀ value < 16, hexValue (hexDigit value) = some value := by decide
  exact all value small

theorem readHex_hexDigits (str : List Byte) : readHex (hexDigits str) = some str := by
  rw [hexDigits]
  induction str with
  | nil => rfl
  | cons c str ih =>
      have high := hexValue_hexDigit (show c.toNat / 16 < 16 by have := c.toNat_lt; omega)
      have low := hexValue_hexDigit (show c.toNat % 16 < 16 by omega)
      have value : UInt8.ofNat (16 * (c.toNat / 16) + c.toNat % 16) = c := by
        rw [Nat.div_add_mod, UInt8.ofNat_toNat]
      simp [readHex, high, low, value, ih]

theorem isspace_hexDigit {value : Nat} (small : value < 16) : isspace (hexDigit value) = false := by
  have all : ∀ value < 16, isspace (hexDigit value) = false := by decide
  exact all value small

theorem hexDigits_noSpace (str : List Byte) : ∀ c ∈ hexDigits str, isspace c = false := by
  intro c mem
  rcases List.mem_flatMap.mp mem with ⟨c', -, isDigit⟩
  simp only [List.mem_cons, List.not_mem_nil, or_false] at isDigit
  rcases isDigit with rfl | rfl
  · apply isspace_hexDigit
    have := c'.toNat_lt
    omega
  · apply isspace_hexDigit
    omega

/-- What `read_config` makes of a line that does not change the context: the token, and the rest of
the line without white space at its end. -/
def configLine (line : List Byte) : Option (List Byte × List Byte) :=
  (skipWhite line).map fun text =>
    let copied := copyNword text 1024
    (copied.1, (copied.2.getD []).rdropWhile isspace)

theorem configLine_append {token text : List Byte} (word : ∀ c ∈ token, isalpha c = true)
    (nonempty : token ≠ []) (short : token.length < 1024) (first : ∀ c ∈ text.head?,
      isspace c = false ∧ c ≠ 0x23) (last : ∀ c ∈ text.getLast?, isspace c = false)
    (textNonempty : text ≠ []) :
    configLine (token ++ 0x20 :: text) = some (token, text) := by
  have plain : ∀ c ∈ token, isspace c = false ∧ c ≠ 0x5c := by
    intro c mem
    refine ⟨isspace_of_isalpha (word c mem), ?_⟩
    rintro rfl
    exact absurd (word _ mem) (by decide)
  have copied := copyChars_append (0x20 :: text) plain (by simp [isspace])
  have rest_eq : skipWhite (0x20 :: text) = some text := by
    cases text with
    | nil => exact absurd rfl textNonempty
    | cons c text =>
        rw [skipWhite_space]
        exact skipWhite_cons (first c rfl).1 (first c rfl).2
  have trimmed : text.rdropWhile isspace = text := by
    apply List.rdropWhile_eq_self_iff.mpr
    intro textNonempty
    simp [last _ (List.getLast?_eq_some_getLast textNonempty)]
  cases token with
  | nil => exact absurd rfl nonempty
  | cons c token =>
      have letter := word c List.mem_cons_self
      have start : skipWhite (c :: token ++ 0x20 :: text) = some (c :: token ++ 0x20 :: text) := by
        apply skipWhite_cons (isspace_of_isalpha letter)
        rintro rfl
        exact absurd letter (by decide)
      have notQuote : ¬ (decide (c = 0x22) || decide (c = 0x27)) = true := by
        intro quote
        rcases Bool.or_eq_true _ _ ▸ quote with same | same
        · exact absurd (of_decide_eq_true same ▸ letter) (by decide)
        · exact absurd (of_decide_eq_true same ▸ letter) (by decide)
      rw [configLine, start, Option.map_some, List.cons_append, copyNword, if_neg notQuote]
      rw [List.cons_append] at copied
      simp only [copied, rest_eq, Option.getD_some, trimmed]
      rw [List.take_of_length_le (by omega)]

end NetSnmp
