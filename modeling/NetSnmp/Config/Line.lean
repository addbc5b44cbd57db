import NetSnmp.CString
import NetSnmp.Config.Text

/-!
# The fields of a line

A line of the persistent file is a sequence of numbers and octet strings with
blanks in between.  A field is read from the front of a line, and what is left of
the line starts at the next field.
-/

namespace NetSnmp

/-- `skip_not_white_const` -/
def skipNotWhite (line : List Byte) : Option (List Byte) :=
  match line.dropWhile fun c => !isspace c with
  | [] => none
  | c :: rest => if c = 0x23 then none else some (c :: rest)

/-- `skip_token_const` -/
def skipToken (line : List Byte) : Option (List Byte) := do
  let line ← skipWhite line
  let line ← skipNotWhite line
  skipWhite line

/-- A field is not empty, has no white space in it, and does not look like a comment. -/
structure IsField (field : List Byte) : Prop where
  nonempty : field ≠ []
  noSpace : ∀ c ∈ field, isspace c = false
  noComment : field.head? ≠ some 0x23

theorem IsField.skipWhite {field : List Byte} (isField : IsField field) (rest : List Byte) :
    skipWhite (field ++ rest) = some (field ++ rest) := by
  rcases isField with ⟨nonempty, noSpace, noComment⟩
  cases field with
  | nil => exact absurd rfl nonempty
  | cons c field =>
      apply skipWhite_cons (noSpace c List.mem_cons_self)
      simpa using noComment

theorem takeWhile_word {word rest : List Byte} (noSpace : ∀ c ∈ word, isspace c = false)
    (ended : ∀ c ∈ rest.head?, isspace c = true) :
    (word ++ rest).takeWhile (fun c => !isspace c) = word ∧
      (word ++ rest).dropWhile (fun c => !isspace c) = rest := by
  have whole : ∀ c ∈ word, (!isspace c) = true := by
    intro c mem
    rw [noSpace c mem]
    rfl
  rw [List.takeWhile_append_of_pos whole, List.dropWhile_append_of_pos whole]
  cases rest with
  | nil => simp
  | cons c rest => simp [ended c rfl]

theorem IsField.skipToken {field : List Byte} (isField : IsField field) (rest : List Byte) :
    skipToken (field ++ 0x20 :: rest) = NetSnmp.skipWhite rest := by
  have blank : ∀ c ∈ (0x20 :: rest).head?, isspace c = true := by
    intro c mem
    obtain rfl : 0x20 = c := by simpa using mem
    rfl
  have behind : skipNotWhite (field ++ 0x20 :: rest) = some (0x20 :: rest) := by
    rw [skipNotWhite, (takeWhile_word isField.noSpace blank).2]
    rfl
  rw [NetSnmp.skipToken, isField.skipWhite]
  simp only [Option.bind_eq_bind, Option.bind_some, behind]
  exact skipWhite_space rest

/-- `%d` -/
def formatD (n : Int) : List Byte :=
  if n < 0 then 0x2d :: decimal n.natAbs else decimal n.natAbs

theorem isField_decimal (n : Nat) : IsField (decimal n) where
  nonempty := decimal_ne_nil n
  noSpace c mem := isspace_of_isdigit (decimal_digits n c mem)
  noComment := by
    intro comment
    have digit := decimal_digits n 0x23 (List.mem_of_mem_head? comment)
    exact absurd digit (by decide)

theorem isField_formatD (n : Int) : IsField (formatD n) := by
  have digits := isField_decimal n.natAbs
  unfold formatD
  split
  · constructor
    · simp
    · intro c mem
      rcases List.mem_cons.mp mem with rfl | mem
      · rfl
      · exact digits.noSpace c mem
    · simp
  · exact digits

theorem magnitude_decimal_append (n : Nat) (rest : List Byte) :
    magnitude (decimal n ++ 0x20 :: rest) = n := by
  have value := magnitude_decimal n
  have whole : ∀ c ∈ decimal n, isdigit c = true := decimal_digits n
  rw [magnitude, List.takeWhile_eq_self_iff.mpr whole] at value
  have blank : isdigit 0x20 = false := rfl
  rw [magnitude, List.takeWhile_append_of_pos whole, List.takeWhile_cons_of_neg (by simp [blank]),
    List.append_nil]
  exact value

theorem atoi_formatD {n : Int} (lower : -2 ^ 31 ≤ n) (upper : n < 2 ^ 31) (rest : List Byte) :
    atoi (formatD n ++ 0x20 :: rest) = n := by
  have read : strtol (formatD n ++ 0x20 :: rest) = n := by
    have value := magnitude_decimal_append n.natAbs rest
    unfold formatD
    split
    · rw [strtol, List.cons_append, List.dropWhile_cons_of_neg (by decide)]
      simp only [value]
      omega
    · have digits := decimal_digits n.natAbs
      cases whole : decimal n.natAbs with
      | nil => exact absurd whole (decimal_ne_nil _)
      | cons c more =>
          have digit := digits c (whole ▸ List.mem_cons_self)
          rw [whole] at value
          have notMinus : c ≠ 0x2d := by
            rintro rfl
            exact absurd digit (by decide)
          have notPlus : c ≠ 0x2b := by
            rintro rfl
            exact absurd digit (by decide)
          rw [strtol, List.cons_append,
            List.dropWhile_cons_of_neg (by simp [isspace_of_isdigit digit])]
          rw [List.cons_append] at value
          split
          · simp_all
          · simp_all
          · rw [value]
            omega
  rw [atoi, read]
  apply Int.bmod_eq_of_le
  · omega
  · omega

def snmpMaxbuf : Nat := 1024 * 4

/-- What `read_config_read_octet_string` puts into a buffer, if anything, in front of a zero, and
what it returns. -/
structure OctetsRead where
  bytes : Option (List Byte)
  rest : Option (List Byte)
  deriving DecidableEq, Repr

/-- `read_config_read_octet_string` into a buffer of `len` bytes, or into one that it allocates.
There is no result where two characters are not digits; the buffer then holds a part of the
string. -/
def readConfigReadOctetString (line : Option (List Byte)) (len : Option Nat) : Option OctetsRead :=
  match line with
  | none => some ⟨none, none⟩
  | some text =>
      if sameWord (text.take 2) [0x30, 0x78] then
        let digits := (text.drop 2).takeWhile fun c => !isspace c
        let rest := (text.drop 2).dropWhile fun c => !isspace c
        if digits.length % 2 = 1 then some ⟨none, none⟩
        else if len.any fun len => len ≤ digits.length / 2 then some ⟨none, skipWhite rest⟩
        else (readHex digits).map fun bytes => ⟨some bytes, skipWhite rest⟩
      else
        let copied := copyNword text (len.getD snmpMaxbuf)
        some ⟨some copied.1, copied.2⟩

theorem readConfigReadOctetString_quoted {str : List Byte} (rest : List Byte) {len : Option Nat}
    (printable : str.all fun c => isalpha c || isdigit c || decide (c = 0x20))
    (short : str.length < len.getD snmpMaxbuf) :
    readConfigReadOctetString (some (0x22 :: str ++ [0x22] ++ rest)) len =
      some ⟨some str, skipWhite rest⟩ := by
  have plain : ∀ c ∈ str, decide (c = 0x22) = false ∧ c ≠ 0x5c := by
    intro c mem
    have kind := List.all_eq_true.mp printable c mem
    constructor
    · apply decide_eq_false
      rintro rfl
      exact absurd kind (by decide)
    · rintro rfl
      exact absurd kind (by decide)
  have copied := copyChars_append (0x22 :: rest) plain (by simp)
  have notHex : sameWord ((0x22 :: (str ++ 0x22 :: rest)).take 2) [0x30, 0x78] = false := by
    cases str with
    | nil => rfl
    | cons c str => simp [sameWord, tolower]
  have line_eq : 0x22 :: str ++ [0x22] ++ rest = 0x22 :: (str ++ 0x22 :: rest) := by simp
  simp only [line_eq, readConfigReadOctetString, notHex, Bool.false_eq_true, if_false]
  rw [copyNword, if_pos (by decide)]
  simp only [copied, List.drop_succ_cons, List.drop_zero]
  rw [List.take_of_length_le (by omega)]

theorem readConfigReadOctetString_hex (str : List Byte) {rest : List Byte}
    (ended : ∀ c ∈ rest.head?, isspace c = true) (len : Option Nat) :
    readConfigReadOctetString (some (0x30 :: 0x78 :: hexDigits str ++ rest)) len =
      some ⟨if len.any fun len => len ≤ str.length then none else some str, skipWhite rest⟩ := by
  have digits := takeWhile_word (hexDigits_noSpace str) ended
  have length_eq : (hexDigits str).length = 2 * str.length := by
    simp [hexDigits]
    omega
  have isHex : sameWord ((0x30 :: 0x78 :: (hexDigits str ++ rest)).take 2) [0x30, 0x78] = true :=
    rfl
  simp only [List.cons_append, readConfigReadOctetString, isHex, if_true, List.drop_succ_cons,
    List.drop_zero, digits, length_eq, readHex_hexDigits, Option.map_some, Nat.mul_mod_right,
    Nat.mul_div_right _ Nat.two_pos, Nat.zero_ne_one, if_false]
  split
  · rfl
  · rfl

theorem readConfigReadOctetString_saveOctetString (rest : List Byte) {str : List Byte}
    (short : str.length < snmpMaxbuf) (ended : ∀ c ∈ rest.head?, isspace c = true) :
    readConfigReadOctetString (some (saveOctetString (some str) ++ rest)) none =
      some ⟨some str, skipWhite rest⟩ := by
  rw [saveOctetString]
  split
  · rename_i printable
    exact readConfigReadOctetString_quoted rest printable.2 short
  · exact readConfigReadOctetString_hex str ended none

def saveString (str : CString) : List Byte := saveOctetString (some (str.chars ++ [0]))

theorem saveString_eq (str : CString) :
    saveString str = 0x30 :: 0x78 :: hexDigits (str.chars ++ [0]) := by
  have zero : ¬ (str.chars ++ [0]).all
      (fun c => isalpha c || isdigit c || decide (c = 0x20)) = true := by
    intro printable
    have kind := List.all_eq_true.mp printable 0 (by simp)
    exact absurd kind (by decide)
  rw [saveString, saveOctetString, if_neg (fun both => zero both.2)]

theorem isField_saveString (str : CString) : IsField (saveString str) := by
  rw [saveString_eq]
  constructor
  · simp
  · intro c mem
    rcases List.mem_cons.mp mem with rfl | mem
    · rfl
    · rcases List.mem_cons.mp mem with rfl | mem
      · rfl
      · exact hexDigits_noSpace _ c mem
  · simp

theorem readConfigReadOctetString_saveString (str : CString) {rest : List Byte}
    (ended : ∀ c ∈ rest.head?, isspace c = true) (len : Nat) :
    readConfigReadOctetString (some (saveString str ++ rest)) (some len) =
      some ⟨if str.strlen + 2 ≤ len then some (str.chars ++ [0]) else none, skipWhite rest⟩ := by
  have length_eq : (str.chars ++ [0]).length = str.strlen + 1 := by simp [CString.strlen]
  rw [saveString_eq, readConfigReadOctetString_hex (str.chars ++ [0]) ended, length_eq]
  simp only [Option.any_some, decide_eq_true_eq]
  by_cases room : str.strlen + 2 ≤ len
  · rw [if_neg (by omega), if_pos room]
  · rw [if_pos (by omega), if_neg room]

theorem ofBuffer_append_zero (str : CString) (rest : List Byte) :
    CString.ofBuffer (str.chars ++ 0 :: rest) = str := by
  apply CString.ext
  have noNul : ∀ char ∈ str.chars, decide (char ≠ 0) = true := by
    intro char mem
    exact decide_eq_true (ne_of_mem_of_not_mem mem str.noNul)
  change (str.chars ++ 0 :: rest).takeWhile _ = _
  rw [List.takeWhile_append_of_pos noNul]
  simp

end NetSnmp
