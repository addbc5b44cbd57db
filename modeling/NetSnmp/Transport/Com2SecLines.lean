import NetSnmp.Mib.PrintedNumbers
import NetSnmp.Transport.Com2Sec

/-!
# Complete lines

The texts of `com2sec` and `com2sec6` lines with numeric sources, the rules that they stand for, and
what the parsers make of them.
-/

namespace NetSnmp

def isAddressChar (c : Byte) : Bool :=
  isdigit c || (0x61 ≤ c && c ≤ 0x66) || (0x41 ≤ c && c ≤ 0x46) || c = 0x2e || c = 0x3a

structure NumericAddress {octets : Nat} (inetPton : List Byte → Option (InAddr octets)) where
  text : List Byte
  value : InAddr octets
  reads : inetPton text = some value
  plain : ∀ c ∈ text, isAddressChar c = true
  separated : ∃ c ∈ text, c = 0x2e ∨ c = 0x3a
  short : text.length ≤ 45

def digitsValue (digits : List Byte) : Nat :=
  digits.foldl (fun value c => 10 * value + (c.toNat - 0x30)) 0

/-- The mask of a source: none, a number of leading bits, or an address. -/
inductive SourceMask {octets : Nat} (inetPton : List Byte → Option (InAddr octets)) where
  | whole
  | leading (digits : List Byte) (isNumber : digits ≠ [] ∧ ∀ c ∈ digits, isdigit c = true)
  | given (mask : NumericAddress inetPton)

/-- A source; it is `default` where there is no network. -/
structure Com2SecSource {octets : Nat} (inetPton : List Byte → Option (InAddr octets)) where
  negate : Bool
  network : Option (NumericAddress inetPton)
  mask : SourceMask inetPton

section Source

variable {octets : Nat} {inetPton : List Byte → Option (InAddr octets)}

namespace SourceMask

def text : SourceMask inetPton → List Byte
  | whole => []
  | leading digits _ => 0x2f :: digits
  | given mask => 0x2f :: mask.text

/-- The number of leading bits is one that addresses have. -/
def inRange : SourceMask inetPton → Bool
  | leading digits _ => digitsValue digits ≤ 8 * octets
  | _ => true

def maskBit : SourceMask inetPton → Nat → Bool
  | whole, _ => true
  | leading digits _, i => i < digitsValue digits
  | given mask, i => mask.value.bit i

def Covers (mask : SourceMask inetPton) (a : InAddr octets) : Prop :=
  mask.inRange = true ∧ ∀ i < 8 * octets, a.bit i = true → mask.maskBit i = true

instance (mask : SourceMask inetPton) (a : InAddr octets) : Decidable (mask.Covers a) :=
  inferInstanceAs (Decidable (_ ∧ _))

/-- What is read of a mask where the digits behind `room` are cut off. -/
def cut (room : Nat) : SourceMask inetPton → SourceMask inetPton
  | leading digits isNumber =>
      if nonempty : digits.take room ≠ [] then
        leading (digits.take room) ⟨nonempty, fun c mem => isNumber.2 c (List.mem_of_mem_take mem)⟩
      else whole
  | mask => mask

end SourceMask

namespace Com2SecSource

def name (source : Com2SecSource inetPton) : List Byte :=
  match source.network with
  | none => wordDefault
  | some network => network.text

def mark (source : Com2SecSource inetPton) : List Byte := if source.negate then [0x21] else []

def text (source : Com2SecSource inetPton) : List Byte :=
  source.mark ++ source.name ++ source.mask.text

/-- The address of the network, which is zero for `default`. -/
def value (source : Com2SecSource inetPton) : InAddr octets :=
  match source.network with
  | none => InAddr.zero
  | some network => network.value

/-- The bits that are compared: none for `default` without a mask. -/
def maskBit (source : Com2SecSource inetPton) (i : Nat) : Bool :=
  match source.network, source.mask with
  | none, .whole => false
  | _, mask => mask.maskBit i

/-- The length is in range, and the address has no bit outside the mask. -/
def Accepted (source : Com2SecSource inetPton) : Prop :=
  source.mask.inRange = true ∧
    ∀ i < 8 * octets, source.value.bit i = true → source.maskBit i = true

instance (source : Com2SecSource inetPton) : Decidable source.Accepted :=
  inferInstanceAs (Decidable (_ ∧ _))

/-- The digits of a prefix length that fit into the first `len` characters of the source. -/
def room (source : Com2SecSource inetPton) (len : Nat) : Nat :=
  len - (source.mark.length + source.name.length + 1)

end Com2SecSource

/-- All bits of the address that are set are among the first `n`. -/
def InAddr.Within (a : InAddr octets) (n : Nat) : Prop := ∀ i < 8 * octets, a.bit i = true → i < n

/-- The prefix length of a network is read as it is meant: the number of the digits that fit is the
same, or both lines are rejected. -/
def SourceMask.ReadFor (room : Nat) (network : InAddr octets) : SourceMask inetPton → Prop
  | leading digits _ =>
      digitsValue (digits.take room) = digitsValue digits ∨
        8 * octets < digitsValue (digits.take room) ∨
        (¬ network.Within (digitsValue (digits.take room)) ∧
          (8 * octets < digitsValue digits ∨ ¬ network.Within (digitsValue digits)))
  | _ => True

/-- `default` with a mark or a mask is looked up as the name of a host, and has the addresses of
`hosts`; so it is read as it is meant if this is the address zero and there is a mask that is read
as it is meant, or if both lines are rejected. -/
def SourceMask.ReadForDefault (room : Nat) (hosts : List (InAddr octets)) :
    SourceMask inetPton → Prop
  | whole => False
  | given _ => hosts = [InAddr.zero]
  | leading digits _ =>
      if digitsValue digits ≤ 8 * octets then
        hosts = [InAddr.zero] ∧ digitsValue (digits.take room) = digitsValue digits
      else
        hosts = [] ∨ 8 * octets < digitsValue (digits.take room) ∨
          ∃ host ∈ hosts, ¬ host.Within (digitsValue (digits.take room))

/-- A source of which the first `len` characters are read, and which is read as it is meant. The
addresses of a host `default` are `hosts`. -/
def Com2SecSource.ReadAsMeant (len : Nat) (hosts : List (InAddr octets))
    (source : Com2SecSource inetPton) : Prop :=
  match source.network with
  | some network => source.mask.ReadFor (source.room len) network.value
  | none =>
      (source.negate = false ∧ source.mask = .whole) ∨
        source.mask.ReadForDefault (source.room len) hosts

end Source

/-- The first words of a text, as they are read into buffers that are large enough. -/
def SpellsWords : Option (List Byte) → List (List Byte) → Prop
  | _, [] => True
  | none, _ :: _ => False
  | some text, word :: words =>
      (copyNword text (text.length + 1)).1 = word ∧
        SpellsWords (copyNword text (text.length + 1)).2 words

structure Com2SecLine {octets : Nat} (inetPton : List Byte → Option (InAddr octets)) where
  text : List Byte
  context : Option (List Byte)
  secName : List Byte
  source : Com2SecSource inetPton
  community : List Byte
  words : SpellsWords (some text)
    ((match context with
      | none => []
      | some context => [contextOption, context]) ++ [secName, source.text, community])
  context_short : ∀ context' ∈ context, context'.length ≤ vacmMaxString
  named : secName ≠ []
  name_short : secName.length ≤ vacmMaxString
  plain : context = none → secName ≠ contextOption
  nonempty : community ≠ []
  community_short : community.length ≤ communityMaxLen
  configured : community ≠ exampleCommunity

structure Com2SecRule (octets : Nat) where
  community : List Byte
  secName : List Byte
  contextName : List Byte
  negate : Bool
  network : InAddr octets
  maskBit : Nat → Bool

namespace Com2SecLine

variable {octets : Nat} {inetPton : List Byte → Option (InAddr octets)}

def rule (line : Com2SecLine inetPton) : Com2SecRule octets :=
  ⟨line.community, line.secName, line.context.getD [], line.source.negate, line.source.value,
    line.source.maskBit⟩

def readAs (line : Com2SecLine inetPton) (source : List Byte) : Com2SecWords :=
  ⟨line.context.getD [], line.secName, source, line.community⟩

def entry (line : Com2SecLine inetPton) (network mask : InAddr octets) : Com2SecEntry octets :=
  ⟨line.secName, line.context.getD [], network, mask, line.source.negate, line.community⟩

end Com2SecLine

theorem length_copyChars (ends : Byte → Bool) (text : List Byte) :
    (copyChars ends text).1.length ≤ text.length := by
  induction text using copyChars.induct ends with
  | case1 => exact Nat.le_refl _
  | case2 c ended => simp [copyChars, ended]
  | case3 c goes => simp [copyChars, goes]
  | case4 c c' rest ended => simp [copyChars, ended]
  | case5 c' rest goes ih =>
      simp [copyChars, goes]
      omega
  | case6 c c' rest goes plain ih =>
      simp only [List.length_cons] at ih
      simp [copyChars, goes, plain]
      omega

theorem copyNword_eq (text : List Byte) (len : Nat) :
    copyNword text len =
      ((copyNword text (text.length + 1)).1.take (len - 1),
        (copyNword text (text.length + 1)).2) := by
  cases text with
  | nil => simp [copyNword]
  | cons quote rest =>
      rw [copyNword, copyNword]
      split_ifs with quoted
      · have inside := length_copyChars (fun c => c = quote) rest
        simp only [Nat.add_sub_cancel, List.length_cons]
        rw [List.take_of_length_le (Nat.le_succ_of_le inside)]
      · have inside := length_copyChars isspace (quote :: rest)
        simp only [Nat.add_sub_cancel]
        rw [List.take_of_length_le inside]

theorem SpellsWords.copy {text : Option (List Byte)} {word : List Byte} {words : List (List Byte)}
    (spells : SpellsWords text (word :: words)) (len : Nat) :
    ∃ text', text = some text' ∧ ∃ rest, copyNword text' len = (word.take (len - 1), rest) ∧
      SpellsWords rest words := by
  cases text with
  | none => exact absurd spells id
  | some text =>
      refine ⟨text, rfl, _, ?_, spells.2⟩
      rw [copyNword_eq, spells.1]

theorem take_vacmstring {word : List Byte} (short : word.length ≤ vacmMaxString) :
    word.take (vacmstringlen - 1) = word :=
  List.take_of_length_le (Nat.le_succ_of_le short)

theorem readNames_line {octets : Nat} {inetPton : List Byte → Option (InAddr octets)}
    (line : Com2SecLine inetPton) (lengths : Bool) :
    ∃ rest, readNames lengths line.text = .ok (line.context.getD [], line.secName, rest) ∧
      SpellsWords rest [line.source.text, line.community] := by
  have words := line.words
  cases context : line.context with
  | none =>
      rw [context] at words
      rcases words.copy vacmstringlen with ⟨_, ⟨⟩, rest, copied, words'⟩
      refine ⟨rest, ?_, words'⟩
      rw [take_vacmstring line.name_short] at copied
      simp only [readNames, copied, if_neg (line.plain context)]
      rfl
  | some context' =>
      have short := line.context_short context' context
      rw [context] at words
      rcases words.copy vacmstringlen with ⟨_, ⟨⟩, _, copied, words'⟩
      rcases words'.copy vacmstringlen with ⟨text', rfl, _, copied', words''⟩
      rcases words''.copy vacmstringlen with ⟨text'', rfl, rest, copied'', later⟩
      refine ⟨rest, ?_, later⟩
      have isOption : contextOption.take (vacmstringlen - 1) = contextOption := rfl
      rw [isOption] at copied
      rw [take_vacmstring short] at copied'
      rw [take_vacmstring line.name_short] at copied''
      have fits : ¬ (lengths = true ∧ vacmMaxString < context'.length) := fun long =>
        Nat.not_lt.mpr short long.2
      simp only [readNames, copied, if_true, copied', if_neg fits, copied'']
      rfl

theorem readWords_line {octets : Nat} {inetPton : List Byte → Option (InAddr octets)}
    (line : Com2SecLine inetPton) (lengths : Bool) {sourceLen : Nat}
    (nonempty : line.source.text.take (sourceLen - 1) ≠ [])
    (notExample : (line.source.text.take (sourceLen - 1)).take exampleNetwork.length ≠
      exampleNetwork) :
    readWords lengths sourceLen line.text =
      .ok (line.readAs (line.source.text.take (sourceLen - 1))) := by
  rcases readNames_line line lengths with ⟨rest, names_eq, words⟩
  rcases words.copy sourceLen with ⟨text, rfl, rest', copied, words'⟩
  rcases words'.copy (communityMaxLen + 2) with ⟨text', rfl, rest'', copied', -⟩
  have community_eq : line.community.take (communityMaxLen + 2 - 1) = line.community :=
    List.take_of_length_le (Nat.le_succ_of_le line.community_short)
  rw [community_eq] at copied'
  have source_eq : readSource sourceLen (some text) =
      .ok (line.source.text.take (sourceLen - 1), some text') := by
    simp only [readSource, copied, if_neg nonempty, if_neg notExample]
  have fits : ¬ (lengths = true ∧ communityMaxLen < line.community.length) := fun long =>
    Nat.not_lt.mpr line.community_short long.2
  have community_eq : readCommunity lengths (some text') = .ok line.community := by
    simp only [readCommunity, copied', if_neg line.nonempty, if_neg fits, if_neg line.configured]
  have fits' : ¬ (lengths = true ∧ vacmMaxString < line.secName.length) := fun long =>
    Nat.not_lt.mpr line.name_short long.2
  simp only [readWords, names_eq, if_neg line.named, if_neg fits', source_eq, community_eq]
  rfl

section Source

variable {octets : Nat} {inetPton : List Byte → Option (InAddr octets)}

theorem isAddressChar_of_isdigit {c : Byte} (digit : isdigit c = true) :
    isAddressChar c = true := by
  rw [isAddressChar, digit]
  rfl

theorem SourceMask.chars {mask : SourceMask inetPton} {c : Byte} (mem : c ∈ mask.text) :
    isAddressChar c = true ∨ c = 0x2f := by
  cases mask with
  | whole => cases mem
  | leading digits isNumber =>
      rcases List.mem_cons.mp mem with slash | inDigits
      · exact .inr slash
      · exact .inl (isAddressChar_of_isdigit (isNumber.2 c inDigits))
  | given mask =>
      rcases List.mem_cons.mp mem with slash | inText
      · exact .inr slash
      · exact .inl (mask.plain c inText)

theorem NumericAddress.head (network : NumericAddress inetPton) :
    ∃ c rest, network.text = c :: rest ∧ isAddressChar c = true := by
  rcases network.separated with ⟨sep, mem, -⟩
  cases text_eq : network.text with
  | nil =>
      rw [text_eq] at mem
      cases mem
  | cons c rest =>
      refine ⟨c, rest, rfl, network.plain c ?_⟩
      rw [text_eq]
      exact List.mem_cons_self

theorem isAddressChar_facts {c : Byte} (isChar : isAddressChar c = true) :
    isspace c = false ∧ c ≠ 0x2d ∧ c ≠ 0x2b ∧ c ≠ 0x21 ∧ c ≠ 0x40 ∧ c ≠ 0x2f := by
  revert c
  apply byte_forall
  decide +kernel

theorem digitValue_of_isdigit {c : Byte} (digit : isdigit c = true) :
    digitValue 10 c = some (c.toNat - 0x30) := by
  have bounds : 0x30 ≤ c.toNat ∧ c.toNat ≤ 0x39 := by
    simpa [isdigit, UInt8.le_iff_toNat_le] using digit
  rw [digitValue, if_pos digit, Option.filter_some, if_pos (decide_eq_true (by omega))]

theorem strtolPrefix_decimal (text : List Byte) : strtolPrefix 10 text = text := by
  unfold strtolPrefix
  split
  · exact if_neg fun all => absurd all.1 (by decide)
  · rfl

theorem strtolEnd_address {c : Byte} {rest word : List Byte} (isChar : isAddressChar c = true)
    (word_eq : (c :: rest).takeWhile (fun c => (digitValue 10 c).isSome) = word) :
    strtolEnd 10 (c :: rest) =
      if word = [] then none
      else some (min ((word.foldl (fun value c => 10 * value + (digitValue 10 c).getD 0) 0 : Nat) :
        Int) (2 ^ 63 - 1), (c :: rest).drop word.length) := by
  have facts := isAddressChar_facts isChar
  have noSpace : (c :: rest).dropWhile isspace = c :: rest :=
    List.dropWhile_cons_of_neg (by rw [facts.1]; decide)
  simp only [strtolEnd, noSpace, strtolSign_of_ne rest facts.2.1 facts.2.2.1, strtolPrefix_decimal,
    word_eq]
  rfl

theorem strtolEnd_digits {digits : List Byte}
    (isNumber : digits ≠ [] ∧ ∀ c ∈ digits, isdigit c = true) :
    strtolEnd 10 digits = some (min (digitsValue digits : Int) (2 ^ 63 - 1), []) := by
  rcases isNumber with ⟨nonempty, isDigit⟩
  have all : digits.takeWhile (fun c => (digitValue 10 c).isSome) = digits := by
    apply List.takeWhile_eq_self_iff.mpr
    intro c mem
    rw [digitValue_of_isdigit (isDigit c mem)]
    rfl
  have value : digits.foldl (fun value c => 10 * value + (digitValue 10 c).getD 0) 0 =
      digitsValue digits := by
    apply List.foldl_ext
    intro value c mem
    rw [digitValue_of_isdigit (isDigit c mem), Option.getD_some]
  cases digits with
  | nil => exact absurd rfl nonempty
  | cons c digits =>
      rw [strtolEnd_address (isAddressChar_of_isdigit (isDigit c List.mem_cons_self)) all,
        if_neg nonempty, value, List.drop_length]

theorem NumericAddress.strtolEnd_ne (a : NumericAddress inetPton) (v : Int) :
    strtolEnd 10 a.text ≠ some (v, []) := by
  rcases a.head with ⟨c, rest, text_eq, isChar⟩
  rcases a.separated with ⟨sep, mem, separator⟩
  rw [text_eq] at mem ⊢
  rw [strtolEnd_address isChar rfl]
  split
  · simp
  · intro same
    -- all of the text would be digits
    have short := List.drop_eq_nil_iff.mp (Prod.mk.inj (Option.some.inj same)).2
    have whole : (c :: rest).takeWhile (fun c => (digitValue 10 c).isSome) = c :: rest :=
      (List.takeWhile_prefix _).eq_of_length (le_antisymm (List.takeWhile_prefix _).length_le short)
    have isDigit := List.takeWhile_eq_self_iff.mp whole sep mem
    rcases separator with rfl | rfl
    · cases isDigit
    · cases isDigit

theorem le_foldl_digits (digits : List Byte) (value : Nat) :
    value ≤ digits.foldl (fun value c => 10 * value + (c.toNat - 0x30)) value := by
  induction digits generalizing value with
  | nil => exact le_rfl
  | cons c digits ih =>
      have first : value ≤ 10 * value + (c.toNat - 0x30) := by omega
      exact first.trans (ih _)

theorem digitsValue_take_le (digits : List Byte) (room : Nat) :
    digitsValue (digits.take room) ≤ digitsValue digits := by
  have whole_eq : digitsValue digits =
      (digits.drop room).foldl (fun value c => 10 * value + (c.toNat - 0x30))
        (digitsValue (digits.take room)) := by
    rw [digitsValue, digitsValue, ← List.foldl_append, List.take_append_drop]
  rw [whole_eq]
  exact le_foldl_digits _ _

theorem SourceMask.cut_leading {digits : List Byte}
    {isNumber : digits ≠ [] ∧ ∀ c ∈ digits, isdigit c = true} {room : Nat} (large : 0 < room) :
    ∃ isNumber', (leading digits isNumber : SourceMask inetPton).cut room =
      leading (digits.take room) isNumber' := by
  have nonempty : digits.take room ≠ [] := by
    rw [ne_eq, List.take_eq_nil_iff, not_or]
    exact ⟨Nat.ne_of_gt large, isNumber.1⟩
  exact ⟨_, dif_pos nonempty⟩

theorem SourceMask.take_text (mask : SourceMask inetPton) {room : Nat} (large : 45 ≤ room) :
    mask.text.take (room + 1) = (mask.cut room).text := by
  cases mask with
  | whole => exact List.take_nil
  | given mask =>
      apply List.take_of_length_le
      have short := mask.short
      simp only [text, List.length_cons]
      omega
  | leading digits isNumber =>
      rcases @cut_leading octets inetPton digits isNumber room (by omega) with ⟨isNumber', cut_eq⟩
      rw [cut_eq]
      rfl

theorem SourceMask.cut_eq_whole_iff {mask : SourceMask inetPton} {room : Nat} (large : 0 < room) :
    mask.cut room = whole ↔ mask = whole := by
  cases mask with
  | whole => exact iff_of_true rfl rfl
  | given mask => exact Iff.rfl
  | leading digits isNumber =>
      rcases @cut_leading octets inetPton digits isNumber room large with ⟨isNumber', cut_eq⟩
      rw [cut_eq]
      exact iff_of_false (by simp) (by simp)

namespace Com2SecSource

variable (source : Com2SecSource inetPton)

/-- The source of which the first `len` characters are left. -/
def cut (len : Nat) : Com2SecSource inetPton :=
  { source with mask := source.mask.cut (source.room len) }

theorem name_cons : ∃ c rest, source.name = c :: rest ∧ c ≠ 0x21 ∧ c ≠ 0x40 := by
  cases network_eq : source.network with
  | none => exact ⟨_, _, by rw [name, network_eq]; rfl, by decide, by decide⟩
  | some network =>
      rcases network.head with ⟨c, rest, text_eq, isChar⟩
      have facts := isAddressChar_facts isChar
      exact ⟨c, rest, by rw [name, network_eq, ← text_eq], facts.2.2.2.1, facts.2.2.2.2.1⟩

theorem name_chars : ∀ c ∈ source.name, c ≠ 0x2f ∧ c ≠ 0x4e := by
  cases network_eq : source.network with
  | none =>
      simp [name, network_eq, wordDefault]
  | some network =>
      rw [name, network_eq]
      intro c mem
      refine ⟨(isAddressChar_facts (network.plain c mem)).2.2.2.2.2, ?_⟩
      rintro rfl
      exact absurd (network.plain _ mem) (by decide)

theorem name_length : source.name.length ≤ 45 := by
  cases network_eq : source.network with
  | none =>
      simp only [name, network_eq]
      decide
  | some network =>
      rw [name, network_eq]
      exact network.short

theorem mark_length : source.mark.length ≤ 1 := by
  rw [mark]
  split <;> simp

variable {len : Nat} (large : 270 ≤ len)

include large

theorem room_large : 45 ≤ source.room len := by
  have nameLength := source.name_length
  have markLength := source.mark_length
  rw [room]
  omega

theorem take_text : source.text.take len = (source.cut len).text := by
  have nameLength := source.name_length
  have markLength := source.mark_length
  have left : len - (source.mark ++ source.name).length = source.room len + 1 := by
    rw [room, List.length_append]
    omega
  rw [text, List.take_append, List.take_of_length_le, left,
    SourceMask.take_text _ (source.room_large large)]
  · rfl
  · rw [List.length_append]
    omega

omit large

theorem read_text : source.text ≠ [] ∧ source.text.take exampleNetwork.length ≠ exampleNetwork := by
  rcases source.name_cons with ⟨c, rest, name_eq, -⟩
  constructor
  · simp [text, name_eq]
  · intro same
    have mem : 0x4e ∈ source.text.take exampleNetwork.length := by
      rw [same]
      decide
    have inText := List.mem_of_mem_take mem
    rw [text, List.mem_append, List.mem_append] at inText
    rcases inText with (inMark | inName) | inMask
    · rw [mark] at inMark
      split at inMark
      · exact absurd inMark (by decide)
      · cases inMark
    · exact (source.name_chars _ inName).2 rfl
    · exact absurd (SourceMask.chars inMask) (by decide)

theorem text_eq_wordDefault_iff :
    source.text = wordDefault ↔
      source.network = none ∧ source.negate = false ∧ source.mask = .whole := by
  constructor
  · intro same
    have chars : ∀ c ∈ source.text, isAddressChar c = true → c = 0x64 ∨ c = 0x65 ∨ c = 0x66 ∨
        c = 0x61 := by
      rw [same]
      simp only [wordDefault, List.forall_mem_cons, List.not_mem_nil, IsEmpty.forall_iff,
        implies_true, and_true]
      decide
    have noMark : ∀ c ∈ source.text, c ≠ 0x21 ∧ c ≠ 0x2f := by
      rw [same]
      simp [wordDefault]
    refine ⟨?_, ?_, ?_⟩
    · cases network_eq : source.network with
      | none => rfl
      | some network =>
          rcases network.separated with ⟨sep, mem, isSep⟩
          have inText : sep ∈ source.text := by
            simp [text, name, network_eq, mem]
          have letter := chars sep inText (network.plain sep mem)
          rcases isSep with rfl | rfl
          · exact absurd letter (by decide)
          · exact absurd letter (by decide)
    · cases negate_eq : source.negate with
      | false => rfl
      | true =>
          have inText : 0x21 ∈ source.text := by simp [text, mark, negate_eq]
          exact absurd rfl (noMark _ inText).1
    · cases mask_eq : source.mask with
      | whole => rfl
      | leading digits isNumber =>
          have inText : 0x2f ∈ source.text := by simp [text, mask_eq, SourceMask.text]
          exact absurd rfl (noMark _ inText).2
      | given mask =>
          have inText : 0x2f ∈ source.text := by simp [text, mask_eq, SourceMask.text]
          exact absurd rfl (noMark _ inText).2
  · rintro ⟨network_eq, negate_eq, mask_eq⟩
    rw [text, mark, name, network_eq, negate_eq, mask_eq]
    rfl

end Com2SecSource

def SourceMask.strmask : SourceMask inetPton → Option (List Byte)
  | whole => none
  | leading digits _ => some digits
  | given mask => some mask.text

theorem splitNegate_text (source : Com2SecSource inetPton) :
    splitNegate source.text = (source.negate, source.name ++ source.mask.text) := by
  rcases source.name_cons with ⟨c, rest, name_eq, noMark, -⟩
  cases negate_eq : source.negate with
  | true => simp [Com2SecSource.text, Com2SecSource.mark, negate_eq, splitNegate]
  | false =>
      simp only [Com2SecSource.text, Com2SecSource.mark, negate_eq, Bool.false_eq_true, if_false,
        List.nil_append, name_eq, List.cons_append]
      unfold splitNegate
      split
      next same => exact absurd (List.cons.inj same).1 noMark
      next => rfl

theorem splitMask_text (source : Com2SecSource inetPton) :
    splitMask (source.name ++ source.mask.text) = (source.name, source.mask.strmask) := by
  have noSlash : ∀ c ∈ source.name, decide (c ≠ 0x2f) = true := fun c mem =>
    decide_eq_true (source.name_chars c mem).1
  rw [splitMask, List.takeWhile_append_of_pos noSlash, List.dropWhile_append_of_pos noSlash]
  cases source.mask <;> simp [SourceMask.text, SourceMask.strmask]

theorem netsnmpParseSourceAsNetgroup_name (resolver : Resolver) (list : Com2SecList 4)
    (words : Com2SecWords) (source : Com2SecSource inetPton) (rest : List Byte) (negate : Bool) :
    netsnmpParseSourceAsNetgroup resolver list words (source.name ++ rest) negate = none := by
  rcases source.name_cons with ⟨c, rest', name_eq, -, noAt⟩
  rw [name_eq]
  unfold netsnmpParseSourceAsNetgroup
  split
  next same => exact absurd (List.cons.inj same).1 noAt
  next => rfl

end Source

/-- The mask of a source as it is parsed, if the number of bits is in range. -/
structure MaskParsed {octets : Nat} {inetPton : List Byte → Option (InAddr octets)}
    (mask : SourceMask inetPton) (parsed : Except String (InAddr octets)) : Prop where
  inRange : mask.inRange = true → ∃ m, parsed = .ok m ∧ ∀ i < 8 * octets, m.bit i = mask.maskBit i
  outside : mask.inRange = false → ∃ message, parsed = .error message

theorem parseMask4_parsed (resolver : Resolver) {mask : SourceMask resolver.inetPton4}
    {strmask : List Byte} (given : mask.strmask = some strmask) :
    MaskParsed mask (parseMask4 resolver strmask) := by
  cases mask with
  | whole => cases given
  | given mask =>
      cases given
      have noNumber := mask.strtolEnd_ne
      have parsed_eq : parseMask4 resolver mask.text = .ok mask.value := by
        unfold parseMask4
        split
        next v same => exact absurd same (noNumber v)
        next => rw [mask.reads]
      rw [parsed_eq]
      exact ⟨fun _ => ⟨mask.value, rfl, fun _ _ => rfl⟩, fun wrong => by cases wrong⟩
  | leading _ isNumber =>
      cases given
      rw [parseMask4, strtolEnd_digits isNumber]
      constructor
      · intro inRange
        have small : digitsValue strmask ≤ 32 := of_decide_eq_true inRange
        have value_eq : min (digitsValue strmask : Int) (2 ^ 63 - 1) = digitsValue strmask := by
          omega
        simp only [value_eq]
        by_cases zero : digitsValue strmask = 0
        · refine ⟨InAddr.zero, by simp [zero], fun i inside => ?_⟩
          rw [InAddr.bit_zero inside, SourceMask.maskBit, zero]
          simp
        · refine ⟨InAddr.leading4 (digitsValue strmask), ?_, fun i inside => ?_⟩
          · rw [if_pos (by omega), Int.toNat_natCast]
          · exact InAddr.bit_leading4 inside small
      · intro outside
        have large : ¬ digitsValue strmask ≤ 32 := of_decide_eq_false outside
        refine ⟨"bad mask length", ?_⟩
        simp only
        rw [if_neg (by omega), if_neg (by omega)]

theorem parseMask6_parsed (resolver : Resolver) {mask : SourceMask resolver.inetPton6}
    {strmask : List Byte} (given : mask.strmask = some strmask) :
    MaskParsed mask (parseMask6 resolver strmask) := by
  cases mask with
  | whole => cases given
  | given mask =>
      cases given
      have noNumber := mask.strtolEnd_ne
      have parsed_eq : parseMask6 resolver mask.text = .ok mask.value := by
        unfold parseMask6
        split
        next v same => exact absurd same (noNumber v)
        next => rw [mask.reads]
      rw [parsed_eq]
      exact ⟨fun _ => ⟨mask.value, rfl, fun _ _ => rfl⟩, fun wrong => by cases wrong⟩
  | leading _ isNumber =>
      cases given
      rw [parseMask6, strtolEnd_digits isNumber]
      constructor
      · intro inRange
        have small : digitsValue strmask ≤ 128 := of_decide_eq_true inRange
        have value_eq : min (digitsValue strmask : Int) (2 ^ 63 - 1) = digitsValue strmask := by
          omega
        refine ⟨InAddr.leading6 (digitsValue strmask), ?_, fun i inside => ?_⟩
        · simp only [value_eq]
          rw [if_pos (by omega), Int.toNat_natCast]
        · exact InAddr.bit_leading6 inside
      · intro outside
        have large : ¬ digitsValue strmask ≤ 128 := of_decide_eq_false outside
        refine ⟨"bad mask length", ?_⟩
        simp only
        rw [if_neg (by omega)]

end NetSnmp
