import NetSnmp.CString
import NetSnmp.Config.Text
import NetSnmp.Passes

/-!
# Values that are written by a display hint

`parse_octet_hint` and the functions it calls. A text is what is left of it in front of its
terminating zero. Allocation succeeds; an `int` wraps around.
-/

namespace NetSnmp

def digitValue (base : Nat) (c : Byte) : Option Nat :=
  let value :=
    if isdigit c then some (c.toNat - 0x30)
    else if 0x61 ≤ tolower c ∧ tolower c ≤ 0x66 then some ((tolower c).toNat - 0x57)
    else none
  value.filter (· < base)

def strtolSign (text : List Byte) : Bool × List Byte :=
  match text with
  | 0x2d :: digits => (true, digits)
  | 0x2b :: digits => (false, digits)
  | digits => (false, digits)

/-- `0x` in front of the digits of a hexadecimal number. -/
def strtolPrefix (base : Nat) (text : List Byte) : List Byte :=
  match text with
  | 0x30 :: x :: digit :: rest =>
      if base = 16 ∧ tolower x = 0x78 ∧ (digitValue base digit).isSome then digit :: rest else text
  | _ => text

/-- `strtol` with what is left behind the number, or `none` if there is none: then the end is
the start of the text. -/
def strtolEnd (base : Nat) (text : List Byte) : Option (Int × List Byte) :=
  let signed := strtolSign (text.dropWhile isspace)
  let digits := strtolPrefix base signed.2
  let word := digits.takeWhile fun c => (digitValue base c).isSome
  if word = [] then none
  else
    let magnitude : Nat := word.foldl (fun value c => base * value + (digitValue base c).getD 0) 0
    let value : Int := if signed.1 then max (-magnitude) (-2 ^ 63) else min magnitude (2 ^ 63 - 1)
    some (value, digits.drop word.length)

/-- `struct parse_hints`, without the result. -/
structure ParseHints where
  length : Int := 0
  isRepeat : Bool := false
  format : Byte := 0
  separator : Byte := 0
  terminator : Byte := 0
  deriving DecidableEq, Repr

def formatBase (format : Byte) : Option Nat :=
  if format = 0x78 then some 16
  else if format = 0x64 then some 10
  else if format = 0x6f then some 8
  else none

def numberOctets (number : Int) (length : Int) : List Byte :=
  (List.range length.toNat).map fun i =>
    UInt8.ofNat ((number % 2 ^ 64).toNat >>> (8 * (length.toNat - 1 - i) % 64))

/-- What the format takes from a value: the octets that are added to the result, and the rest. -/
def ParseHints.takeFormat (ph : ParseHints) (v : List Byte) : Option (List Byte × List Byte) :=
  match formatBase ph.format with
  | some base =>
      (strtolEnd base v).map fun (number, rest) => (numberOctets number ph.length, rest)
  | none =>
      if ph.format = 0x61 then some (v.take ph.length.toNat, v.drop ph.length.toNat)
      else some ([], v)

def ParseHints.skipSeparator (ph : ParseHints) (v : List Byte) : Option (List Byte) :=
  if ph.separator = 0 then some v
  else
    match v with
    | [] => some []
    | c :: rest => if c = ph.separator then some rest else none

/-- The state of the loop of `parse_hints_parse`. -/
structure HintLoop where
  octets : List Byte
  v : List Byte
  repeats : Nat := 0

/-- One pass of the loop of `parse_hints_parse`; a failure is `none`. -/
def ParseHints.pass (ph : ParseHints) (_ : Nat) (loop : HintLoop) : Option HintLoop ⊕ HintLoop :=
  match ph.takeFormat loop.v with
  | none => .inl none
  | some (octets, v) =>
      match ph.skipSeparator v with
      | none => .inl none
      | some v =>
          let loop : HintLoop := ⟨loop.octets ++ octets, v, loop.repeats + 1⟩
          if ph.terminator ≠ 0 ∧ v.head? = some ph.terminator then
            .inl (some { loop with v := v.tail })
          else if ph.isRepeat ∧ v ≠ [] then .inr loop
          else .inl (some loop)

/-- `parse_hints_parse`: the octets that it adds to the result and what is left of the value, or
`none` for a failure, if the loop ends within `fuel` passes. -/
def parseHintsParse (fuel : Nat) (ph : ParseHints) (v : List Byte) :
    Option (Option (List Byte × List Byte)) :=
  (repeatPasses ph.pass fuel 0 ⟨if ph.isRepeat then [0] else [], v, 0⟩).map fun ended =>
    ended.map fun loop =>
      (if ph.isRepeat then loop.octets.set 0 (UInt8.ofNat loop.repeats) else loop.octets, loop.v)

/-- `parse_hints_length_add_digit` -/
def ParseHints.lengthAddDigit (ph : ParseHints) (digit : Byte) : ParseHints :=
  { ph with length := (ph.length * 10 + (digit.toNat - 0x30 : Nat)).bmod (2 ^ 32) }

inductive HintState where
  | hint12
  | hint23
  | hint124
  | hint125
  deriving DecidableEq, Repr

inductive HintStop where
  /-- `return v` -/
  | refused (v : List Byte)
  | failed (v : List Byte)
  | ended (ph : ParseHints) (result v : List Byte)

def endRecord (fuel : Nat) (ph : ParseHints) (result v : List Byte)
    (next : List Byte → List Byte → Option HintStop) : Option HintStop :=
  match parseHintsParse fuel ph v with
  | none => none
  | some none => some (.failed v)
  | some (some (octets, v)) => next (result ++ octets) v

def readHint (fuel : Nat) (state : HintState) (ph : ParseHints) (result : List Byte)
    (hint v : List Byte) : Option HintStop :=
  match hint with
  | [] => some (.ended ph result v)
  | h :: hint =>
      if v = [] then some (.ended ph result v)
      else
        match state with
        | .hint12 =>
            if h = 0x2a then readHint fuel .hint23 { ph with isRepeat := true } result hint v
            else if isdigit h then readHint fuel .hint23 (ph.lengthAddDigit h) result hint v
            else some (.refused v)
        | .hint23 =>
            if isdigit h then readHint fuel .hint23 (ph.lengthAddDigit h) result hint v
            else if h = 0x78 ∨ h = 0x64 ∨ h = 0x6f ∨ h = 0x61 then
              readHint fuel .hint124 { ph with format := h } result hint v
            else some (.refused v)
        | .hint124 =>
            if h = 0x2a then
              endRecord fuel ph result v (readHint fuel .hint23 { isRepeat := true } · hint ·)
            else if isdigit h then
              endRecord fuel ph result v
                (readHint fuel .hint23 (ParseHints.lengthAddDigit {} h) · hint ·)
            else readHint fuel .hint125 { ph with separator := h } result hint v
        | .hint125 =>
            if h = 0x2a then
              endRecord fuel ph result v (readHint fuel .hint23 { isRepeat := true } · hint ·)
            else if isdigit h then
              endRecord fuel ph result v
                (readHint fuel .hint23 (ParseHints.lengthAddDigit {} h) · hint ·)
            else
              endRecord fuel { ph with terminator := h } result v
                (readHint fuel .hint12 {} · hint ·)

/-- What `parse_octet_hint` returns: `NULL` and the result, or a pointer into the value. -/
inductive HintReturn where
  | parsed (newVal : List Byte)
  | offending (v : List Byte)
  deriving DecidableEq, Repr

def finalLoop (fuel : Nat) (passes : Nat) (ph : ParseHints) (result v : List Byte) :
    Option HintReturn :=
  match passes with
  | 0 => none
  | passes + 1 =>
      if v = [] then some (.parsed result)
      else
        match parseHintsParse fuel ph v with
        | none => none
        | some none => some (.offending v)
        | some (some (octets, v)) => finalLoop fuel passes ph (result ++ octets) v

def HintStop.finish (fuel : Nat) : HintStop → Option HintReturn
  | .refused v => some (.offending v)
  | .failed v => some (.offending v)
  | .ended ph result v => finalLoop fuel fuel ph result v

/-- `parse_octet_hint`, if each of its loops ends within `fuel` passes. -/
def parseOctetHint (fuel : Nat) (hint value : CString) : Option HintReturn :=
  (readHint fuel .hint12 {} [] hint.chars value.chars).bind (HintStop.finish fuel)

end NetSnmp
