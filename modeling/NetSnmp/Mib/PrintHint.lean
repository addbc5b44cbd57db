import NetSnmp.CString
import NetSnmp.Mib.PrintBuffer
import NetSnmp.Passes

/-!
# Octet strings that are printed by a display hint

The part of `sprint_realloc_octet_string` for a hint. A hint is what is left of it with the zero that
ends it, and nothing is left behind that; a value is what is left of it. An `int` that overflows is
undefined, an `unsigned long` wraps around.
-/

namespace NetSnmp

structure PrintOptions where
  quickPrint : Bool
  hex2digit : Bool

structure HintSpec where
  width : Nat := 1
  code : Byte := 0x64
  separ : Byte := 0
  term : Byte := 0
  deriving DecidableEq, Repr

structure HintPrint where
  spec : HintSpec := {}
  hint : List Byte
  cp : List Byte
  buf : PrintBuf

/-- `*hint` -/
def hintChar : List Byte → Except PrintExit Byte
  | [] => .error .undefined
  | h :: _ => .ok h

/-- `*hint++` -/
def nextHintChar : List Byte → Except PrintExit (Byte × List Byte)
  | [] => .error .undefined
  | h :: hint => .ok (h, hint)

def readRepeat (hint cp : List Byte) : Except PrintExit (Nat × List Byte × List Byte) := do
  let h ← hintChar hint
  if h = 0x2a then
    match cp with
    | [] => .error .undefined
    | c :: cp => .ok (c.toNat, hint.tail, cp)
  else .ok (1, hint, cp)

def readWidth (width : Nat) : List Byte → Except PrintExit (Nat × List Byte)
  | [] => .error .undefined
  | h :: hint =>
      if isdigit h then
        if width * 10 + (h.toNat - 0x30) < 2 ^ 31 then
          readWidth (width * 10 + (h.toNat - 0x30)) hint
        else .error .undefined
      else .ok (width, h :: hint)

def isLiteral (width : Nat) (ch : Byte) : Bool :=
  ch ≠ 0 && ch ≠ 0x2a && !isdigit ch &&
    (width ≠ 0 || (ch ≠ 0x78 && ch ≠ 0x64 && ch ≠ 0x6f))

def readLiteral (width : Nat) : List Byte → Except PrintExit (Byte × List Byte)
  | [] => .error .undefined
  | ch :: hint => if isLiteral width ch then .ok (ch, hint) else .ok (0, ch :: hint)

def readFormat (hint : List Byte) : Except PrintExit (HintSpec × List Byte) := do
  let (width, hint) ← readWidth 0 hint
  let (code, hint) ← nextHintChar hint
  let (separ, hint) ← readLiteral width hint
  let (term, hint) ← readLiteral width hint
  .ok (⟨width, code, separ, term⟩, hint)

def HintPrint.readSpec (print : HintPrint) : Except PrintExit (Nat × HintPrint) := do
  let h ← hintChar print.hint
  if h = 0 then .ok (1, print)
  else do
    let (repeats, hint, cp) ← readRepeat print.hint print.cp
    let (spec, hint) ← readFormat hint
    .ok (repeats, { print with spec, hint, cp })

/-- `%lx`, `%lu` and `%lo` of `sprintf`. -/
def sprintfNumber (base n : Nat) : List Byte :=
  if n = 0 then [hexDigit 0] else (Nat.digits base n).reverse.map hexDigit

def readNumber : (width value : Nat) → List Byte → Nat × List Byte
  | 0, value, cp => (value, cp)
  | _ + 1, value, [] => (value, [])
  | width + 1, value, c :: cp => readNumber width ((value * 256 + c.toNat) % 2 ^ 64) cp

def hexNumber (options : PrintOptions) (spec : HintSpec) (hint : List Byte) (value : Nat) :
    Except PrintExit (List Byte) :=
  if value < 16 ∧ spec.width = 1 then
    if options.hex2digit then .ok (0x30 :: sprintfNumber 16 value)
    else if spec.separ = 0 then do
      let h ← hintChar hint
      .ok (if h = 0 then 0x30 :: sprintfNumber 16 value else sprintfNumber 16 value)
    else .ok (sprintfNumber 16 value)
  else .ok (sprintfNumber 16 value)

/-- The formats `t` and `a`: what is left of the value. -/
def printText (memory : PrintMemory) (width : Nat) (cp : List Byte) (buf : PrintBuf) :
    Except PrintExit (List Byte × PrintBuf) := do
  let cnt := min width cp.length
  let buf ← memory.makeRoom (buf.outLen + cnt + 1) buf
  if 0 ∈ cp.take cnt then do
    let buf ← memory.asciistring (cp.take cnt) buf
    .ok (cp.drop cnt, buf)
  else do
    let buf ← buf.putAll (cp.take cnt)
    let buf ← buf.putNul
    .ok (cp.drop cnt, buf)

def printBadHint (memory : PrintMemory) (savedOutLen : Nat) (savedHint : CString)
    (buf : PrintBuf) : Except PrintExit PrintBuf := do
  let buf ← buf.rewind savedOutLen
  let buf ← memory.cstrcat "(Bad hint ignored: ".toUTF8.toList buf
  let buf ← memory.cstrcat savedHint.chars buf
  memory.cstrcat ") ".toUTF8.toList buf

section

variable (options : PrintOptions) (memory : PrintMemory) (savedOutLen : Nat) (savedHint : CString)

/-- The `switch` over the format letter, with what is left of the value. -/
def printFormat (spec : HintSpec) (hint cp : List Byte) (buf : PrintBuf) :
    Except PrintExit (List Byte × PrintBuf) :=
  if spec.code = 0x61 ∨ spec.code = 0x74 then printText memory spec.width cp buf
  else
    let (value, cp) := readNumber spec.width 0 cp
    if spec.code = 0x78 then do
      let number ← hexNumber options spec hint value
      let buf ← memory.cstrcat number buf
      .ok (cp, buf)
    else if spec.code = 0x64 then do
      let buf ← memory.cstrcat (sprintfNumber 10 value) buf
      .ok (cp, buf)
    else if spec.code = 0x6f then do
      let buf ← memory.cstrcat (sprintfNumber 8 value) buf
      .ok (cp, buf)
    else do
      let buf ← printBadHint memory savedOutLen savedHint buf
      .error (.badHint buf)

def printSeparator (separ : Byte) (cp : List Byte) (buf : PrintBuf) : Except PrintExit PrintBuf :=
  if cp ≠ [] ∧ separ ≠ 0 then memory.putSeparator separ buf else .ok buf

/-- `while (repeat && cp < ecp)` -/
def printRepeats (spec : HintSpec) (hint : List Byte) :
    (repeats : Nat) → (cp : List Byte) → PrintBuf → Except PrintExit (List Byte × PrintBuf)
  | 0, cp, buf => .ok (cp, buf)
  | repeats + 1, cp, buf =>
      if cp = [] then .ok (cp, buf)
      else do
        let (cp, buf) ← printFormat options memory savedOutLen savedHint spec hint cp buf
        let buf ← printSeparator memory spec.separ cp buf
        printRepeats spec hint repeats cp buf

/-- `while (repeat > 0 && separ)` -/
def printSeparators (separ : Byte) (isLastSpec : Bool) :
    (repeats : Nat) → PrintBuf → Except PrintExit PrintBuf
  | 0, buf => .ok buf
  | repeats + 1, buf =>
      if separ = 0 then .ok buf
      else if isLastSpec ∧ repeats = 0 then .ok buf
      else do
        let buf ← memory.cstrcat [separ] buf
        printSeparators separ isLastSpec repeats buf

def printLiterals (spec : HintSpec) (isLastSpec : Bool) (repeats : Nat) (buf : PrintBuf) :
    Except PrintExit PrintBuf := do
  let buf ← printSeparators memory spec.separ isLastSpec repeats buf
  if spec.term ≠ 0 ∧ isLastSpec = false then memory.cstrcat [spec.term] buf else .ok buf

/-- What is done for a specification; the loop is left behind a last one of width zero. -/
def HintPrint.printSpec (print : HintPrint) (repeats : Nat) :
    Except PrintExit (PrintBuf ⊕ HintPrint) :=
  if print.spec.width = 0 then do
    let h ← hintChar print.hint
    let buf ← printLiterals memory print.spec (h = 0) repeats print.buf
    .ok (if h = 0 then .inl buf else .inr { print with buf })
  else do
    let (cp, buf) ← printRepeats options memory savedOutLen savedHint print.spec print.hint
      repeats print.cp print.buf
    let buf ← printSeparator memory print.spec.term cp buf
    .ok (.inr { print with cp, buf })

/-- One pass of `while (cp < ecp)`. -/
def HintPrint.pass (_ : Nat) (print : HintPrint) : Except PrintExit PrintBuf ⊕ HintPrint :=
  if print.cp = [] then .inl (.ok print.buf)
  else
    let printed := do
      let (repeats, print) ← print.readSpec
      print.printSpec options memory savedOutLen savedHint repeats
    match printed with
    | .error reason => .inl (.error reason)
    | .ok (.inl buf) => .inl (.ok buf)
    | .ok (.inr print) => .inr print

end

def finishPrint (memory : PrintMemory) (units : Option CString) (buf : PrintBuf) :
    Except PrintExit PrintBuf :=
  match units with
  | some units => do
      let buf ← memory.cstrcat [0x20] buf
      memory.cstrcat units.chars buf
  | none => do
      let buf ← memory.roomForOne buf
      buf.putNul

/-- The hint branch of `sprint_realloc_octet_string` for a value of type `ASN_OCTET_STR`, if its loop
ends within `fuel` passes. -/
def sprintReallocOctetString (fuel : Nat) (options : PrintOptions) (memory : PrintMemory)
    (hint : CString) (value : List Byte) (units : Option CString) (buf : PrintBuf) :
    Option (Except PrintExit PrintBuf) :=
  match if options.quickPrint then .ok buf else memory.cstrcat "STRING: ".toUTF8.toList buf with
  | .error reason => some (.error reason)
  | .ok start =>
      (repeatPasses (HintPrint.pass options memory buf.outLen hint) fuel 0
        { hint := hint.chars ++ [0], cp := value, buf := start }).map
        fun printed => printed >>= finishPrint memory units

end NetSnmp
