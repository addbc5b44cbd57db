import NetSnmp.Config.Text
import NetSnmp.CString
import NetSnmp.Octets

/-!
# Octets as hexadecimal text

The conversions of octets into hexadecimal digits and back, with the buffers that they write to.
-/

namespace NetSnmp

namespace HexText

def val2Hex (val : Byte) : Byte := val + if val ≥ 10 then 0x61 - 10 else 0x30

def hex2Val (c : Byte) : Byte :=
  (if isalpha c then tolower c - 0x61 + 10 else tolower c - 0x30) &&& 0xf

def isxdigit (c : Byte) : Bool :=
  isdigit c || (0x41 ≤ c && c ≤ 0x46) || (0x61 ≤ c && c ≤ 0x66)

/-- An allocated buffer with the variable for its length. -/
structure HexBuffer where
  memory : Nat → Byte
  len : Nat

namespace HexBuffer

def put? (buffer : HexBuffer) (place : Nat) (c : Byte) : Option HexBuffer :=
  if place < buffer.len then
    some { buffer with memory := Function.update buffer.memory place c }
  else none

/-- `snmp_realloc`, as long as there is memory. -/
def snmpRealloc (buffer : HexBuffer) : HexBuffer :=
  { buffer with len := snmpReallocLen buffer.len }

def octets (buffer : HexBuffer) (offset count : Nat) : List Byte :=
  (List.range count).map fun place => buffer.memory (offset + place)

end HexBuffer

/-- The loop of `netsnmp_binary_to_hex`. -/
def writeHex : List Byte → HexBuffer → (op : Nat) → Option (HexBuffer × Nat)
  | [], s, op => some (s, op)
  | octet :: input, s, op =>
      (s.put? op (val2Hex ((octet >>> 4) &&& 0xf))).bind fun s =>
        (s.put? (op + 1) (val2Hex (octet &&& 0xf))).bind fun s => writeHex input s (op + 2)

/-- The return value and `*dest` of `netsnmp_binary_to_hex`. The length of the output is an
`u_int`, the loop counts in an `int`, and success of `snmp_realloc` is taken for its failure. -/
def netsnmpBinaryToHex (dest : Option HexBuffer) (allowRealloc : Bool) (input : List Byte) :
    Option (Nat × Option HexBuffer) :=
  let olen := (input.length * 2 + 1) % 2 ^ 32
  let s := dest.getD { memory := fun _ => 0, len := olen }
  if s.len < olen then
    if allowRealloc then some (0, some (HexBuffer.snmpRealloc { s with len := olen }))
    else some (0, dest)
  else
    (writeHex (input.take ((input.length : Int).bmod (2 ^ 32)).toNat) s 0).bind fun (s, op) =>
      (s.put? op 0).bind fun s => some (olen, some { s with len := olen })

/-- `strchr` finds the character in the delimiters, which may be absent. -/
def isDelim (delim : Option (List Byte)) (c : Byte) : Bool := (delim.getD []).contains c

/-- The loop of `netsnmp_hex_to_binary`. Behind two digits there is no odd one. -/
def hexLoop (allowRealloc : Bool) (delim : Option (List Byte)) :
    List Byte → HexBuffer → (offset : Nat) → Option (Bool × HexBuffer × Nat)
  | [], buf, offset => some (true, buf, offset)
  | [c], buf, offset => some (isDelim delim c, buf, offset)
  | c :: c' :: cp, buf, offset =>
      if !isxdigit c || !isxdigit c' then
        if isDelim delim c then hexLoop allowRealloc delim (c' :: cp) buf offset
        else some (false, buf, offset)
      else if offset ≥ buf.len ∧ !allowRealloc then some (false, buf, offset)
      else
        let buf := if offset ≥ buf.len then buf.snmpRealloc else buf
        (buf.put? offset ((hex2Val c <<< 4) + hex2Val c')).bind fun buf =>
          hexLoop allowRealloc delim cp buf (offset + 1)

/-- `netsnmp_hex_to_binary`: whether it succeeds, the buffer and the new offset. -/
def netsnmpHexToBinary (buf : HexBuffer) (offset : Nat) (allowRealloc : Bool) (hex : List Byte)
    (delim : Option (List Byte)) : Option (Bool × HexBuffer × Nat) :=
  match hex with
  | c :: x :: cp =>
      if c = 0x30 ∧ (x = 0x78 ∨ x = 0x58) then hexLoop allowRealloc delim cp buf offset
      else hexLoop allowRealloc delim (c :: x :: cp) buf offset
  | cp => hexLoop allowRealloc delim cp buf offset

/-- The loop of `hex_to_binary2`, which ends without a buffer at another character. -/
def hexPairs : List Byte → HexBuffer → (op : Nat) → Option (Option HexBuffer)
  | [], s, _ => some (some s)
  | [c], _, _ => if isxdigit c then none else some none
  | c :: c' :: ip, s, op =>
      if !isxdigit c then some none
      else
        (s.put? op (hex2Val c <<< 4)).bind fun s =>
          if !isxdigit c' then some none
          else (s.put? op (s.memory op + hex2Val c')).bind fun s => hexPairs ip s (op + 1)

/-- `hex_to_binary2`: the return value and `*output`. -/
def hexToBinary2 (input : List Byte) : Option (Int × Option HexBuffer) :=
  let olen := (input.length / 2 + input.length % 2) % 2 ^ 32
  let s : HexBuffer := { memory := fun _ => 0, len := if olen ≠ 0 then olen else 1 }
  let read :=
    (s.put? 0 0).bind fun s =>
      match input.length % 2, input with
      | 1, c :: ip =>
          if !isxdigit c then some none
          else (s.put? 0 (hex2Val c)).bind fun s => hexPairs ip s 1
      | _, ip => hexPairs ip s 0
  read.map fun
    | none => (-1, none)
    | some s => ((olen : Int).bmod (2 ^ 32), some s)

structure IsHexText (count : Nat) (buffer : HexBuffer) (text : List Byte) : Prop where
  length : text.length = count
  digits : ∀ c ∈ text, isxdigit c = true
  holds : HoldsString buffer.memory 0 text
  inside : count < buffer.len

/-- `netsnmp_hex_to_binary` reads the octets with any delimiters, at any place of any buffer. -/
def ReadsBack (text octets : List Byte) : Prop :=
  ∀ delim (buf : HexBuffer) offset, offset ≤ buf.len → ∃ filled : HexBuffer,
    netsnmpHexToBinary buf offset true text delim =
        some (true, filled, offset + octets.length) ∧
      offset + octets.length ≤ filled.len ∧ filled.octets offset octets.length = octets

/-- `hex_to_binary2` returns the octets in a buffer of its own. -/
def ReadsBack2 (text octets : List Byte) : Prop :=
  ∃ output : HexBuffer, hexToBinary2 text = some ((octets.length : Int), some output) ∧
    octets.length ≤ output.len ∧ output.octets 0 octets.length = octets

/-- The octets are written as text into the buffer, and read back from that text. -/
def HexRoundTrips (input : List Byte) (buffer : HexBuffer) : Prop :=
  ∃ olen written text, netsnmpBinaryToHex (some buffer) true input = some (olen, some written) ∧
    olen ≠ 0 ∧ IsHexText (2 * input.length) written text ∧
    ReadsBack text input ∧ ReadsBack2 text input

def octetDigits (input : List Byte) : List Byte :=
  input.flatMap fun octet : Byte => [val2Hex ((octet >>> 4) &&& 0xf), val2Hex (octet &&& 0xf)]

theorem octetDigits_cons (octet : Byte) (input : List Byte) : octetDigits (octet :: input) =
    val2Hex ((octet >>> 4) &&& 0xf) :: val2Hex (octet &&& 0xf) :: octetDigits input := rfl

theorem length_octetDigits (input : List Byte) : (octetDigits input).length = 2 * input.length := by
  induction input with
  | nil => rfl
  | cons octet input ih =>
      rw [octetDigits_cons, List.length_cons, List.length_cons, ih, List.length_cons]
      omega

theorem isxdigit_val2Hex (octet : Byte) : isxdigit (val2Hex (octet &&& 0xf)) = true := by
  revert octet
  apply Octets.forall_octet
  decide +kernel

theorem not_prefix_val2Hex (octet : Byte) :
    ¬ (val2Hex (octet &&& 0xf) = 0x78 ∨ val2Hex (octet &&& 0xf) = 0x58) := by
  revert octet
  apply Octets.forall_octet
  decide +kernel

theorem val2Hex_ne_zero (octet : Byte) : val2Hex (octet &&& 0xf) ≠ 0 := by
  revert octet
  apply Octets.forall_octet
  decide +kernel

theorem hex2Val_digits (octet : Byte) :
    (hex2Val (val2Hex ((octet >>> 4) &&& 0xf)) <<< 4) + hex2Val (val2Hex (octet &&& 0xf)) =
      octet := by
  revert octet
  apply Octets.forall_octet
  decide +kernel

theorem isxdigit_octetDigits (input : List Byte) : ∀ c ∈ octetDigits input, isxdigit c = true := by
  intro c mem
  rcases List.mem_flatMap.mp mem with ⟨octet, -, mem⟩
  rcases List.mem_cons.mp mem with rfl | mem
  · exact isxdigit_val2Hex _
  · rw [List.mem_singleton.mp mem]
    exact isxdigit_val2Hex _

theorem HexBuffer.put?_of_lt {buffer : HexBuffer} {place : Nat} (c : Byte)
    (inside : place < buffer.len) : buffer.put? place c =
      some { buffer with memory := Function.update buffer.memory place c } := by
  rw [put?, if_pos inside]

theorem writeHex_holds (input : List Byte) {s : HexBuffer} {op : Nat}
    (room : op + 2 * input.length ≤ s.len) :
    ∃ s', writeHex input s op = some (s', op + 2 * input.length) ∧ s'.len = s.len ∧
      (∀ place < op, s'.memory place = s.memory place) ∧
      HoldsString (Function.update s'.memory (op + 2 * input.length) 0) op (octetDigits input) := by
  induction input generalizing s op with
  | nil => exact ⟨s, rfl, rfl, fun place before => rfl, Function.update_self ..⟩
  | cons octet input ih =>
      rw [List.length_cons] at room ⊢
      have places : op + 2 * (input.length + 1) = op + 2 + 2 * input.length := by omega
      rw [places] at room ⊢
      rw [writeHex, s.put?_of_lt _ (by omega), Option.bind_some,
        HexBuffer.put?_of_lt _ (by simp only; omega), Option.bind_some]
      generalize written : Function.update (Function.update s.memory op _) (op + 1) _ = memory
      rcases @ih { memory, len := s.len } (op + 2) room with ⟨s', run, len_eq, before, holds⟩
      have high : memory op = val2Hex ((octet >>> 4) &&& 0xf) := by
        rw [← written, Function.update_of_ne (Nat.ne_of_lt (Nat.lt_succ_self op)),
          Function.update_self]
      have low : memory (op + 1) = val2Hex (octet &&& 0xf) := by
        rw [← written, Function.update_self]
      refine ⟨s', run, len_eq, ?_, ?_⟩
      · intro place less
        apply (before place (by omega)).trans
        simp only
        rw [← written, Function.update_of_ne (by omega), Function.update_of_ne (by omega)]
      · rw [octetDigits_cons]
        refine ⟨?_, val2Hex_ne_zero _, ?_, val2Hex_ne_zero _, holds⟩
        · rw [Function.update_of_ne (by omega), before op (by omega)]
          exact high
        · rw [Function.update_of_ne (by omega), before (op + 1) (by omega)]
          exact low

theorem passes_eq (len : Nat) : ((len : Int).bmod (2 ^ 32)).toNat =
    if len % 2 ^ 32 < 2 ^ 31 then len % 2 ^ 32 else 0 := by
  rw [Int.bmod_def]
  split
  · split
    · omega
    · omega
  · split
    · omega
    · omega

theorem netsnmpBinaryToHex_eq {input : List Byte} {buffer : HexBuffer}
    (room : (input.length * 2 + 1) % 2 ^ 32 ≤ buffer.len) :
    ∃ written text, netsnmpBinaryToHex (some buffer) true input =
        some ((input.length * 2 + 1) % 2 ^ 32, some written) ∧
      written.len = (input.length * 2 + 1) % 2 ^ 32 ∧ HoldsString written.memory 0 text ∧
      text = octetDigits (input.take
        (if input.length % 2 ^ 32 < 2 ^ 31 then input.length % 2 ^ 32 else 0)) := by
  generalize count :
    (if input.length % 2 ^ 32 < 2 ^ 31 then input.length % 2 ^ 32 else 0) = passes
  have taken : (input.take passes).length = passes := by
    rw [List.length_take, Nat.min_eq_left]
    split at count
    · omega
    · omega
  have inside : 2 * passes < (input.length * 2 + 1) % 2 ^ 32 := by
    split at count
    · omega
    · omega
  have fits : 0 + 2 * (input.take passes).length ≤ buffer.len := by
    rw [taken]
    omega
  rcases writeHex_holds (input.take passes) fits with ⟨s, run, len_eq, -, holds⟩
  have last : 0 + 2 * (input.take passes).length < s.len := by
    rw [taken, len_eq]
    omega
  let memory := Function.update s.memory (0 + 2 * (input.take passes).length) 0
  refine ⟨⟨memory, (input.length * 2 + 1) % 2 ^ 32⟩, _, ?_, rfl, holds, rfl⟩
  simp only [netsnmpBinaryToHex, Option.getD_some, if_neg (Nat.not_lt_of_le room), passes_eq,
    count, run, Option.bind_some, s.put?_of_lt 0 last, memory]

theorem HexBuffer.octets_succ (buffer : HexBuffer) (offset count : Nat) :
    buffer.octets offset (count + 1) =
      buffer.memory offset :: buffer.octets (offset + 1) count := by
  rw [octets, List.range_succ_eq_map, List.map_cons, List.map_map]
  congr 1
  apply List.map_congr_left
  intro place _
  rw [Function.comp, Nat.succ_eq_add_one, Nat.add_assoc, Nat.add_comm 1 place]

theorem le_snmpRealloc (buffer : HexBuffer) : buffer.len < buffer.snmpRealloc.len := by
  have grown := le_snmpReallocLen buffer.len
  simp only [HexBuffer.snmpRealloc]
  omega

theorem hexLoop_reads (delim : Option (List Byte)) (input : List Byte) {buf : HexBuffer}
    {offset : Nat} (inside : offset ≤ buf.len) :
    ∃ filled, hexLoop true delim (octetDigits input) buf offset =
        some (true, filled, offset + input.length) ∧
      offset + input.length ≤ filled.len ∧
      (∀ place < offset, filled.memory place = buf.memory place) ∧
      filled.octets offset input.length = input := by
  induction input generalizing buf offset with
  | nil => exact ⟨buf, rfl, inside, fun place before => rfl, rfl⟩
  | cons octet input ih =>
      rw [octetDigits_cons, hexLoop, isxdigit_val2Hex, isxdigit_val2Hex, hex2Val_digits]
      generalize grown_eq : (if offset ≥ buf.len then buf.snmpRealloc else buf) = grown
      have memory_eq : grown.memory = buf.memory := by
        rw [← grown_eq]
        split
        · rfl
        · rfl
      have room : offset < grown.len := by
        rw [← grown_eq]
        split
        · exact lt_of_le_of_lt inside (le_snmpRealloc buf)
        · omega
      simp only [Bool.not_true, Bool.or_self, Bool.false_eq_true, and_false, if_false,
        HexBuffer.put?_of_lt _ room, Option.bind_some]
      rcases @ih { grown with memory := Function.update grown.memory offset octet } (offset + 1)
        room with ⟨filled, run, len_le, before, octets_eq⟩
      refine ⟨filled, ?_, ?_, ?_, ?_⟩
      · rw [run, List.length_cons, Nat.add_assoc, Nat.add_comm 1]
      · rw [List.length_cons]
        omega
      · intro place less
        apply (before place (by omega)).trans
        simp only
        rw [Function.update_of_ne (by omega), memory_eq]
      · rw [List.length_cons, HexBuffer.octets_succ, octets_eq, before offset (by omega)]
        simp only [Function.update_self]

theorem readsBack_octetDigits (input : List Byte) : ReadsBack (octetDigits input) input := by
  intro delim buf offset inside
  rcases hexLoop_reads delim input inside with ⟨filled, run, len_le, -, octets_eq⟩
  refine ⟨filled, ?_, len_le, octets_eq⟩
  cases input with
  | nil => exact run
  | cons octet input =>
      rw [octetDigits_cons] at run ⊢
      rw [netsnmpHexToBinary, if_neg fun pre => not_prefix_val2Hex octet pre.2]
      exact run

theorem hexPairs_reads (input : List Byte) {s : HexBuffer} {op : Nat}
    (room : op + input.length ≤ s.len) :
    ∃ filled : HexBuffer, hexPairs (octetDigits input) s op = some (some filled) ∧
      filled.len = s.len ∧ (∀ place < op, filled.memory place = s.memory place) ∧
      filled.octets op input.length = input := by
  induction input generalizing s op with
  | nil => exact ⟨s, rfl, rfl, fun place before => rfl, rfl⟩
  | cons octet input ih =>
      rw [List.length_cons] at room
      rw [octetDigits_cons, hexPairs, isxdigit_val2Hex, isxdigit_val2Hex,
        s.put?_of_lt _ (by omega)]
      simp only [Bool.not_true, Bool.false_eq_true, if_false, Option.bind_some,
        Function.update_self, hex2Val_digits]
      rw [HexBuffer.put?_of_lt _ (by simp only; omega), Option.bind_some]
      simp only [Function.update_idem]
      rcases @ih { s with memory := Function.update s.memory op octet } (op + 1)
        (by simp only; omega) with ⟨filled, run, len_eq, before, octets_eq⟩
      refine ⟨filled, run, len_eq, ?_, ?_⟩
      · intro place less
        apply (before place (by omega)).trans
        simp only
        rw [Function.update_of_ne (by omega)]
      · rw [List.length_cons, HexBuffer.octets_succ, octets_eq, before op (by omega)]
        simp only [Function.update_self]

theorem readsBack2_octetDigits {input : List Byte} (short : input.length < 2 ^ 31) :
    ReadsBack2 (octetDigits input) input := by
  have even : (octetDigits input).length % 2 = 0 := by
    rw [length_octetDigits]
    omega
  have olen : ((octetDigits input).length / 2 + (octetDigits input).length % 2) % 2 ^ 32 =
      input.length := by
    rw [length_octetDigits]
    omega
  have returned : (input.length : Int).bmod (2 ^ 32) = input.length := by
    rw [Int.bmod_def]
    split
    · omega
    · omega
  generalize size_eq : (if input.length ≠ 0 then input.length else 1) = size
  have room : input.length ≤ size ∧ 0 < size := by
    rw [← size_eq]
    split
    · omega
    · omega
  rcases @hexPairs_reads input { memory := Function.update (fun _ => 0) 0 0, len := size } 0
    (by simp only; omega) with ⟨filled, run, len_eq, -, octets_eq⟩
  refine ⟨filled, ?_, ?_, octets_eq⟩
  · rw [even] at olen
    simp only [hexToBinary2, even, olen, size_eq]
    rw [HexBuffer.put?_of_lt _ room.2, Option.bind_some]
    simp only [run, Option.map_some, returned]
  · rw [len_eq]
    exact room.1

theorem hexRoundTrips_of_room {input : List Byte} {buffer : HexBuffer}
    (short : input.length < 2 ^ 31) (room : 2 * input.length + 1 ≤ buffer.len) :
    HexRoundTrips input buffer := by
  have olen : (input.length * 2 + 1) % 2 ^ 32 = 2 * input.length + 1 := by omega
  rcases netsnmpBinaryToHex_eq (olen.trans_le room) with
    ⟨written, text, run, len_eq, holds, text_eq⟩
  rw [if_pos (by omega), Nat.mod_eq_of_lt (by omega), List.take_length] at text_eq
  subst text_eq
  refine ⟨_, written, octetDigits input, run, by omega, ?_, readsBack_octetDigits input,
    readsBack2_octetDigits short⟩
  exact ⟨length_octetDigits input, isxdigit_octetDigits input, holds, by omega⟩

/-- The round trip succeeds exactly if the buffer need not grow for the text, and an `int` can hold
the number of octets. -/
theorem hexRoundTrips_iff (input : List Byte) (buffer : HexBuffer) :
    HexRoundTrips input buffer ↔
      input.length < 2 ^ 31 ∧ 2 * input.length + 1 ≤ buffer.len := by
  constructor
  · rintro ⟨olen, written, text, run, success, isText, -⟩
    have room : (input.length * 2 + 1) % 2 ^ 32 ≤ buffer.len := by
      by_contra small
      simp only [netsnmpBinaryToHex, Option.getD_some, if_pos (Nat.lt_of_not_le small), if_true,
        Option.some.injEq, Prod.mk.injEq] at run
      exact success run.1.symm
    rcases netsnmpBinaryToHex_eq room with ⟨written', text', run', -, holds, text_eq⟩
    rw [run, Option.some.injEq, Prod.mk.injEq, Option.some.injEq] at run'
    rw [← run'.2] at holds
    have length_eq := isText.length
    rw [isText.holds.unique holds, text_eq, length_octetDigits, List.length_take] at length_eq
    split at length_eq
    · omega
    · omega
  · rintro ⟨short, room⟩
    exact hexRoundTrips_of_room short room

/-- An octet and a buffer of one byte. -/
theorem not_hexRoundTrips : ¬ HexRoundTrips [0] { memory := fun _ => 0, len := 1 } := by
  rintro ⟨olen, written, text, run, success, -⟩
  simp [netsnmpBinaryToHex] at run
  exact success run.1.symm

end HexText

end NetSnmp
