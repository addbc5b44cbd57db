import NetSnmp.Asn.ReverseBuild

/-!
# The forward ASN.1 encoders

The `asn_build_*` routines of `asn1.c`.  Each is given a pointer into a buffer
and the number of bytes left there; it writes an object and moves both.  A
buffer is the bytes in front of the pointer and the memory behind it, of which
the length is the number of bytes left.
-/

namespace NetSnmp

structure WBuf where
  written : List Byte
  /-- The bytes behind the pointer; `*datalength` is their number. -/
  ahead : List Byte
  deriving DecidableEq, Repr

namespace WBuf

def datalength (buf : WBuf) : Nat := buf.ahead.length

/-- Write bytes and move the pointer behind them.  The routines check that there is room;
there is no result where a check were missing. -/
def append (buf : WBuf) (bytes : List Byte) : Option WBuf :=
  if bytes.length ≤ buf.datalength then
    some ⟨buf.written ++ bytes, buf.ahead.drop bytes.length⟩
  else none

def skip (buf : WBuf) (count : Nat) : Option WBuf :=
  buf.append (buf.ahead.take count)

def patch (buf : WBuf) (offset : Nat) (bytes : List Byte) : WBuf :=
  { buf with
    written := buf.written.take offset ++ bytes ++ buf.written.drop (offset + bytes.length) }

end WBuf

/-- `*data++ = byte` -/
def putByte (buf : WBuf) (byte : Byte) : Option WBuf := buf.append [byte]

def asnBuildHeaderCheck (buf : WBuf) (typedlen : Nat) : Option WBuf :=
  if buf.datalength < typedlen then none else some buf

/-- The length field of `asn_build_length`. -/
def buildLengthOctets (length : Nat) : List Byte :=
  if length < 0x80 then [toUChar length]
  else if length ≤ 0xff then [0x81, toUChar length]
  else [0x82, toUChar (length / 2 ^ 8 % 2 ^ 8 : Nat), toUChar (length % 2 ^ 8 : Nat)]

def asnBuildLength (buf : WBuf) (length : Nat) : Option WBuf :=
  if length < 0x80 then
    if buf.datalength < 1 then none else buf.append (buildLengthOctets length)
  else if length ≤ 0xff then
    if buf.datalength < 2 then none else buf.append (buildLengthOctets length)
  else
    if buf.datalength < 3 then none else buf.append (buildLengthOctets length)

def asnBuildHeader (buf : WBuf) (type : Byte) (length : Nat) : Option WBuf := do
  if buf.datalength < 1 then none
  else do
    let buf ← putByte buf type
    asnBuildLength buf length

/-- The four bytes of a header of `asn_build_sequence`. -/
def sequenceHeader (type : Byte) (length : Nat) : List Byte :=
  [type, 0x82, toUChar (length / 2 ^ 8 % 2 ^ 8 : Nat), toUChar (length % 2 ^ 8 : Nat)]

/-- `asn_build_sequence` at the pointer. -/
def asnBuildSequence (buf : WBuf) (type : Byte) (length : Nat) : Option WBuf :=
  if buf.datalength < 4 then none else buf.append (sequenceHeader type length)

/-- `asn_build_sequence` over four bytes in front of the pointer, told that there are
`datalength` bytes.  Its result is not looked at. -/
def asnBuildSequenceAt (buf : WBuf) (offset datalength : Nat) (type : Byte) (length : Nat) :
    WBuf :=
  if datalength < 4 then buf else buf.patch offset (sequenceHeader type length)

/-- The loop that drops the octets of a 64-bit number that only repeat its sign: as long as the
top nine bits are equal, one octet less, and the others move up. -/
def trimOctets : (intsize : Nat) → (integer : Nat) → Nat × Nat
  | 0, integer => (0, integer)
  | 1, integer => (1, integer)
  | intsize + 2, integer =>
      if integer / 2 ^ 55 = 0 ∨ integer / 2 ^ 55 = 0x1ff then
        trimOctets (intsize + 1) (integer * 2 ^ 8 % 2 ^ 64)
      else (intsize + 2, integer)

/-- The loop that writes the top octets of a 64-bit number. -/
def topOctets : (intsize : Nat) → (integer : Nat) → List Byte
  | 0, _ => []
  | intsize + 1, integer =>
      toUChar (integer / 2 ^ 56 : Nat) :: topOctets intsize (integer * 2 ^ 8 % 2 ^ 64)

def buildObject (buf : WBuf) (type : Byte) (contents : List Byte) : Option WBuf := do
  let buf ← asnBuildHeader buf type contents.length
  let buf ← asnBuildHeaderCheck buf contents.length
  buf.append contents

/-- The octets that `asn_build_int` writes. -/
def intOctets (integer : Nat) : List Byte :=
  let (intsize, integer) := trimOctets sizeofLong integer
  topOctets intsize integer

def asnBuildInt (buf : WBuf) (type : Byte) (intp : Int) : Option WBuf :=
  buildObject buf type (intOctets (toSizeT (checkOverflowS intp)))

def unsignedOctets (integer : Nat) : List Byte :=
  if 2 ^ 63 ≤ integer then 0 :: topOctets 8 integer else intOctets integer

def asnBuildUnsignedInt (buf : WBuf) (type : Byte) (intp : Nat) : Option WBuf :=
  buildObject buf type (unsignedOctets (checkOverflowU intp))

def asnBuildString (buf : WBuf) (type : Byte) (str : List Byte) : Option WBuf :=
  buildObject buf type str

/-- The loop of `encoded_oid_len`, for numbers of at most `groups` groups of seven bits. -/
def countGroups : (groups : Nat) → (objid : Nat) → Nat
  | 0, _ => 0
  | groups + 1, objid => if objid = 0 then 0 else countGroups groups (objid / 2 ^ 7) + 1

/-- `encoded_oid_len`; its argument is a `uint32_t`, which has five groups. -/
def encodedOidLen (objid : Nat) : Nat :=
  if objid = 0 then 1 else countGroups 5 objid

/-- The loop over the bytes of a subidentifier, from the last one backwards. -/
def buildSubid : (encodedLen : Nat) → (mark : Byte) → (objidVal : Nat) → List Byte
  | 0, _, _ => []
  | encodedLen + 1, mark, objidVal =>
      buildSubid encodedLen 0x80 (objidVal / 2 ^ 7) ++ [toUChar (objidVal % 2 ^ 7 : Nat) ||| mark]

/-- The subidentifiers that `asn_build_objid` encodes: none stands for a single zero byte. -/
def buildObjidSubids : (objid : Oid) → Option Oid
  | [] => some []
  | [first] => if 2 < first then none else some [first * 40]
  | first :: second :: rest =>
      if 2 < first then none
      else if (40 ≤ second ∧ first < 2) ∨ uint32Max - first * 40 < second then none
      else some ((first * 40 + second) :: rest)

def asnBuildObjid (buf : WBuf) (type : Byte) (objid : Oid) : Option WBuf := do
  let subids ← buildObjidSubids objid
  if maxOidLen < max objid.length 1 then none
  else if subids = [] then buildObject buf type [0]
  else do
    let subids := subids.map checkOverflowU
    buildObject buf type (subids.flatMap fun subid => buildSubid (encodedOidLen subid) 0 subid)

def asnBuildNull (buf : WBuf) (type : Byte) : Option WBuf :=
  asnBuildHeader buf type 0

def asnBuildBitstring (buf : WBuf) (type : Byte) (str : List Byte) : Option WBuf :=
  if str.length < 1 then none else buildObject buf type str

/-- An `Opaque` around a value with its special tag and length. -/
def buildOpaque (buf : WBuf) (special : Byte) (contents : List Byte) : Option WBuf := do
  let intsize := contents.length
  let buf ← asnBuildHeader buf asnOpaque (intsize + 3)
  let buf ← asnBuildHeaderCheck buf (intsize + 3)
  let buf ← buf.append [asnOpaqueTag1, special, toUChar intsize]
  buf.append contents

def asnBuildUnsignedInt64 (buf : WBuf) (type : Byte) (high low : Nat) : Option WBuf :=
  let value := high * 2 ^ 32 % 2 ^ 64 ||| low
  if type = asnOpaqueCounter64 ∨ type = asnOpaqueU64 then
    buildOpaque buf type (unsignedOctets value)
  else buildObject buf type (unsignedOctets value)

/-- One pass of the loops of `asn_build_signed_int64`: the octets of both halves move up. -/
def shiftHalves (halves : Nat × Nat) : Nat × Nat :=
  let (high, low) := halves
  (high % 2 ^ 24 * 2 ^ 8 + low / 2 ^ 24, low % 2 ^ 24 * 2 ^ 8)

/-- The loop that drops octets of the two halves. -/
def trimHalves : (intsize : Nat) → (halves : Nat × Nat) → Nat × (Nat × Nat)
  | 0, halves => (0, halves)
  | 1, halves => (1, halves)
  | intsize + 2, halves =>
      if halves.1 / 2 ^ 23 = 0 ∨ halves.1 / 2 ^ 23 = 0x1ff then
        trimHalves (intsize + 1) (shiftHalves halves)
      else (intsize + 2, halves)

/-- The loop that writes the octets of the two halves. -/
def halvesOctets : (intsize : Nat) → (halves : Nat × Nat) → List Byte
  | 0, _ => []
  | intsize + 1, halves =>
      toUChar (halves.1 / 2 ^ 24 : Nat) :: halvesOctets intsize (shiftHalves halves)

/-- `asn_build_signed_int64`; of `high`, which is a `long`, only 32 bits are ever looked at. -/
def asnBuildSignedInt64 (buf : WBuf) (high low : Nat) : Option WBuf :=
  let high := (checkOverflowS (toCLong high) % 2 ^ 32).toNat
  let (intsize, halves) := trimHalves 8 (high, checkOverflowU low)
  buildOpaque buf asnOpaqueI64 (halvesOctets intsize halves)

def asnBuildFloat (buf : WBuf) (bits : Nat) : Option WBuf :=
  buildOpaque buf asnOpaqueFloat (octetsOf 4 bits)

def asnBuildDouble (buf : WBuf) (bits : Nat) : Option WBuf :=
  buildOpaque buf asnOpaqueDouble (octetsOf 8 bits)

end NetSnmp
