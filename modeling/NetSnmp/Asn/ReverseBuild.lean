import NetSnmp.Asn.Types

/-!
# The reverse ASN.1 encoders

The `asn_realloc_rbuild_*` routines of `asn1.c`.  They fill a buffer from its
top end downwards, growing it when it is allowed to grow; what has been written
is a list to which every store adds in front.  Memory for a larger buffer is
taken to be there.
-/

namespace NetSnmp

/-- A buffer that is filled from the end: `pkt_len` bytes of which the last `offset` are
written. -/
structure RBuf where
  pktLen : Nat
  /-- The bytes written so far, in the order they have in the buffer. -/
  written : List Byte
  fits : written.length ≤ pktLen

namespace RBuf

def offset (buf : RBuf) : Nat := buf.written.length

/-- `*pkt_len - *offset` -/
def room (buf : RBuf) : Nat := buf.pktLen - buf.offset

end RBuf

/-- `asn_realloc`: the contents move to the top end of the larger buffer. -/
def asnRealloc (buf : RBuf) : RBuf where
  pktLen := snmpReallocLen buf.pktLen
  written := buf.written
  fits := le_trans buf.fits (le_trans (Nat.le_add_right _ 256) (le_snmpReallocLen buf.pktLen))

@[simp]
theorem asnRealloc_written (buf : RBuf) : (asnRealloc buf).written = buf.written := rfl

theorem asnRealloc_room (buf : RBuf) : buf.room + 256 ≤ (asnRealloc buf).room := by
  have grown := le_snmpReallocLen buf.pktLen
  have fits := buf.fits
  simp only [RBuf.room, RBuf.offset, asnRealloc]
  omega

/-- `((*pkt_len - *offset) < 1) && !(r && asn_realloc(pkt, pkt_len))` is an error. -/
def makeRoom (r : Bool) (buf : RBuf) : Option RBuf :=
  if buf.room < 1 then
    if r then some (asnRealloc buf) else none
  else some buf

/-- `while ((*pkt_len - *offset) < size)` grow the buffer, or fail. -/
def reserve (r : Bool) (size : Nat) (buf : RBuf) : Option RBuf :=
  if buf.room < size then
    if r then reserve r size (asnRealloc buf) else none
  else some buf
termination_by size - buf.room
decreasing_by
  have grown := asnRealloc_room buf
  omega

/-- `*(*pkt + *pkt_len - (++*offset)) = byte`, which is not checked: there is no result
when it falls outside the buffer. -/
def poke (buf : RBuf) (byte : Byte) : Option RBuf :=
  if fits : buf.written.length < buf.pktLen then
    some { pktLen := buf.pktLen, written := byte :: buf.written, fits := fits }
  else none

/-- `memcpy` of a string in front of what is written. -/
def copyIn (buf : RBuf) (str : List Byte) : Option RBuf :=
  if fits : (str ++ buf.written).length ≤ buf.pktLen then
    some { pktLen := buf.pktLen, written := str ++ buf.written, fits := fits }
  else none

def storeByte (r : Bool) (buf : RBuf) (byte : Byte) : Option RBuf := do
  let buf ← makeRoom r buf
  poke buf byte

def asnReallocBuildHeaderCheck (buf : RBuf) (typedlen : Nat) : Option RBuf :=
  if buf.pktLen < typedlen then none else some buf

/-- The loop of `asn_realloc_rbuild_length`: store the octets of a length but the first. -/
def storeLengthOctets (r : Bool) (buf : RBuf) (length : Nat) : Option (RBuf × Nat) :=
  if 0xff < length then do
    let buf ← storeByte r buf (toUChar length)
    storeLengthOctets r buf (length / 2 ^ 8)
  else some (buf, length)
termination_by length
decreasing_by omega

def asnReallocRbuildLength (r : Bool) (buf : RBuf) (length : Nat) : Option RBuf := do
  let startOffset := buf.offset
  if length ≤ 0x7f then
    storeByte r buf (toUChar length)
  else do
    let (buf, length) ← storeLengthOctets r buf length
    let buf ← reserve r 2 buf
    let buf ← poke buf (toUChar length)
    let tmpInt := buf.offset - startOffset
    poke buf (toUChar tmpInt ||| 0x80)

def asnReallocRbuildHeader (r : Bool) (buf : RBuf) (type : Byte) (length : Nat) :
    Option RBuf := do
  let buf ← asnReallocRbuildLength r buf length
  storeByte r buf type

def asnReallocRbuildSequence (r : Bool) (buf : RBuf) (type : Byte) (length : Nat) :
    Option RBuf :=
  asnReallocRbuildHeader r buf type length

def testvalue (integer : Int) : Int := if integer < 0 then -1 else 0

theorem natAbs_shift_lt {integer : Int} (more : integer ≠ testvalue integer) :
    (integer / 2 ^ 8).natAbs < integer.natAbs := by
  unfold testvalue at more
  split at more <;> omega

/-- `while (integer != testvalue)` store the low octet and shift.  Shifting keeps the sign,
so that `testvalue` stays what it was. -/
def storeOctets (r : Bool) (buf : RBuf) (integer : Int) : Option RBuf :=
  if integer ≠ testvalue integer then do
    let buf ← storeByte r buf (toUChar integer)
    storeOctets r buf (integer / 2 ^ 8)
  else some buf
termination_by integer.natAbs
decreasing_by exact natAbs_shift_lt ‹_›

def fixSign (r : Bool) (buf : RBuf) (testvalue : Int) : Option RBuf :=
  if hasBit8 (buf.written.headD 0) ≠ decide (testvalue < 0) then
    storeByte r buf (toUChar testvalue)
  else some buf

def rbuildOctets (r : Bool) (buf : RBuf) (integer : Int) : Option RBuf := do
  let buf ← storeByte r buf (toUChar integer)
  let buf ← storeOctets r buf (integer / 2 ^ 8)
  fixSign r buf (testvalue integer)

def asnReallocRbuildInt (r : Bool) (buf : RBuf) (type : Byte) (intp : Int) : Option RBuf := do
  let startOffset := buf.offset
  let integer := checkOverflowS intp
  let buf ← rbuildOctets r buf integer
  let buf ← asnReallocRbuildHeader r buf type (buf.offset - startOffset)
  asnReallocBuildHeaderCheck buf (buf.offset - startOffset)

def asnReallocRbuildUnsignedInt (r : Bool) (buf : RBuf) (type : Byte) (intp : Nat) :
    Option RBuf := do
  let startOffset := buf.offset
  let integer := checkOverflowU intp
  let buf ← rbuildOctets r buf integer
  let buf ← asnReallocRbuildHeader r buf type (buf.offset - startOffset)
  asnReallocBuildHeaderCheck buf (buf.offset - startOffset)

/-- `asn_realloc_rbuild_string`; `asn_realloc_rbuild_bitstring` has the same body. -/
def asnReallocRbuildString (r : Bool) (buf : RBuf) (type : Byte) (str : List Byte) :
    Option RBuf := do
  let buf ← reserve r str.length buf
  let buf ← copyIn buf str
  let buf ← asnReallocRbuildHeader r buf type str.length
  asnReallocBuildHeaderCheck buf str.length

def asnReallocRbuildBitstring (r : Bool) (buf : RBuf) (type : Byte) (str : List Byte) :
    Option RBuf :=
  asnReallocRbuildString r buf type str

/-- The loop of `store_uint32`: seven bits a byte, each with the top bit set. -/
def storeHighSubid (r : Bool) (buf : RBuf) (subid : Nat) : Option RBuf :=
  if subid ≠ 0 then do
    let buf ← storeByte r buf (toUChar subid ||| 0x80)
    storeHighSubid r buf (subid / 2 ^ 7)
  else some buf
termination_by subid
decreasing_by omega

def storeUint32 (r : Bool) (buf : RBuf) (subid : Nat) : Option RBuf := do
  let buf ← storeByte r buf (toUChar subid &&& 0x7f)
  storeHighSubid r buf (subid / 2 ^ 7)

/-- The loop of `asn_realloc_rbuild_objid` over `objid[2]` and what follows, from the end. -/
def storeSubids (r : Bool) (buf : RBuf) : (reversed : Oid) → Option RBuf
  | [] => some buf
  | subid :: reversed => do
      let buf ← storeUint32 r buf (checkOverflowU subid)
      storeSubids r buf reversed

/-- The contents written by `asn_realloc_rbuild_objid`. -/
def rbuildObjidContents (r : Bool) (buf : RBuf) : (objid : Oid) → Option RBuf
  | [] => storeByte r buf 0
  | [first] => if 2 < first then none else storeByte r buf (toUChar (40 * first))
  | first :: second :: rest =>
      if 2 < first then none
      else do
        let buf ← storeSubids r buf rest.reverse
        if (40 ≤ second ∧ first < 2) ∨ uint32Max - first * 40 < second then none
        else storeUint32 r buf (first * 40 + second)

def asnReallocRbuildObjid (r : Bool) (buf : RBuf) (type : Byte) (objid : Oid) :
    Option RBuf := do
  let startOffset := buf.offset
  let buf ← rbuildObjidContents r buf objid
  let tmpint := buf.offset - startOffset
  let buf ← asnReallocRbuildHeader r buf type tmpint
  asnReallocBuildHeaderCheck buf tmpint

def asnReallocRbuildNull (r : Bool) (buf : RBuf) (type : Byte) : Option RBuf :=
  asnReallocRbuildHeader r buf type 0

/-- `for (; count < 4; count++)` store the octet that fills up the low half. -/
def storeFill (r : Bool) (buf : RBuf) (octet : Byte) : (missing : Nat) → Option RBuf
  | 0 => some buf
  | missing + 1 => do
      let buf ← storeByte r buf octet
      storeFill r buf octet missing

/-- The special tag and length of a value of `size` octets and the `Opaque` header around
it. -/
def rbuildOpaqueWrapper (r : Bool) (buf : RBuf) (special : Byte) (size : Nat) : Option RBuf := do
  let buf ← poke buf (toUChar size)
  let buf ← poke buf special
  let buf ← poke buf asnOpaqueTag1
  let buf ← asnReallocRbuildHeader r buf asnOpaque (size + 3)
  asnReallocBuildHeaderCheck buf (size + 3)

/-- The high half of a 64-bit number, if there is more to it than the sign, behind `missing`
octets that fill up the low half. -/
def rbuildHighHalf (r : Bool) (buf : RBuf) (missing : Nat) (high : Int) : Option RBuf :=
  if high ≠ testvalue high then do
    let buf ← storeFill r buf (toUChar (testvalue high)) missing
    let buf ← storeByte r buf (toUChar high)
    storeOctets r buf (high / 2 ^ 8)
  else some buf

/-- The part of `asn_realloc_rbuild_unsigned_int64` that writes the octets of the two halves. -/
def rbuildUnsignedInt64Octets (r : Bool) (buf : RBuf) (high low : Nat) : Option RBuf := do
  let startOffset := buf.offset
  let buf ← storeByte r buf (toUChar low)
  let buf ← storeOctets r buf ((low : Int) / 2 ^ 8)
  let count := buf.offset - startOffset
  let buf ← rbuildHighHalf r buf (4 - count) high
  fixSign r buf 0

def asnReallocRbuildUnsignedInt64 (r : Bool) (buf : RBuf) (type : Byte) (high low : Nat) :
    Option RBuf := do
  let startOffset := buf.offset
  let buf ← rbuildUnsignedInt64Octets r buf (checkOverflowU high) (checkOverflowU low)
  let intsize := buf.offset - startOffset
  if type = asnOpaqueCounter64 ∨ type = asnOpaqueU64 then do
    let buf ← reserve r 5 buf
    rbuildOpaqueWrapper r buf type intsize
  else do
    let buf ← asnReallocRbuildHeader r buf type intsize
    asnReallocBuildHeaderCheck buf intsize

/-- `while ((int) low != testvalue && count < 4)` store the low octet and shift. -/
def storeLowOctets (r : Bool) (buf : RBuf) (testvalue : Int) :
    (missing : Nat) → (low : Int) → Option RBuf
  | 0, _ => some buf
  | missing + 1, low =>
      if low ≠ testvalue then do
        let buf ← storeByte r buf (toUChar low)
        storeLowOctets r buf testvalue missing (low / 2 ^ 8)
      else some buf

/-- The part of `asn_realloc_rbuild_signed_int64` that writes the octets of the two halves,
both `int32_t`. -/
def rbuildSignedInt64Octets (r : Bool) (buf : RBuf) (high low : Int) : Option RBuf := do
  let startOffset := buf.offset
  let buf ← storeByte r buf (toUChar low)
  let buf ← storeLowOctets r buf (testvalue high) 3 (low / 2 ^ 8)
  let count := buf.offset - startOffset
  let buf ← rbuildHighHalf r buf (4 - count) high
  fixSign r buf (testvalue high)

def asnReallocRbuildSignedInt64 (r : Bool) (buf : RBuf) (high low : Nat) : Option RBuf := do
  let startOffset := buf.offset
  let buf ← rbuildSignedInt64Octets r buf (toCInt high) (toCInt low)
  let intsize := buf.offset - startOffset
  let buf ← reserve r 5 buf
  rbuildOpaqueWrapper r buf asnOpaqueI64 intsize

def octetsOf : (width : Nat) → (value : Nat) → List Byte
  | 0, _ => []
  | width + 1, value => octetsOf width (value / 2 ^ 8) ++ [toUChar value]

/-- The common shape of `asn_realloc_rbuild_float` and `asn_realloc_rbuild_double`; `htonl`
puts the bytes in network order. -/
def rbuildOpaqueBits (r : Bool) (buf : RBuf) (special : Byte) (size bits : Nat) :
    Option RBuf := do
  let buf ← reserve r (size + 3) buf
  let buf ← copyIn buf (octetsOf size bits)
  rbuildOpaqueWrapper r buf special size

def asnReallocRbuildFloat (r : Bool) (buf : RBuf) (bits : Nat) : Option RBuf :=
  rbuildOpaqueBits r buf asnOpaqueFloat 4 bits

def asnReallocRbuildDouble (r : Bool) (buf : RBuf) (bits : Nat) : Option RBuf :=
  rbuildOpaqueBits r buf asnOpaqueDouble 8 bits

end NetSnmp
