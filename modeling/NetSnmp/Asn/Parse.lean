import NetSnmp.Asn.Types
import NetSnmp.Octets

/-!
# The ASN.1 decoders

The `asn_parse_*` routines of `asn1.c`.  Each is given a pointer and the number
of bytes it may use, and returns the pointer behind the object, the number of
bytes left, the type octet and the value.  Every routine that is told a size
runs inside `within`, and every assignment to the remaining size is recorded.
-/

namespace NetSnmp

open Reader

structure Parsed (α : Type) where
  next : Ptr
  /-- The value left in `*datalength`. -/
  left : Nat
  /-- The value stored through `type`. -/
  type : Byte
  value : α
  deriving DecidableEq, Repr

/-- Assign `left` to a remaining size that was `given`. -/
def assignLength (given left : Nat) : Reader Nat := do
  emit (.count given left)
  pure left

/-- `asn_parse_length`: the pointer behind a length field and the length. -/
def asnParseLength (data : Ptr) : Reader (Ptr × Nat) := do
  let lengthbyte ← deref data
  if hasBit8 lengthbyte then do
    let lengthbyte := lengthbyte &&& 0x7f
    failIf (lengthbyte = 0)
    failIf (sizeofLong < lengthbyte.toNat)
    let octets ← readBytes lengthbyte.toNat (data.drop 1)
    let length : Nat := octets.foldl (fun length octet => length * 256 + octet.toNat) 0
    failIf (toCLong length < 0)
    pure (data.drop (1 + lengthbyte.toNat), length)
  else
    pure (data.drop 1, lengthbyte.toNat)

/-- `asn_parse_nlength`: like `asn_parse_length`, but the length field and the data
have to fit into `pkt_len` bytes. -/
def asnParseNlength (pkt : Ptr) (pktLen : Nat) : Reader (Ptr × Nat) :=
  within pkt pktLen do
    failIf (pktLen < 1)
    let first ← deref pkt
    if hasBit8 first then do
      let lenLen := (first &&& 0x7f).toNat + 1
      failIf (pktLen < lenLen)
      let (_, dataLen) ← asnParseLength pkt
      failIf (pktLen < dataLen + lenLen)
      pure (pkt.drop lenLen, dataLen)
    else do
      failIf (pktLen < first.toNat + 1)
      pure (pkt.drop 1, first.toNat)

/-- `*datalength -= (int) asn_length + (bufp - data)` -/
def lengthAfter (datalength asnLength : Nat) (data bufp : Ptr) : Nat :=
  toSizeT (datalength - (toCInt asnLength + ((data.length : Int) - bufp.length)))

def asnParseInt (data : Ptr) (datalength : Nat) : Reader (Parsed Int) :=
  within data datalength do
    failIf (datalength < 2)
    let type ← deref data
    failIf (type ≠ asnInteger)
    let (bufp, asnLength) ← asnParseNlength (data.drop 1) (datalength - 1)
    failIf (sizeofLong < asnLength ∨ toCInt asnLength = 0)
    let left ← assignLength datalength (lengthAfter datalength asnLength data bufp)
    let first ← deref bufp
    let octets ← readBytes asnLength bufp
    let extension := List.replicate (sizeofLong - asnLength) (if hasBit8 first then 0xff else 0)
    let value := checkOverflowS (toCLong (Octets.beNat (extension ++ octets)))
    pure ⟨bufp.drop asnLength, left, type, value⟩

def failUnlessLeadingZero (greatest : Prop) [Decidable greatest] (bufp : Ptr) : Reader Unit :=
  if greatest then do
    let first ← deref bufp
    failIf (first ≠ 0)
  else pure ()

def asnParseUnsignedInt (data : Ptr) (datalength : Nat) : Reader (Parsed Nat) :=
  within data datalength do
    failIf (datalength < 2)
    let type ← deref data
    failIf (type ≠ asnCounter ∧ type ≠ asnGauge ∧ type ≠ asnTimeticks ∧ type ≠ asnUinteger)
    let (bufp, asnLength) ← asnParseNlength (data.drop 1) (datalength - 1)
    failIf (sizeofLong + 1 < asnLength ∨ toCInt asnLength = 0)
    failUnlessLeadingZero (asnLength = sizeofLong + 1) bufp
    let left ← assignLength datalength (lengthAfter datalength asnLength data bufp)
    let octets ← readBytes asnLength bufp
    let value : Nat := octets.foldl (fun value octet => (value * 256 + octet.toNat) % 2 ^ 64) 0
    pure ⟨bufp.drop asnLength, left, type, checkOverflowU value⟩

/-- `asn_parse_string`, into a buffer of `strlength` bytes. -/
def asnParseString (data : Ptr) (datalength strlength : Nat) : Reader (Parsed (List Byte)) :=
  within data datalength do
    failIf (datalength < 2)
    let type ← deref data
    failIf (type ≠ asnOctetStr ∧ type ≠ asnIpaddress ∧ type ≠ asnOpaque ∧ type ≠ asnNsap)
    let (bufp, asnLength) ← asnParseNlength (data.drop 1) (datalength - 1)
    failIf (strlength < asnLength)
    let str ← readBytes asnLength bufp
    let left ← assignLength datalength
      (toSizeT (datalength - (asnLength + ((data.length : Int) - bufp.length))))
    pure ⟨bufp.drop asnLength, left, type, str⟩

/-- The tags of the values that the special `Opaque` wrapper may hold. -/
def isOpaqueSpecial (tag : Byte) : Bool :=
  tag = asnOpaqueCounter64 || tag = asnOpaqueU64 || tag = asnOpaqueFloat ||
    tag = asnOpaqueDouble || tag = asnOpaqueI64

def isExtensionId (octet : Byte) : Bool := octet &&& 0x1f == 0x1f

def asnParseHeader (data : Ptr) (datalength : Nat) : Reader (Parsed Unit) :=
  within data datalength do
    failIf (datalength < 2)
    let type ← deref data
    failIf (isExtensionId type)
    let (bufp, asnLength) ← asnParseNlength (data.drop 1) (datalength - 1)
    if 2 < asnLength ∧ type = asnOpaque then do
      let tag1 ← deref bufp
      if tag1 = asnOpaqueTag1 then do
        let tag ← deref (bufp.drop 1)
        let outer ← assignLength datalength (toSizeT (toCInt asnLength))
        if isOpaqueSpecial tag then do
          let (bufp, asnLength) ← asnParseNlength (bufp.drop 2) (toSizeT ((outer : Int) - 2))
          let left ← assignLength outer (toSizeT (toCInt asnLength))
          pure ⟨bufp, left, tag, ()⟩
        else
          pure ⟨bufp, outer, type, ()⟩
      else do
        let left ← assignLength datalength (toSizeT (toCInt asnLength))
        pure ⟨bufp, left, type, ()⟩
    else do
      let left ← assignLength datalength (toSizeT (toCInt asnLength))
      pure ⟨bufp, left, type, ()⟩

def asnParseSequence (data : Ptr) (datalength : Nat) (expectedType : Byte) :
    Reader (Parsed Unit) :=
  within data datalength do
    let header ← asnParseHeader data datalength
    failIf (header.type ≠ expectedType)
    pure header

/-- The pointer behind one subidentifier, the bytes of the object left there, the value
and a pointer to the last byte of it. -/
structure Subid where
  bufp : Ptr
  length : Nat
  subidentifier : Nat
  lastByte : Ptr
  deriving DecidableEq, Repr

/-- The inner loop of `asn_parse_objid`: shift in the low seven bits of each byte up to
the one whose high bit is clear. -/
def asnParseSubid : (length : Nat) → (bufp : Ptr) → (subidentifier : Nat) → Reader Subid
  | 0, bufp, subidentifier => pure ⟨bufp, 0, subidentifier, bufp⟩
  | length + 1, bufp, subidentifier => do
      failIf (maxSubid / 2 ^ 7 < subidentifier)
      let octet ← deref bufp
      let subidentifier := subidentifier * 2 ^ 7 + (octet &&& 0x7f).toNat
      if hasBit8 octet ∧ 0 < length then
        asnParseSubid length (bufp.drop 1) subidentifier
      else
        pure ⟨bufp.drop 1, length, subidentifier, bufp⟩

/-- The outer loop of `asn_parse_objid`, with room for `objidlength` more entries: the
pointer and the number of bytes where it stops, and the entries from `objid[1]` on. -/
def asnParseSubids : (objidlength : Nat) → (length : Nat) → (bufp : Ptr) →
    Reader (Ptr × Nat × Oid)
  | 0, length, bufp => pure (bufp, length, [])
  | objidlength + 1, length, bufp =>
      if length = 0 then pure (bufp, length, [])
      else do
        let subid ← asnParseSubid length bufp 0
        if subid.length = 0 then do
          let lastByte ← deref subid.lastByte
          failIf (hasBit8 lastByte)
        failIf (maxSubid < subid.subidentifier)
        let (bufp, length, objid) ← asnParseSubids objidlength subid.length subid.bufp
        pure (bufp, length, subid.subidentifier :: objid)

def splitFirst (subidentifier : Nat) : Oid :=
  if subidentifier = 0x2B then [1, 3]
  else if subidentifier < 40 then [0, subidentifier]
  else if subidentifier < 80 then [1, subidentifier - 40]
  else [2, subidentifier - 80]

/-- `asn_parse_objid`, into a buffer of `objidlength` entries.  Without any encoded
subidentifier `objid[0]` is the one entry reported. -/
def asnParseObjid (data : Ptr) (datalength objidlength : Nat) : Reader (Parsed Oid) :=
  within data datalength do
    failIf (datalength < 2)
    let type ← deref data
    failIf (type ≠ asnObjectId)
    let (bufp, asnLength) ← asnParseNlength (data.drop 1) (datalength - 1)
    let left ← assignLength datalength (lengthAfter datalength asnLength data bufp)
    let (bufp, length, objid) ← asnParseSubids (objidlength - 1) asnLength bufp
    failIf (length ≠ 0)
    match objid with
    | [] => pure ⟨bufp, left, type, [0]⟩
    | first :: rest => pure ⟨bufp, left, type, splitFirst first ++ rest⟩

/-- `asn_parse_null`, which takes any type. -/
def asnParseNull (data : Ptr) (datalength : Nat) : Reader (Parsed Unit) :=
  within data datalength do
    failIf (datalength < 2)
    let type ← deref data
    let (bufp, asnLength) ← asnParseNlength (data.drop 1) (datalength - 1)
    failIf (asnLength ≠ 0)
    let left ← assignLength datalength
      (toSizeT (datalength - ((data.length : Int) - bufp.length)))
    pure ⟨bufp.drop asnLength, left, type, ()⟩

/-- `asn_parse_bitstring`, into a buffer of `strlength` bytes.  The byte under `bufp` is
an argument of `_asn_bitstring_check`, so it is looked at before the length is checked. -/
def asnParseBitstring (data : Ptr) (datalength strlength : Nat) : Reader (Parsed (List Byte)) :=
  within data datalength do
    failIf (datalength < 2)
    let type ← deref data
    failIf (type ≠ asnBitStr)
    let (bufp, asnLength) ← asnParseNlength (data.drop 1) (datalength - 1)
    failIf (strlength < asnLength)
    let _datum ← deref bufp
    failIf (asnLength < 1)
    let str ← readBytes asnLength bufp
    let left ← assignLength datalength (lengthAfter datalength asnLength data bufp)
    pure ⟨bufp.drop asnLength, left, type, str⟩

def shiftCounter64 (halves : Nat × Nat) (octet : Byte) : Nat × Nat :=
  let (high, low) := halves
  (high % 2 ^ 24 * 2 ^ 8 + low % 2 ^ 32 / 2 ^ 24, low % 2 ^ 24 * 2 ^ 8 + octet.toNat)

/-- The step into the special `Opaque` wrapper that `asn_parse_unsigned_int64`,
`asn_parse_float` and `asn_parse_double` share: when the object is an `Opaque` of a length
that `fits` around one of the tags, the pointer, the type and the length become those of
the value inside. -/
def asnParseOpaqueTag (fits : Bool) (isTag : Byte → Bool) (type : Byte) (bufp : Ptr)
    (datalength asnLength : Nat) : Reader (Parsed Nat) :=
  if type = asnOpaque ∧ fits then do
    let tag1 ← deref bufp
    if tag1 = asnOpaqueTag1 then do
      let tag ← deref (bufp.drop 1)
      if isTag tag then do
        let outer ← assignLength datalength asnLength
        let (bufp, asnLength) ← asnParseNlength (bufp.drop 2) (toSizeT ((outer : Int) - 2))
        pure ⟨bufp, outer, tag, asnLength⟩
      else pure ⟨bufp, datalength, type, asnLength⟩
    else pure ⟨bufp, datalength, type, asnLength⟩
  else pure ⟨bufp, datalength, type, asnLength⟩

/-- The halves that a signed number of at least one octet starts from are ones when its
first bit is set. -/
def startCounter64 (signed : Bool) (asnLength : Nat) (bufp : Ptr) : Reader (Nat × Nat) :=
  if signed ∧ 0 < asnLength then do
    let first ← deref bufp
    pure (if hasBit8 first then (0xFFFFFF, 0xFFFFFFFF) else (0, 0))
  else pure (0, 0)

/-- The part behind the headers that `asn_parse_unsigned_int64` and
`asn_parse_signed_int64` share. -/
def asnParseInt64Octets (signed : Bool) (data : Ptr) (object : Parsed Nat) :
    Reader (Parsed (Nat × Nat)) := do
  let ⟨bufp, datalength, type, asnLength⟩ := object
  failIf (9 < toCInt asnLength)
  failUnlessLeadingZero (toCInt asnLength = 9) bufp
  let left ← assignLength datalength (lengthAfter datalength asnLength data bufp)
  let start ← startCounter64 signed asnLength bufp
  let octets ← readBytes asnLength bufp
  let value := octets.foldl shiftCounter64 start
  pure ⟨bufp.drop asnLength, left, type, (checkOverflowU value.1, checkOverflowU value.2)⟩

/-- `asn_parse_unsigned_int64`: the value is the pair of `high` and `low`. -/
def asnParseUnsignedInt64 (data : Ptr) (datalength : Nat) : Reader (Parsed (Nat × Nat)) :=
  within data datalength do
    failIf (datalength < 2)
    let type ← deref data
    failIf (type ≠ asnCounter64 ∧ type ≠ asnOpaque)
    let (bufp, asnLength) ← asnParseNlength (data.drop 1) (datalength - 1)
    failIf (type = asnOpaque ∧ asnLength < 2)
    let object ← asnParseOpaqueTag (asnLength ≤ asnOpaqueCounter64MxBerLen)
      (fun tag => tag = asnOpaqueCounter64 || tag = asnOpaqueU64) type bufp datalength asnLength
    asnParseInt64Octets false data object

/-- `asn_parse_signed_int64`: the value is the pair of `high` and `low`. -/
def asnParseSignedInt64 (data : Ptr) (datalength : Nat) : Reader (Parsed (Nat × Nat)) :=
  within data datalength do
    failIf (datalength < 2)
    let type ← deref data
    let (bufp, asnLength) ← asnParseNlength (data.drop 1) (datalength - 1)
    failIf (asnLength < 2)
    -- both bytes are looked at on either path: the error message prints them
    let tag1 ← deref bufp
    let tag ← deref (bufp.drop 1)
    failIf (¬ (type = asnOpaque ∧ asnLength ≤ asnOpaqueCounter64MxBerLen ∧
      tag1 = asnOpaqueTag1 ∧ tag = asnOpaqueI64))
    let outer ← assignLength datalength asnLength
    let (bufp, asnLength) ← asnParseNlength (bufp.drop 2) (toSizeT ((outer : Int) - 2))
    asnParseInt64Octets true data ⟨bufp, outer, tag, asnLength⟩

/-- The common shape of `asn_parse_float` and `asn_parse_double`: an `Opaque` of `berLen`
bytes around a value of `size` bytes tagged `special`.  The value is its bits. -/
def asnParseOpaqueBits (special : Byte) (berLen size minimum : Nat) (data : Ptr)
    (datalength : Nat) : Reader (Parsed Nat) :=
  within data datalength do
    failIf (datalength < 2)
    let type ← deref data
    let (bufp, asnLength) ← asnParseNlength (data.drop 1) (datalength - 1)
    failIf (type = asnOpaque ∧ asnLength < minimum)
    let object ← asnParseOpaqueTag (asnLength = berLen) (fun tag => tag = special) type bufp
      datalength asnLength
    failIf (object.type ≠ special)
    failIf (object.value ≠ size)
    let left ← assignLength object.left (lengthAfter object.left object.value data object.next)
    let octets ← readBytes object.value object.next
    pure ⟨object.next, left, object.type, Octets.beNat octets⟩

/-- `asn_parse_float`; `ntohl` puts the four bytes in the order of the machine. -/
def asnParseFloat (data : Ptr) (datalength : Nat) : Reader (Parsed Nat) :=
  asnParseOpaqueBits asnOpaqueFloat asnOpaqueFloatBerLen 4 0 data datalength

/-- `asn_parse_double`, which alone checks for the two tag bytes first. -/
def asnParseDouble (data : Ptr) (datalength : Nat) : Reader (Parsed Nat) :=
  asnParseOpaqueBits asnOpaqueDouble asnOpaqueDoubleBerLen 8 2 data datalength

end NetSnmp
