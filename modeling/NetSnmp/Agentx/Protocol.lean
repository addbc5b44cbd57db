import NetSnmp.Asn.Types
import NetSnmp.ByteOrder
import NetSnmp.Machine

/-!
# AgentX encodings

The routines that build and parse integers, object identifiers and varbinds. The
buffer of a builder grows as needed.
-/

namespace NetSnmp

/-- The order of a host, and the one that the `NETWORK_BYTE_ORDER` flag of a PDU selects. -/
structure AgentxOrder where
  host : ByteOrder
  network : ByteOrder
  deriving DecidableEq, Repr

variable (order : AgentxOrder)

/-- `agentx_realloc_build_int` and `agentx_realloc_build_short`, with the width of the number. -/
def agentxBuildNumber (width value : Nat) : List Byte :=
  match order.network, order.host with
  | .bigEndian, .littleEndian => order.host.store width (ByteOrder.swap width value)
  | .bigEndian, .bigEndian => order.host.store width value
  | .littleEndian, .littleEndian => order.host.store width value
  -- the loop that takes one byte after the other from the number
  | .littleEndian, .bigEndian => lowFirst width value

/-- `agentx_realloc_build_int` for a value that is converted to `unsigned int`. -/
def agentxBuildInt (value : Nat) : List Byte := agentxBuildNumber order 4 (value % 2 ^ 32)

/-- `agentx_realloc_build_short` -/
def agentxBuildShort (value : Nat) : List Byte := agentxBuildNumber order 2 (value % 2 ^ 16)

def agentxCompact (name : Oid) : Nat × Oid :=
  match name with
  | 1 :: 3 :: 6 :: 1 :: subid :: rest =>
      if 0 < subid ∧ subid < 256 then (subid, rest) else (0, name)
  | _ => (0, name)

/-- `agentx_realloc_build_oid` -/
def agentxBuildOid (inclusive : Byte) (name : Oid) : List Byte :=
  let inclusive := if name.length = 0 then 0 else inclusive
  let compact := agentxCompact name
  [UInt8.ofNat compact.2.length, UInt8.ofNat compact.1, inclusive, 0] ++
    compact.2.flatMap (agentxBuildInt order)

/-- `agentx_realloc_build_string` -/
def agentxBuildString (string : List Byte) : List Byte :=
  agentxBuildInt order string.length ++ string ++
    List.replicate ((4 - string.length % 4) % 4) 0

/-- The value of a varbind in `agentx_realloc_build_varbind`; the `Opaque` types are left out. -/
def agentxBuildValue (type : Byte) (val : Vardata) : Option (List Byte) :=
  if type = asnInteger ∨ type = asnCounter ∨ type = asnGauge ∨ type = asnTimeticks ∨
      type = asnUinteger then
    match val with
    | .integer value => some (agentxBuildInt order (toSizeT value))
    | _ => none
  else if type = asnOctetStr ∨ type = asnIpaddress then
    match val with
    | .string string => some (agentxBuildString order string)
    | _ => none
  else if type = asnObjectId ∨ type = asnPrivInclRange ∨ type = asnPrivExclRange then
    match val with
    | .objid name => some (agentxBuildOid order 1 name)
    | _ => none
  else if type = asnCounter64 then
    match val with
    | .counter64 high low =>
        match order.network with
        | .bigEndian => some (agentxBuildInt order high ++ agentxBuildInt order low)
        | .littleEndian => some (agentxBuildInt order low ++ agentxBuildInt order high)
    | _ => none
  else if type = asnNull ∨ type = snmpNosuchobject ∨ type = snmpNosuchinstance ∨
      type = snmpEndofmibview then some []
  else none

def agentxSentType (type : Byte) : Byte :=
  if type = asnPrivInclRange ∨ type = asnPrivExclRange then asnObjectId else type

/-- `agentx_realloc_build_varbind` -/
def agentxBuildVarbind (vp : VariableList) : Option (List Byte) :=
  (agentxBuildValue order vp.type vp.val).map fun value =>
    agentxBuildShort order (agentxSentType vp.type).toNat ++ [0, 0] ++
      agentxBuildOid order 0 vp.name ++ value

/-- The value of the bytes in `agentx_parse_int` and `agentx_parse_short`. -/
def agentxParseNumber (width : Nat) (data : List Byte) : Nat :=
  match order.network, order.host with
  | .bigEndian, .littleEndian => ByteOrder.swap width (order.host.load (data.take width))
  | .bigEndian, .bigEndian => order.host.load (data.take width)
  | .littleEndian, .littleEndian => order.host.load (data.take width)
  -- the bytes are added up from the last one on
  | .littleEndian, .bigEndian => lowFirstValue (data.take width)

/-- `agentx_parse_int`, whose result is an `int`. -/
def agentxParseInt (data : List Byte) : Int := toCInt (agentxParseNumber order 4 data)

/-- The loop of `agentx_parse_oid`, where the `int` is assigned to an `oid`. -/
def agentxParseSubids : (nSubid : Nat) → List Byte → Oid × List Byte
  | 0, data => ([], data)
  | nSubid + 1, data =>
      let rest := agentxParseSubids nSubid (data.drop 4)
      (toSizeT (agentxParseInt order data) :: rest.1, rest.2)

/-- `agentx_parse_oid`: the name, the inclusive field and the data behind it. -/
def agentxParseOid (data : List Byte) : Option (Oid × Byte × List Byte) :=
  match data with
  | nSubid :: prefix0 :: inc :: _ :: data =>
      if nSubid = 0 ∧ prefix0 = 0 then some ([0, 0], inc, data)
      else if data.length < 4 * nSubid.toNat then none
      else
        let subids := agentxParseSubids order nSubid.toNat data
        some ((if prefix0 = 0 then [] else [1, 3, 6, 1, prefix0.toNat]) ++ subids.1, inc, subids.2)
  | _ => none

def agentxParseString (data : List Byte) : Option (List Byte × List Byte) :=
  if data.length < 4 then none
  else
    let len := (agentxParseInt order data % 2 ^ 32).toNat
    if 2 ^ 32 - 1 - 4 < len ∨ data.length < len + 4 then none
    else
      let padded := (len + 3) / 4 * 4
      if data.length < padded + 4 then none
      else some ((data.drop 4).take len, data.drop (padded + 4))

/-- The value of a varbind in `agentx_parse_varbind`, as `snmp_set_var_value` takes it from the
buffer. -/
def agentxParseValue (type : Nat) (data : List Byte) : Option (Vardata × List Byte) :=
  if type = asnInteger.toNat then
    if data.length < 4 then none
    else some (.integer (agentxParseInt order data), data.drop 4)
  else if type = asnCounter.toNat ∨ type = asnGauge.toNat ∨ type = asnTimeticks.toNat ∨
      type = asnUinteger.toNat then
    if data.length < 4 then none
    -- the `int` is converted to `u_int`
    else some (.integer ((agentxParseInt order data) % 2 ^ 32), data.drop 4)
  else if type = asnOctetStr.toNat ∨ type = asnIpaddress.toNat then
    (agentxParseString order data).map fun (string, data) => (.string string, data)
  else if type = asnObjectId.toNat ∨ type = asnPrivInclRange.toNat ∨
      type = asnPrivExclRange.toNat then
    (agentxParseOid order data).map fun (name, _, data) => (.objid name, data)
  else if type = asnCounter64.toNat then
    if data.length < 8 then none
    else
      -- each `int` is assigned to a `u_long`
      let first := toSizeT (agentxParseInt order data)
      let second := toSizeT (agentxParseInt order (data.drop 4))
      match order.network with
      | .bigEndian => some (.counter64 first second, data.drop 8)
      | .littleEndian => some (.counter64 second first, data.drop 8)
  else if type = asnNull.toNat ∨ type = snmpNosuchobject.toNat ∨
      type = snmpNosuchinstance.toNat ∨ type = snmpEndofmibview.toNat then
    some (.unset 0, data)
  else none

/-- `agentx_parse_varbind`: the name, the type, the value and the data behind them. -/
def agentxParseVarbind (data : List Byte) : Option (Oid × Nat × Vardata × List Byte) :=
  if data.length < 4 then none
  else
    let type := agentxParseNumber order 2 data
    match agentxParseOid order (data.drop 4) with
    | none => none
    | some (name, _, data) =>
        (agentxParseValue order type data).map fun (val, data) => (name, type, val, data)

end NetSnmp
