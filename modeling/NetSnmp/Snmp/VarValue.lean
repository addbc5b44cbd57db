import NetSnmp.Snmp.InRange

/-!
# Values of variables

`snmp_set_var_value` and `snmp_set_var_typed_value`.
-/

namespace NetSnmp

abbrev asnPrivImpliedOctetStr : Byte := 0xc4
abbrev asnPrivImpliedObjectId : Byte := 0xc6

def isLong (type : Byte) : Bool :=
  type = asnInteger || type = asnGauge || type = asnTimeticks || type = asnCounter ||
    type = asnUinteger

def isCopied (type : Byte) : Bool :=
  type = asnObjectId || type = asnIpaddress || type = asnOctetStr || type = asnBitStr ||
    type = asnOpaque || type = asnNsap || type = asnOpaqueU64 || type = asnOpaqueI64 ||
    type = asnCounter64 || type = asnOpaqueFloat || type = asnOpaqueDouble ||
    type = asnPrivImpliedOctetStr || type = asnPrivImpliedObjectId || type = asnPrivInclRange ||
    type = asnPrivExclRange

/-- `snmp_set_var_value`: the value that a variable of a type gets, and none for a type that the
routine does not know. -/
def snmpSetVarValue (type : Byte) (val : Vardata) : Option Vardata :=
  if isLong type then
    match val with
    | .integer v => some (.integer (if 0xffffffff < v then v % 2 ^ 32 else v))
    | _ => some (.unset 0)
  else if isCopied type then some val
  else if isNullType type then some (.unset 0)
  else none

/-- What the buffer of a variable holds: it is cleared as long as there was no value in it. -/
def heldInBuffer : Vardata → Vardata
  | .unset _ => .counter64 0 0
  | val => val

/-- `snmp_set_var_typed_value`: where there is no case for the type, the variable gets the type and
keeps what is in its buffer. -/
def snmpSetVarTypedValue (var : VariableList) (type : Byte) (val : Vardata) : VariableList :=
  { var with type := type, val := (snmpSetVarValue type val).getD (heldInBuffer var.val) }

theorem snmpSetVarValue_long {type : Byte} {v : Int} (long : isLong type = true)
    (small : v ≤ 0xffffffff) : snmpSetVarValue type (.integer v) = some (.integer v) := by
  simp [snmpSetVarValue, long, small]

theorem snmpSetVarValue_copied {type : Byte} (val : Vardata) (notLong : isLong type = false)
    (copied : isCopied type = true) : snmpSetVarValue type val = some val := by
  simp [snmpSetVarValue, notLong, copied]

end NetSnmp
