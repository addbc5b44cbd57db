import NetSnmp.Asn.ReverseBuild

/-!
# The reverse SNMP PDU encoder

`snmp_realloc_rbuild_var_op` and `snmp_pdu_realloc_rbuild`.  The encoder writes
the variables from the last to the first, although the list can only be walked
forwards: it goes through the list as often as needed and keeps the pointers to
the last fifty variables that are not written yet.
-/

namespace NetSnmp

/-- The `switch` on the type of a variable in `snmp_realloc_rbuild_var_op`.  There is no result
when the value is not the member of the union that belongs to the type. -/
def snmpReallocRbuildValue (r : Bool) (buf : RBuf) (type : Byte) (val : Vardata) : Option RBuf :=
  if type = asnInteger then
    match val with
    | .integer value => asnReallocRbuildInt r buf type value
    | _ => none
  else if type = asnGauge ∨ type = asnCounter ∨ type = asnTimeticks ∨ type = asnUinteger then
    match val with
    | .integer value => asnReallocRbuildUnsignedInt r buf type (toSizeT value)
    | _ => none
  else if type = asnOpaqueCounter64 ∨ type = asnOpaqueU64 ∨ type = asnCounter64 then
    match val with
    | .counter64 high low => asnReallocRbuildUnsignedInt64 r buf type high low
    | _ => none
  else if type = asnOctetStr ∨ type = asnIpaddress ∨ type = asnOpaque ∨ type = asnNsap then
    match val with
    | .string str => asnReallocRbuildString r buf type str
    | _ => none
  else if type = asnObjectId then
    match val with
    | .objid objid => asnReallocRbuildObjid r buf type objid
    | _ => none
  else if type = asnNull then asnReallocRbuildNull r buf type
  else if type = asnBitStr then
    match val with
    | .string str => asnReallocRbuildBitstring r buf type str
    | _ => none
  else if type = snmpNosuchobject ∨ type = snmpNosuchinstance ∨ type = snmpEndofmibview then
    asnReallocRbuildNull r buf type
  else if type = asnOpaqueFloat then
    match val with
    | .floatVal bits => asnReallocRbuildFloat r buf bits
    | _ => none
  else if type = asnOpaqueDouble then
    match val with
    | .doubleVal bits => asnReallocRbuildDouble r buf bits
    | _ => none
  else if type = asnOpaqueI64 then
    match val with
    | .counter64 high low => asnReallocRbuildSignedInt64 r buf high low
    | _ => none
  else none

def snmpReallocRbuildVarOp (r : Bool) (buf : RBuf) (var : VariableList) : Option RBuf := do
  let startOffset := buf.offset
  let buf ← snmpReallocRbuildValue r buf var.type var.val
  let buf ← asnReallocRbuildObjid r buf asnObjectId var.name
  asnReallocRbuildSequence r buf asnSequence (buf.offset - startOffset)

def vpcacheSize : Nat := 50

/-- The local variables of `snmp_pdu_realloc_rbuild` that belong to the cache.  A pointer into
the list of variables is the position of the variable. -/
structure Vpcache where
  /-- `vpcache[]`; no value stands for an entry that is not set yet. -/
  slot : Nat → Option Nat
  /-- `i + 1`, which becomes `final`: the entries from here on were set last. -/
  final : Nat
  wrapped : Bool

namespace Vpcache

def store (cache : Vpcache) (vp : Nat) : Vpcache :=
  let wraps := cache.final = 0
  let i := if wraps then vpcacheSize - 1 else cache.final - 1
  { slot := Function.update cache.slot i (some vp)
    final := i
    wrapped := cache.wrapped || decide wraps }

/-- The loops that fill the cache, from the variable at position `vp` on. -/
def fill (stops : Nat → VariableList → Bool) (cache : Vpcache) :
    (vp : Nat) → List VariableList → Vpcache
  | _, [] => cache
  | vp, var :: vars =>
      if stops vp var then cache
      else fill stops (cache.store vp) (vp + 1) vars

def start (slot : Nat → Option Nat) : Vpcache := ⟨slot, vpcacheSize, false⟩

/-- `tmpvp`: the last variable written from a cache that wrapped. -/
def tmpvp (cache : Vpcache) : Option Nat :=
  cache.slot (if cache.final = 0 then vpcacheSize - 1 else cache.final - 1)

end Vpcache

/-- `for (i = from; i < from + count; i++)` write the variable that the cache points to. -/
def rbuildSlots (vars : List VariableList) (cache : Vpcache) : (count : Nat) → (i : Nat) →
    RBuf → Option RBuf
  | 0, _, buf => some buf
  | count + 1, i, buf => do
      let vp ← cache.slot i
      let var ← vars[vp]?
      let buf ← snmpReallocRbuildVarOp true buf var
      rbuildSlots vars cache count (i + 1) buf

/-- The `do` loop of `snmp_pdu_realloc_rbuild`, with a bound on the number of passes. -/
def rbuildVarbinds (vars : List VariableList) : (passes : Nat) → Vpcache → RBuf → Option RBuf
  | 0, _, _ => none
  | passes + 1, cache, buf => do
      let buf ← rbuildSlots vars cache (vpcacheSize - cache.final) cache.final buf
      if cache.wrapped then do
        let buf ← rbuildSlots vars cache cache.final 0 buf
        let tmpvp ← cache.tmpvp
        rbuildVarbinds vars passes
          (Vpcache.fill (fun vp _ => vp = tmpvp) (.start cache.slot) 0 vars) buf
      else some buf

def rbuildTrapFields (pdu : NetsnmpPdu) (buf : RBuf) : Option RBuf := do
  let buf ← asnReallocRbuildUnsignedInt true buf asnTimeticks pdu.time
  let buf ← asnReallocRbuildInt true buf asnInteger pdu.specificType
  let buf ← asnReallocRbuildInt true buf asnInteger pdu.trapType
  let buf ← asnReallocRbuildString true buf asnIpaddress pdu.agentAddr.toList
  asnReallocRbuildObjid true buf asnObjectId pdu.enterprise

def rbuildFields (pdu : NetsnmpPdu) (buf : RBuf) : Option RBuf := do
  let buf ← asnReallocRbuildInt true buf asnInteger pdu.errindex
  let buf ← asnReallocRbuildInt true buf asnInteger pdu.errstat
  asnReallocRbuildInt true buf asnInteger pdu.reqid

def rbuildHead (pdu : NetsnmpPdu) (buf : RBuf) : Option RBuf :=
  if pdu.command = snmpMsgTrap then rbuildTrapFields pdu buf
  else rbuildFields pdu buf

def snmpPduReallocRbuild (pdu : NetsnmpPdu) (buf : RBuf) : Option RBuf := do
  let startOffset := buf.offset
  let vars := pdu.variableList
  let cache := Vpcache.fill (fun _ var => var.type = asnPrivStop) (.start fun _ => none) 0 vars
  let buf ← rbuildVarbinds vars (vars.length + 1) cache buf
  let buf ← asnReallocRbuildSequence true buf asnSequence (buf.offset - startOffset)
  let buf ← rbuildHead pdu buf
  asnReallocRbuildSequence true buf (toUChar pdu.command) (buf.offset - startOffset)

end NetSnmp
