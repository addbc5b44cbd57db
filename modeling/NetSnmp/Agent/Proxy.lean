import NetSnmp.Agent.SetPhases
import NetSnmp.Asn.Types
import NetSnmp.OidCompare
import NetSnmp.Snmp.VarValue

/-!
# The proxy

`proxy_handler` and `proxy_got_response`, with the requests in the modes that are
passed on.
-/

namespace NetSnmp

abbrev snmpErrNosuchname : Int := 2

/-- A `struct simple_proxy`; without a remote base the names are passed on as they are. -/
structure SimpleProxy where
  name : Oid
  base : Oid
  deriving DecidableEq, Repr

inductive ProxyMode where
  | get
  | getNext
  | getBulk
  | setAction
  deriving DecidableEq, Repr

/-- A `netsnmp_request_info`. -/
structure ProxyRequest where
  requestvb : VariableList
  delegated : Bool
  status : Int
  deriving DecidableEq, Repr

def overwrite (name written : Oid) : Oid := written.take name.length ++ name.drop written.length

def startWritten (base : Oid) : Oid :=
  let last := base.getLastD 0
  if last ≤ 1 then base else base.dropLast ++ [last - 1, maxSubid]

/-- The name that is sent in its place, so that the first one of the range answers. -/
def startName (base : Oid) : Oid :=
  let last := base.getLastD 0
  if last ≤ 1 then base.dropLast else base.dropLast ++ [last - 1, maxSubid]

/-- What happens to the varbind of a request, and the name that is sent for it. A name that becomes
too long has none. -/
def proxyOut (sp : SimpleProxy) (mode : ProxyMode) (requestvb : VariableList) :
    Option (VariableList × Oid) :=
  let ourname := requestvb.name
  if sp.base ≠ [] ∧ mode = .getNext ∧ snmpOidCompare ourname sp.name < 0 then
    some ({ requestvb with name := overwrite ourname (startWritten sp.base) }, startName sp.base)
  else if sp.base ≠ [] then
    if ourname.length + sp.base.length < sp.name.length ∨
        maxOidLen < ourname.length + sp.base.length - sp.name.length then none
    else
      some (requestvb, (sp.base ++ ourname.drop sp.name.length).take
        (ourname.length + sp.base.length - sp.name.length))
  else some (requestvb, ourname)

/-- The loop of `proxy_handler`: the requests, and the variables of the PDU that is sent. -/
def proxyHandler (sp : SimpleProxy) (mode : ProxyMode) :
    List ProxyRequest → List ProxyRequest × Option (List VariableList)
  | [] => ([], some [])
  | request :: requests =>
      match proxyOut sp mode request.requestvb with
      | none => (request :: requests, none)
      | some (requestvb, name) =>
          let rest := proxyHandler sp mode requests
          ({ request with requestvb := requestvb, delegated := true } :: rest.1,
            rest.2.map fun vars =>
              -- the variable is freed again if its value is not stored
              match snmpSetVarValue requestvb.type requestvb.val with
              | none => vars
              | some val => ⟨name, requestvb.type, val⟩ :: vars)

structure ProxyResponse where
  errstat : Int
  errindex : Int
  variables_ : List VariableList

def isLegitimate (base name : Oid) : Bool :=
  !(decide (name.length < base.length) || snmpOidCompare (name.take base.length) base ≠ 0)

/-- What a varbind of the response makes of that of a request. A name that becomes too long has no
result. -/
def proxyIn (sp : SimpleProxy) (requestvb var : VariableList) : Option VariableList :=
  let updated := snmpSetVarTypedValue requestvb var.type var.val
  if sp.base ≠ [] then
    if !isLegitimate sp.base var.name then some (snmpSetVarTypedValue updated asnNull (.unset 0))
    else if maxOidLen < sp.name.length + var.name.length - sp.base.length then none
    else some { updated with name := sp.name ++ var.name.drop sp.base.length }
  else if !isLegitimate sp.name var.name then
    some (snmpSetVarTypedValue updated asnNull (.unset 0))
  else some { updated with name := var.name }

/-- `netsnmp_set_request_error` for the first request of a list. -/
def setFirstError (status : Int) : List ProxyRequest → List ProxyRequest
  | [] => []
  | request :: requests => { request with delegated := false, status := status } :: requests

/-- `netsnmp_request_set_error_idx` -/
def setErrorIdx (requests : List ProxyRequest) (status idx : Int) : List ProxyRequest :=
  requests.take (idx.toNat - 1) ++ setFirstError status (requests.drop (idx.toNat - 1))

/-- The loop over the varbinds of the response. The result is missing where it gives up, at a name
that becomes too long or where the numbers of varbinds differ. -/
def proxyUpdate (sp : SimpleProxy) :
    List ProxyRequest → List VariableList → List ProxyRequest × Bool
  | [], [] => ([], true)
  | request :: requests, var :: vars =>
      match proxyIn sp request.requestvb var with
      | none =>
          ({ request with
            requestvb := snmpSetVarTypedValue request.requestvb var.type var.val
            delegated := false } :: requests, false)
      | some requestvb =>
          let rest := proxyUpdate sp requests vars
          ({ request with requestvb := requestvb, delegated := false } :: rest.1, rest.2)
  | requests, _ => (requests, false)

/-- `proxy_got_response` for a message that was received, up to the call of
`netsnmp_bulk_to_next_fix_requests` in mode `MODE_GETBULK`. -/
def proxyGotResponse (sp : SimpleProxy) (mode : ProxyMode) (requests : List ProxyRequest)
    (response : ProxyResponse) : List ProxyRequest :=
  if response.errstat ≠ snmpErrNoerror then
    let undelegated := requests.map fun request => { request with delegated := false }
    if mode = .getNext ∧ response.errstat = snmpErrNosuchname then undelegated
    else setErrorIdx undelegated response.errstat (toCInt response.errindex)
  else
    let updated := proxyUpdate sp requests response.variables_
    if updated.2 then updated.1 else setFirstError snmpErrGenerr updated.1

end NetSnmp
