import NetSnmp.Fuel
import NetSnmp.Mib.OctetHint
import NetSnmp.TailQueue
import NetSnmp.Transport.InAddr
import NetSnmp.Vacm.View

/-!
# Communities and their sources

The `com2sec` lines of `snmpUDPDomain.c` and the `com2sec6` lines of `snmpUDPIPv6Domain.c`, from the
text of a line on, and the lookups in their lists. Memory does not run out; a new entry is at an
address that was not used before. The error messages are those of `config_perror`.
-/

namespace NetSnmp

/-- `struct com2SecEntry_s` and `com2Sec6Entry`, without the link. -/
structure Com2SecEntry (octets : Nat) where
  secName : List Byte
  contextName : List Byte
  network : InAddr octets
  mask : InAddr octets
  negate : Bool
  community : List Byte
  deriving DecidableEq

/-- `com2SecList` and `com2SecListLast`, with the entries at all addresses and the next address for
one. -/
structure Com2SecList (octets : Nat) where
  entries : Addr → Com2SecEntry octets
  queue : TailQueue
  free : Addr

namespace Com2SecList

variable {octets : Nat}

def empty : Com2SecList octets :=
  ⟨fun _ => ⟨[], [], InAddr.zero, InAddr.zero, false, []⟩, ⟨fun _ => none, none, none⟩, 0⟩

def link (list : Com2SecList octets) (e : Com2SecEntry octets) : Com2SecList octets :=
  let cell := list.free
  let next := Function.update list.queue.next cell none
  { entries := Function.update list.entries cell e
    queue :=
      match list.queue.last with
      | some last =>
          { list.queue with next := Function.update next last (some cell), last := some cell }
      | none => ⟨next, some cell, some cell⟩
    free := list.free + 1 }

end Com2SecList

/-- What the lines use of other code: `inet_pton` for both families, the lookup of host names, and
the hosts of a netgroup. -/
structure Resolver where
  inetPton4 : List Byte → Option (InAddr 4)
  inetPton6 : List Byte → Option (InAddr 16)
  netsnmpGethostbynameV4 : List Byte → Option (InAddr 4)
  netsnmpGetaddrinfo : List Byte → Except String (InAddr 16 × List (InAddr 16))
  netgroup : List Byte → Option (List (List Byte))

def vacmstringlen : Nat := 34

def communityMaxLen : Nat := 256

/-- `NETWORK` -/
def exampleNetwork : List Byte := [0x4e, 0x45, 0x54, 0x57, 0x4f, 0x52, 0x4b]

/-- `COMMUNITY` -/
def exampleCommunity : List Byte := [0x43, 0x4f, 0x4d, 0x4d, 0x55, 0x4e, 0x49, 0x54, 0x59]

/-- `-Cn` -/
def contextOption : List Byte := [0x2d, 0x43, 0x6e]

structure Com2SecWords where
  contextName : List Byte
  secName : List Byte
  source : List Byte
  community : List Byte

/-- The name with its context, and what is left of the line. The IPv6 line checks the `lengths`
here. -/
def readNames (lengths : Bool) (param : List Byte) :
    Except String (List Byte × List Byte × Option (List Byte)) :=
  let copied := copyNword param vacmstringlen
  if copied.1 = contextOption then
    match copied.2 with
    | none => .error "missing CONTEXT_NAME parameter"
    | some param =>
        let context := copyNword param vacmstringlen
        if lengths ∧ vacmMaxString < context.1.length then .error "context name too long"
        else
          match context.2 with
          | none => .error "missing NAME parameter"
          | some param =>
              let name := copyNword param vacmstringlen
              .ok (context.1, name.1, name.2)
  else .ok ([], copied.1, copied.2)

def readSource (sourceLen : Nat) (param : Option (List Byte)) :
    Except String (List Byte × Option (List Byte)) :=
  match param with
  | none => .error "missing SOURCE parameter"
  | some param =>
      let source := copyNword param sourceLen
      if source.1 = [] then .error "empty SOURCE parameter"
      else if source.1.take exampleNetwork.length = exampleNetwork then
        .error "example config NETWORK not properly configured"
      else .ok source

def readCommunity (lengths : Bool) (param : Option (List Byte)) : Except String (List Byte) :=
  match param with
  | none => .error "missing COMMUNITY parameter"
  | some param =>
      let community := (copyNword param (communityMaxLen + 2)).1
      if community = [] then .error "empty COMMUNITY parameter"
      else if lengths ∧ communityMaxLen < community.length then .error "community name too long"
      else if community = exampleCommunity then
        .error "example config COMMUNITY not properly configured"
      else .ok community

/-- The part that `netsnmp_udp_parse_security` and `netsnmp_udp6_parse_security` share. -/
def readWords (lengths : Bool) (sourceLen : Nat) (param : List Byte) : Except String Com2SecWords :=
  match readNames lengths param with
  | .error message => .error message
  | .ok (contextName, secName, param) =>
      if secName = [] then .error "empty NAME parameter"
      else if lengths ∧ vacmMaxString < secName.length then .error "security name too long"
      else
        match readSource sourceLen param with
        | .error message => .error message
        | .ok (source, param) =>
            match readCommunity lengths param with
            | .error message => .error message
            | .ok community => .ok ⟨contextName, secName, source, community⟩

def splitNegate (source : List Byte) : Bool × List Byte :=
  match source with
  | 0x21 :: sourcep => (true, sourcep)
  | sourcep => (false, sourcep)

def splitMask (source : List Byte) : List Byte × Option (List Byte) :=
  (source.takeWhile (· ≠ 0x2f), (source.dropWhile (· ≠ 0x2f)).tail?)

/-- `default` -/
def wordDefault : List Byte := [0x64, 0x65, 0x66, 0x61, 0x75, 0x6c, 0x74]

section UDP

variable (resolver : Resolver)

def parseMask4 (strmask : List Byte) : Except String (InAddr 4) :=
  match strtolEnd 10 strmask with
  | some (maskLen, []) =>
      if 0 < maskLen ∧ maskLen ≤ 32 then .ok (InAddr.leading4 maskLen.toNat)
      else if maskLen = 0 then .ok InAddr.zero
      else .error "bad mask length"
  | _ =>
      match resolver.inetPton4 strmask with
      | some mask => .ok mask
      | none => .error "bad mask"

/-- `netsnmp_udp_resolve_source`: network and mask. -/
def netsnmpUdpResolveSource (source : List Byte) : Except String (InAddr 4 × InAddr 4) :=
  let split := splitMask source
  match (resolver.inetPton4 split.1).or (resolver.netsnmpGethostbynameV4 split.1) with
  | none => .error "cannot resolve source hostname"
  | some network =>
      match split.2 with
      | none | some [] => .ok (network, InAddr.ones)
      | some strmask =>
          match parseMask4 resolver strmask with
          | .error message => .error message
          | .ok mask =>
              if network.mismatch mask then .error "source/mask mismatch" else .ok (network, mask)

/-- The return codes of `netsnmp_udp_com2SecEntry_create`, without the one for failing memory. -/
inductive C2seErr where
  | success
  | missingArg
  | communityTooLong
  | secnameTooLong
  | contextTooLong
  | maskMismatch
  deriving DecidableEq

/-- `netsnmp_udp_com2SecEntry_create`, with the entry that is returned through `entryp`. -/
def netsnmpUdpCom2SecEntryCreate (list : Com2SecList 4) (community secName : Option (List Byte))
    (contextName : Option (List Byte)) (network mask : Option (InAddr 4)) (negate : Bool) :
    Com2SecList 4 × Option Addr × C2seErr :=
  match community, secName with
  | some community, some secName =>
      let network := network.getD InAddr.zero
      let mask := mask.getD InAddr.zero
      let contextName := contextName.getD []
      if network.mismatch mask then (list, none, .maskMismatch)
      else if communityMaxLen < community.length then (list, none, .communityTooLong)
      else if vacmMaxString < secName.length then (list, none, .secnameTooLong)
      else if vacmMaxString < contextName.length then (list, none, .contextTooLong)
      else
        (list.link ⟨secName, contextName, network, mask, negate, community⟩, some list.free,
          .success)
  | _, _ => (list, none, .missingArg)

def netsnmpUdpCom2SecEntryCheckReturnCode (rc : C2seErr) : List String :=
  match rc with
  | .success => []
  | .contextTooLong => ["context name too long"]
  | .communityTooLong => ["community name too long"]
  | .secnameTooLong => ["security name too long"]
  | .maskMismatch => ["source/mask mismatch"]
  | .missingArg => ["unexpected error; could not create com2SecEntry"]

def createChecked (list : Com2SecList 4) (words : Com2SecWords) (network mask : InAddr 4)
    (negate : Bool) : Com2SecList 4 × List String :=
  let created := netsnmpUdpCom2SecEntryCreate list (some words.community) (some words.secName)
    (some words.contextName) (some network) (some mask) negate
  (created.1, netsnmpUdpCom2SecEntryCheckReturnCode created.2.2)

def netgroupHosts (words : Com2SecWords) (negate : Bool) :
    Com2SecList 4 → List (List Byte) → Com2SecList 4 × List String
  | list, [] => (list, [])
  | list, host :: hosts =>
      match netsnmpUdpResolveSource resolver host with
      | .error message => (list, [message, "netgroup host address parsing issue"])
      | .ok (network, mask) =>
          let created := createChecked list words network mask negate
          let rest := netgroupHosts words negate created.1 hosts
          (rest.1, created.2 ++ rest.2)

/-- `netsnmp_parse_source_as_netgroup`, where the source is one. -/
def netsnmpParseSourceAsNetgroup (list : Com2SecList 4) (words : Com2SecWords)
    (sourcep : List Byte) (negate : Bool) : Option (Com2SecList 4 × List String) :=
  match sourcep with
  | 0x40 :: netgroup =>
      some <|
        match resolver.netgroup netgroup with
        | none => (list, ["netgroup could not be found"])
        | some hosts => netgroupHosts resolver words negate list hosts
  | _ => none

/-- `netsnmp_udp_parse_security`, with the error messages. -/
def netsnmpUdpParseSecurity (list : Com2SecList 4) (param : List Byte) :
    Com2SecList 4 × List String :=
  match readWords false 271 param with
  | .error message => (list, [message])
  | .ok words =>
      if words.source = wordDefault then createChecked list words InAddr.zero InAddr.zero false
      else
        let split := splitNegate words.source
        match netsnmpParseSourceAsNetgroup resolver list words split.2 split.1 with
        | some parsed => parsed
        | none =>
            match netsnmpUdpResolveSource resolver split.2 with
            | .error message => (list, [message])
            | .ok (network, mask) => createChecked list words network mask split.1

end UDP

/-- The loop of `netsnmp_udp_com2SecList_remove`: the entry in front, if `e` is found. -/
def findCom2Sec (next : Addr → Option Addr) (e : Addr) :
    (fuel : Nat) → (p c : Option Addr) → Option (Option (Option Addr))
  | 0, _, _ => none
  | _ + 1, _, none => some none
  | fuel + 1, p, some c =>
      if e = c then some (some p) else findCom2Sec next e fuel (some c) (next c)

/-- `netsnmp_udp_com2SecList_remove`, and what it returns. -/
def netsnmpUdpCom2SecListRemove (fuel : Nat) (list : Com2SecList 4) (e : Addr) :
    Option (Com2SecList 4 × Int) :=
  (findCom2Sec list.queue.next e fuel none list.queue.first).map fun
    | none => (list, 1)
    | some p =>
        let queue := list.queue.remove p e
        ({ list with queue := { queue with next := Function.update queue.next e none } }, 0)

/-- The loop of `netsnmp_udp_getSecName` and of `netsnmp_udp6_getSecName`: the first entry that
matches. -/
def findSecName {octets : Nat} (list : Com2SecList octets)
    (matching : Com2SecEntry octets → Bool) :
    (fuel : Nat) → (c : Option Addr) → Option (Option (Com2SecEntry octets))
  | 0, _ => none
  | _ + 1, none => some none
  | fuel + 1, some c =>
      if matching (list.entries c) then some (some (list.entries c))
      else findSecName list matching fuel (list.queue.next c)

/-- What a lookup returns, and the names that it sets. -/
structure SecNameFound where
  rc : Int
  names : Option (List Byte × List Byte)
  deriving DecidableEq

def Com2SecEntry.found {octets : Nat} (c : Option (Com2SecEntry octets)) : SecNameFound :=
  match c with
  | none => ⟨1, none⟩
  | some c => ⟨1, if c.negate then none else some (c.secName, c.contextName)⟩

/-- The lookup; `source` is missing where the transport has no address of the family. -/
def getSecName {octets : Nat} (matching : InAddr octets → Com2SecEntry octets → Bool)
    (fuel : Nat) (list : Com2SecList octets) (source : Option (InAddr octets)) :
    Option SecNameFound :=
  match list.queue.first, source with
  | none, _ => some ⟨0, none⟩
  | some _, none => some ⟨1, none⟩
  | some first, some source =>
      (findSecName list (matching source) fuel (some first)).map Com2SecEntry.found

def netsnmpUdpGetSecName (fuel : Nat) (list : Com2SecList 4) (community : List Byte)
    (source : Option (InAddr 4)) : Option SecNameFound :=
  getSecName (fun source c => community.length = c.community.length &&
    memcmp community c.community community.length = 0 && source.agrees c.mask c.network)
    fuel list source

/-- `netsnmp_udp6_getSecName`: the octets are compared one by one. -/
def netsnmpUdp6GetSecName (fuel : Nat) (list : Com2SecList 16) (community : List Byte)
    (source : Option (InAddr 16)) : Option SecNameFound :=
  getSecName (fun source c => community.length = c.community.length &&
    memcmp community c.community community.length = 0 &&
    (List.finRange 16).all fun i => source[i] &&& c.mask[i] = c.network[i])
    fuel list source

section UDP6

variable (resolver : Resolver)

/-- `create_com2Sec6Entry`; `begin` and `end` are the queue of `chunks`. -/
def createCom2Sec6Entry (chunks : Com2SecList 16) (words : Com2SecWords)
    (network mask : InAddr 16) (negate : Bool) : Except String (Com2SecList 16) :=
  if (List.finRange 16).any fun i => network[i] &&& ~~~mask[i] ≠ 0 then
    .error "source/mask mismatch"
  else
    .ok (chunks.link ⟨words.secName, words.contextName, network, mask, negate, words.community⟩)

def createChunks (words : Com2SecWords) (mask : InAddr 16) (negate : Bool) :
    Com2SecList 16 → List (InAddr 16) → Except String (Com2SecList 16)
  | chunks, [] => .ok chunks
  | chunks, network :: networks =>
      match createCom2Sec6Entry chunks words network mask negate with
      | .error message => .error message
      | .ok chunks => createChunks words mask negate chunks networks

def parseMask6 (strmask : List Byte) : Except String (InAddr 16) :=
  match strtolEnd 10 strmask with
  | some (masklength, []) =>
      if 0 ≤ masklength ∧ masklength ≤ 128 then .ok (InAddr.leading6 masklength.toNat)
      else .error "bad mask length"
  | _ =>
      match resolver.inetPton6 strmask with
      | some mask => .ok mask
      | none => .error "bad mask"

def sourceMask6 (strmask : Option (List Byte)) : Except String (InAddr 16) :=
  match strmask with
  | none | some [] => .ok InAddr.ones
  | some strmask => parseMask6 resolver strmask

def sourceAddresses6 (sourcep : List Byte) : Except (List String) (List (InAddr 16)) :=
  match resolver.inetPton6 sourcep with
  | some network => .ok [network]
  | none =>
      if (resolver.inetPton4 sourcep).isSome then .error []
      else
        match resolver.netsnmpGetaddrinfo sourcep with
        | .error message => .error [message]
        | .ok (network, networks) => .ok (network :: networks)

def linkChunks (list : Com2SecList 16) (words : Com2SecWords) (networks : List (InAddr 16))
    (mask : InAddr 16) (negate : Bool) : Com2SecList 16 × List String :=
  let own := { list with queue := { list.queue with first := none, last := none } }
  match createChunks words mask negate own networks with
  | .error message => (list, [message])
  | .ok chunks =>
      let queue :=
        match list.queue.last with
        | some last =>
            { chunks.queue with
              next := Function.update chunks.queue.next last chunks.queue.first
              first := list.queue.first }
        | none => chunks.queue
      ({ chunks with queue }, [])

/-- `netsnmp_udp6_parse_security`, with the error messages. -/
def netsnmpUdp6ParseSecurity (list : Com2SecList 16) (param : List Byte) :
    Com2SecList 16 × List String :=
  match readWords true 301 param with
  | .error message => (list, [message])
  | .ok words =>
      if words.source = wordDefault then linkChunks list words [InAddr.zero] InAddr.zero false
      else
        let split := splitNegate words.source
        let parts := splitMask split.2
        match sourceMask6 resolver parts.2 with
        | .error message => (list, [message])
        | .ok mask =>
            match sourceAddresses6 resolver parts.1 with
            | .error messages => (list, messages)
            | .ok networks => linkChunks list words networks mask split.1

end UDP6

end NetSnmp
