import NetSnmp.Asn.Types
import NetSnmp.Machine
import NetSnmp.Mib.OctetHint
import NetSnmp.StoreRun

/-!
# Object identifiers from their text

`get_module_node` and the functions it calls: the components of a name are found in the tree of the
MIB, those behind an object are read as its indexes, and all of them are stored in the array of the
caller. A text is what is left of it in front of its terminating zero.
-/

namespace NetSnmp

namespace TextualOid

/-- The types of objects that can be indexes, and all others. -/
inductive MibType where
  | integer
  | integer32
  | uinteger
  | unsigned32
  | timeticks
  | ipaddr
  | octetstr
  | objid
  | netaddr
  | other
  deriving DecidableEq, Repr

/-- `struct index_list` without its link. -/
structure IndexEntry where
  ilabel : List Byte
  isimplied : Bool
  deriving DecidableEq, Repr

/-- `struct tree`: its children are those that `child_list` and `next_peer` lead to, and its parents
all those above it. -/
structure TreeNode where
  label : List Byte
  subid : Nat
  childList : List Nat := []
  parents : List Nat := []
  type : MibType := .other
  modules : List Int := []
  enums : List (List Byte × Int) := []
  ranges : List (Int × Int) := []
  indexes : List IndexEntry := []
  augments : Option (List Byte) := none
  hint : Option CString := none

/-- The nodes at their addresses, and the hashed lists of names one behind the other. -/
structure MibTree where
  node : Nat → TreeNode
  tbuckets : List Nat

/-- `find_tree_node`; any module if there is none given. -/
def findTreeNode (tree : MibTree) (name : List Byte) (modid : Option Int) : Option Nat :=
  if name = [] then none
  else
    tree.tbuckets.find? fun tp =>
      (tree.node tp).label = name && modid.all fun modid => (tree.node tp).modules.contains modid

/-- `objid` with `*objidlen`. -/
abbrev OidBuffer := ArrayState Nat

/-- A part of the function, which may go to `bad_id`. -/
abbrev OidRun := StoreRun Nat

/-- What is left of the text, or `NULL`. -/
abbrev Rest := Option (List Byte)

open StoreRun (fail ofOption used store advance push setUsed room reservePosition pushWithin
  pushAll)

/-- `strtoul` with base 0: the number, and what is left behind it. -/
def strtoul (text : List Byte) : Nat × List Byte :=
  let signed := strtolSign (text.dropWhile isspace)
  let digits := strtolPrefix 16 signed.2
  let base :=
    if digits ≠ signed.2 then 16 else if signed.2.head? = some 0x30 then 8 else 10
  let word := digits.takeWhile fun c => (digitValue base c).isSome
  if word = [] then (0, text)
  else
    let magnitude := word.foldl (fun value c => base * value + (digitValue base c).getD 0) 0
    let value :=
      if 2 ^ 64 ≤ magnitude then 2 ^ 64 - 1
      else if signed.1 then (2 ^ 64 - magnitude) % 2 ^ 64
      else magnitude
    (value, digits.drop word.length)

/-- The text in front of the next dot, which is overwritten, and what is behind it. -/
def isolate (cp : List Byte) : List Byte × Rest :=
  (cp.takeWhile (· ≠ 0x2e),
    match cp.dropWhile (· ≠ 0x2e) with
    | [] => none
    | _ :: rest => some rest)

theorem length_of_isolate {cp rest : List Byte} (rest_eq : (isolate cp).2 = some rest) :
    rest.length < cp.length := by
  have suffix := List.dropWhile_suffix (fun c : Byte => decide (c ≠ 0x2e)) (l := cp)
  rw [isolate] at rest_eq
  generalize cp.dropWhile (fun c : Byte => decide (c ≠ 0x2e)) = behind at rest_eq suffix
  cases behind with
  | nil => nomatch rest_eq
  | cons dot behind =>
      cases rest_eq
      exact suffix.length_le

/-- A `char` as a sub-identifier. -/
def charSubid (c : Byte) : Nat := if c.toNat < 128 then c.toNat else 2 ^ 64 - 256 + c.toNat

/-- The text of a quoted string without its escapes, and what is behind the quote that ends it.
`_apply_escapes` -/
def applyEscapes (eosMarker : Byte) : (backslash : Bool) → List Byte →
    Option (List Byte × List Byte)
  | _, [] => none
  | true, c :: src => (applyEscapes eosMarker false src).map fun read => (c :: read.1, read.2)
  | false, c :: src =>
      if c = eosMarker then some ([], src)
      else if c = 0x5c then applyEscapes eosMarker true src
      else (applyEscapes eosMarker false src).map fun read => (c :: read.1, read.2)

def behindQuote : List Byte → Option Rest
  | [] => some none
  | c :: rest => if c = 0x2e then some (some rest) else none

theorem length_of_behindQuote {behind rest : List Byte}
    (rest_eq : behindQuote behind = some (some rest)) : rest.length < behind.length := by
  cases behind with
  | nil => nomatch rest_eq
  | cons c behind =>
      rw [behindQuote] at rest_eq
      split at rest_eq
      · cases rest_eq
        simp
      · nomatch rest_eq

def lastPeer (tree : MibTree) (subid : Nat) : List Nat → Option Nat
  | [] => none
  | [tp] => some tp
  | tp :: next :: peers =>
      if (tree.node next).subid = subid then lastPeer tree subid (next :: peers) else some tp

/-- The sub-identifier of a component and the child that has it. A number needs no child. -/
def findChild (tree : MibTree) (childList : List Nat) (cp : List Byte) :
    Option (Nat × Option Nat) :=
  if cp.head?.any isdigit then
    match strtoul cp with
    | (subid, []) =>
        some (subid, lastPeer tree subid (childList.dropWhile fun tp =>
          (tree.node tp).subid ≠ subid))
    | _ => none
  else
    match childList.dropWhile fun tp => (tree.node tp).label ≠ cp with
    | [] => none
    | tp :: peers =>
        some ((tree.node tp).subid, lastPeer tree (tree.node tp).subid (tp :: peers))

/-- Where the loop over the tree ends: `tp`, `cp` and `cp2`. -/
structure Descent where
  tp : Nat
  cp : Rest
  cp2 : Rest

def addChildren (tree : MibTree) (maxlen : Nat) (tp : Nat) (cp : List Byte) (cp2 : Rest) :
    OidRun Descent :=
  if (tree.node tp).childList = [] then pure ⟨tp, some cp, cp2⟩
  else
    match findChild tree (tree.node tp).childList (isolate cp).1 with
    | none => fail
    | some (subid, child) => do
        pushWithin maxlen 0 subid
        match child, _rest_eq : (isolate cp).2 with
        | none, rest => pure ⟨tp, rest, rest⟩
        | some tp, none => pure ⟨tp, none, none⟩
        | some tp, some rest => addChildren tree maxlen tp rest (some rest)
termination_by cp.length
decreasing_by exact length_of_isolate _rest_eq

def inDicesOf (tree : MibTree) (tp : Nat) : List IndexEntry :=
  if (tree.node tp).childList ≠ [] then []
  else
    match (tree.node tp).parents.head? with
    | none => []
    | some parent =>
        if (tree.node parent).indexes ≠ [] then (tree.node parent).indexes
        else
          match (tree.node parent).augments.bind fun name => findTreeNode tree name none with
          | none => []
          | some augmented => (tree.node augmented).indexes

/-- The options of the library: whether ranges are checked, and whether hints are used. -/
structure OidOptions where
  check : Bool
  doHint : Bool
  /-- `strchr(cp, doingquote) - cp` for a text without the quote, where `strchr` returns `NULL`. -/
  fromNull : List Byte → Int

/-- Whether a sub-identifier is in one of the ranges, as an `int` or as an `unsigned int`. -/
def inRanges (signed : Bool) (ranges : List (Int × Int)) (subid : Nat) : Bool :=
  ranges.any fun (low, high) =>
    if signed then decide (low ≤ toCInt subid) && decide (toCInt subid ≤ high)
    else decide ((low % 2 ^ 32).toNat ≤ subid) && decide (subid ≤ (high % 2 ^ 32).toNat)

def enumSubid (enums : List (List Byte × Int)) (cp : List Byte) : Option Nat :=
  if cp.head?.any isdigit then
    match strtoul cp with
    | (subid, []) => some subid
    | _ => none
  else (enums.find? fun entry => entry.1 = cp).map fun entry => toSizeT entry.2

def isSignedType (type : MibType) : Bool := type = .integer || type = .integer32

/-- `TYPE_INTEGER` and the other numbers. -/
def addInteger (options : OidOptions) (maxlen : Nat) (tp : TreeNode) (cp : List Byte) :
    OidRun Rest :=
  match enumSubid tp.enums (isolate cp).1 with
  | none => fail
  | some subid =>
      if options.check = true ∧ tp.ranges ≠ [] ∧
          inRanges (isSignedType tp.type) tp.ranges subid = false then fail
      else do
        pushWithin maxlen 0 subid
        pure (isolate cp).2

def badOctet (check : Bool) (component : List Byte) : Bool :=
  decide ((strtoul component).2 ≠ []) || check && decide (255 < (strtoul component).1)

def addOctet (check : Bool) (component : List Byte) : OidRun Unit := do
  store (← used) (strtoul component).1
  if badOctet check component then fail else advance

/-- The loops over the octets of an address or a string, up to `len` of them; there is no end to a
negative number of them. -/
def addOctets (check : Bool) (len : Int) (cp : List Byte) : OidRun Rest :=
  if len = 0 then pure (some cp)
  else do
    addOctet check (isolate cp).1
    match _rest_eq : (isolate cp).2 with
    | none => pure none
    | some rest => addOctets check (len - 1) rest
termination_by cp.length
decreasing_by exact length_of_isolate _rest_eq

/-- `TYPE_IPADDR` -/
def addIpaddr (options : OidOptions) (maxlen : Nat) (cp : List Byte) : OidRun Rest := do
  if maxlen < (← used) + 4 then fail else addOctets options.check 4 cp

/-- What an index leaves of the text, and whether there may be further indexes. -/
structure NextIndex where
  cp : Rest
  more : Bool := true

/-- The loop over the octets behind the address family. -/
def addNetOctets (check : Bool) (maxlen : Nat) : (left : Nat) → List Byte → OidRun Rest
  | 0, cp => pure (some cp)
  | left + 1, cp =>
      match strtoul (isolate cp).1 with
      | (subid, []) => do
          room maxlen 1
          if check = true ∧ 255 < subid then fail
          else do
            pushWithin maxlen 1 subid
            match (isolate cp).2 with
            | none => pure none
            | some rest => addNetOctets check maxlen left rest
      | _ => fail

/-- `TYPE_NETADDR` -/
def addNetaddr (options : OidOptions) (maxlen : Nat) (cp : List Byte) : OidRun NextIndex :=
  match strtoul (isolate cp).1 with
  | (subid, []) => do
      pushWithin maxlen 1 subid
      if subid = 1 then
        match (isolate cp).2 with
        | none => pure { cp := none }
        | some rest => do
            let cp ← addNetOctets options.check maxlen 4 rest
            pure { cp }
      else pure { cp := (isolate cp).2, more := false }
  | _ => fail

def fixedLen (ranges : List (Int × Int)) : Int :=
  match ranges with
  | [(low, high)] => if low = high then low else -1
  | _ => -1

/-- The kinds of quotes are for variable and for fixed lengths. The position for the length, which
is stored when the string is, if there is one. -/
def startQuoted (maxlen : Nat) (len : Int) (isimplied : Bool) (doingquote : Byte) :
    OidRun (Option Nat) :=
  if isimplied = false ∧ len = -1 then
    if doingquote = 0x27 then fail
    else do
      let lenIndex ← reservePosition maxlen
      pure (some lenIndex)
  else if doingquote = 0x22 then fail
  else pure none

def quotedSubids (hintOf : CString → CString → Option HintReturn) (doHint : Bool)
    (hint : Option CString) (text : List Byte) : Option (List Nat) :=
  match doHint, hint with
  | true, some hint =>
      (hintOf hint (CString.ofBuffer text)).map fun parsed =>
        match parsed with
        | .parsed newVal => newVal.map UInt8.toNat
        | .offending _ => text.map charSubid
  | _, _ => some (text.map charSubid)

def endQuoted (check : Bool) (ranges : List (Int × Int)) (len : Int) (lenIndex : Option Nat)
    (pos : Nat) : OidRun Unit :=
  if check = true ∧ len = -1 ∧ (ranges.any fun (low, high) =>
      decide (low ≤ pos) && decide (pos ≤ high)) = false then fail
  else if check = true ∧ len ≠ -1 ∧ (pos : Int) ≠ len then fail
  else
    match lenIndex with
    | none => pure ()
    | some lenIndex => store lenIndex pos

/-- A quoted string, behind the quote `doingquote`. -/
def addQuoted (hintOf : CString → CString → Option HintReturn) (options : OidOptions)
    (maxlen : Nat) (tp : TreeNode) (isimplied : Bool) (doingquote : Byte) (cp : List Byte) :
    OidRun Rest := do
  let lenIndex ← startQuoted maxlen (fixedLen tp.ranges) isimplied doingquote
  match applyEscapes doingquote false cp with
  | none => fail
  | some (text, behind) => do
      let subids ← ofOption (quotedSubids hintOf options.doHint tp.hint text)
      pushAll maxlen subids
      match behindQuote behind with
      | none => fail
      | some rest => do
          endQuoted options.check tp.ranges (fixedLen tp.ranges) lenIndex subids.length
          pure rest

/-- An announced length is stored if it seems to fit: an `int` is added to a `size_t`. -/
def announceLen (maxlen : Nat) (len : Int) : OidRun Unit := do
  if maxlen ≤ ((← used) + toSizeT len + 1) % 2 ^ 64 then fail else push (toSizeT len)

/-- The length in front of a string of a variable length: the length of the string, and where its
octets start, unless there is no text left. -/
def startOctets (maxlen : Nat) (ranges : List (Int × Int)) (isimplied : Bool) (cp : List Byte) :
    OidRun (Int × Rest) :=
  if isimplied = false ∧ fixedLen ranges = -1 then
    match strtoul (isolate cp).1 with
    | (subid, []) => do
        announceLen maxlen (toCInt subid)
        pure (toCInt subid, (isolate cp).2)
    | _ => fail
  else pure (fixedLen ranges, some cp)

/-- A string that is given by its octets. Without octets the text goes on where `cp2` is. -/
def addString (options : OidOptions) (maxlen : Nat) (tp : TreeNode) (isimplied : Bool)
    (cp : List Byte) (cp2 : Rest) : OidRun Rest := do
  let start ← startOctets maxlen tp.ranges isimplied cp
  match start.2 with
  | none => pure none
  | some cp =>
      if fixedLen tp.ranges = 0 then pure cp2 else addOctets options.check start.1 cp

def quoteOf : List Byte → Option (Byte × List Byte)
  | [] => none
  | c :: cp => if c = 0x22 ∨ c = 0x27 then some (c, cp) else none

/-- `TYPE_OCTETSTR` -/
def addOctetstr (hintOf : CString → CString → Option HintReturn) (options : OidOptions)
    (maxlen : Nat) (tp : TreeNode) (isimplied : Bool) (cp : List Byte) (cp2 : Rest) : OidRun Rest :=
  match quoteOf cp with
  | some (doingquote, quoted) => addQuoted hintOf options maxlen tp isimplied doingquote quoted
  | none => addString options maxlen tp isimplied cp cp2

/-- The `switch` over the type of an index. -/
def addIndex (hintOf : CString → CString → Option HintReturn) (options : OidOptions)
    (maxlen : Nat) (tp : TreeNode) (isimplied : Bool) (cp : List Byte) (cp2 : Rest) :
    OidRun NextIndex :=
  match tp.type with
  | .integer | .integer32 | .uinteger | .unsigned32 | .timeticks => do
      let cp ← addInteger options maxlen tp cp
      pure { cp }
  | .ipaddr => do
      let cp ← addIpaddr options maxlen cp
      pure { cp }
  | .octetstr => do
      let cp ← addOctetstr hintOf options maxlen tp isimplied cp cp2
      pure { cp }
  | .netaddr => addNetaddr options maxlen cp
  | .objid | .other => pure { cp := some cp, more := false }

def addIndexes (hintOf : CString → CString → Option HintReturn) (tree : MibTree)
    (options : OidOptions) (maxlen : Nat) :
    List IndexEntry → (cp cp2 : Rest) → OidRun Rest
  | entry :: inDices, some cp, cp2 =>
      match findTreeNode tree entry.ilabel none with
      | none => pure (some cp)
      | some tp => do
          let next ← addIndex hintOf options maxlen (tree.node tp) entry.isimplied cp cp2
          if next.more then addIndexes hintOf tree options maxlen inDices next.cp next.cp
          else pure next.cp
  | _, cp, _ => pure cp

/-- The length of a string in front of it, for one of the kinds of quotes. -/
def pushLength (options : OidOptions) (maxlen : Nat) (doingquote : Byte) (cp : List Byte) :
    OidRun Unit :=
  if doingquote = 0x22 then
    let len : Int :=
      if doingquote ∈ cp then (cp.takeWhile (· ≠ doingquote)).length else options.fromNull cp
    pushWithin maxlen 0 (toSizeT (toCInt len))
  else pure ()

/-- The loop over the components that no index takes. -/
def addRest (options : OidOptions) (maxlen : Nat) (cp : List Byte) : OidRun Unit :=
  match cp with
  | [] => fail
  | c :: quoted =>
      if isdigit c then
        match strtoul (isolate (c :: quoted)).1 with
        | (subid, []) => do
            pushWithin maxlen 0 subid
            match _rest_eq : (isolate (c :: quoted)).2 with
            | none => pure ()
            | some rest => addRest options maxlen rest
        | _ => fail
      else if (c = 0x22 ∨ c = 0x27) ∧ quoted ≠ [] then do
        pushLength options maxlen c quoted
        pushAll maxlen ((quoted.takeWhile (· ≠ c)).map charSubid)
        match _behind_eq : quoted.dropWhile (· ≠ c) with
        | [] => fail
        | _ :: behind =>
            match _rest_eq : behindQuote behind with
            | none => fail
            | some none => pure ()
            | some (some rest) => addRest options maxlen rest
      else fail
termination_by cp.length
decreasing_by
  · exact length_of_isolate _rest_eq
  · have suffix := List.dropWhile_suffix (fun other : Byte => decide (other ≠ c)) (l := quoted)
    rw [_behind_eq] at suffix
    have shorter := suffix.length_le
    have shortest := length_of_behindQuote _rest_eq
    simp only [List.length_cons] at shorter ⊢
    omega

/-- `_add_strings_to_oid`, with what `parse_octet_hint` returns if it does. -/
def addStringsToOid (hintOf : CString → CString → Option HintReturn) (tree : MibTree)
    (options : OidOptions) (maxlen tp : Nat) (cp : List Byte) : OidRun Unit := do
  let descent ← addChildren tree maxlen tp cp none
  let rest ← addIndexes hintOf tree options maxlen (inDicesOf tree descent.tp) descent.cp
    descent.cp2
  match rest with
  | none => pure ()
  | some cp => addRest options maxlen cp

def storeFromEnd (lenids numids subid : Nat) : OidRun Unit :=
  if lenids ≤ numids then pure () else store (lenids - 1 - numids) subid

/-- The loop of `node_to_oid`, which stores from the end on. -/
def nodeToOidLoop (lenids : Nat) : (numids : Nat) → List Nat → OidRun Unit
  | _, [] => pure ()
  | numids, subid :: subids => do
      storeFromEnd lenids numids subid
      nodeToOidLoop lenids (numids + 1) subids

/-- `memmove(objid, op, numids * sizeof(oid))` -/
def moveFront (op numids : Nat) : OidRun Unit := fun buf =>
  some ({ buf with
          contents := fun position => if position < numids then buf.contents (op + position)
            else buf.contents position
          stores := List.range numids ++ buf.stores }, some ())

def nodeToOid (tree : MibTree) (tp : Nat) : OidRun Unit := do
  let subids := (tp :: (tree.node tp).parents).map fun tp => (tree.node tp).subid
  let lenids ← used
  nodeToOidLoop lenids 0 subids
  setUsed subids.length
  if lenids < subids.length then fail
  else if subids.length < lenids then moveFront (lenids - subids.length) subids.length
  else pure ()

/-- `get_module_node` behind the search for the module. -/
def getModuleNode (hintOf : CString → CString → Option HintReturn) (tree : MibTree)
    (options : OidOptions) (modid : Option Int) (fname : List Byte) : OidRun Unit :=
  match findTreeNode tree (isolate fname).1 modid with
  | none => fail
  | some tp => do
      let maxlen ← used
      nodeToOid tree tp
      match (isolate fname).2 with
      | none => pure ()
      | some cp => addStringsToOid hintOf tree options maxlen tp cp

end TextualOid

end NetSnmp
