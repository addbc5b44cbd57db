import NetSnmp.Index.RoundTrip

/-!
# Indexes of an instance

What a list of sub-identifiers decodes to as the indexes of a table, and what is taken for them if
zeros are filled in for those that are missing.
-/

namespace NetSnmp

namespace IndexDecode

/-- How the values of a type are encoded: strings and object identifiers may be implied. -/
inductive IndexKind where
  | integer
  | address
  | octets (implied : Bool)
  | subids (implied : Bool)
  | unknown
  deriving DecidableEq, Repr

def kindOf (type : Byte) : IndexKind :=
  if isIntegerIndex type then .integer
  else if type = asnIpaddress then .address
  else if type = asnObjectId then .subids false
  else if type = asnPrivImpliedObjectId then .subids true
  else if type = asnPrivImpliedOctetStr then .octets true
  else if isStringIndex type then .octets false
  else .unknown

/-- The index of a registered table. A value that was set for an implied type is only read for its
length, which fixes the length of the values. -/
inductive IsTemplate (template : VariableList) : Prop
  | plain (unset : template.val = .unset 0)
  | fixed {valLen : Nat} (implied : kindOf template.type = .octets true ∨
      kindOf template.type = .subids true) (unset : template.val = .unset valLen)

def octetsVal (octets : List Byte) : Vardata := if octets = [] then .unset 0 else .string octets

def lengthInFront (implied : Bool) (body : Oid) : Oid :=
  if implied then body else body.length :: body

def FitsLength (template : VariableList) (length : Nat) : Prop :=
  template.val.valLen = 0 ∨ length = template.val.valLen

inductive DecodesAs (template : VariableList) : Oid → Vardata → Prop
  | integer {value : Nat} (kind : kindOf template.type = .integer) (small : value < 2 ^ 32) :
      DecodesAs template [value] (.integer value)
  | address {octets : List Byte} (kind : kindOf template.type = .address)
      (length_eq : octets.length = 4) :
      DecodesAs template (octets.map UInt8.toNat) (.string octets)
  | octets {implied : Bool} {octets : List Byte} (kind : kindOf template.type = .octets implied)
      (fits : implied = true → FitsLength template octets.length) :
      DecodesAs template (lengthInFront implied (octets.map UInt8.toNat)) (octetsVal octets)
  | subids {implied : Bool} {subids : Oid} (kind : kindOf template.type = .subids implied)
      (fits : implied = true → FitsLength template subids.length) :
      DecodesAs template (lengthInFront implied subids) (.objid subids)

def Decodes : (templates : List VariableList) → Oid → List VariableList → Prop
  | [], oid, values => oid = [] ∧ values = []
  | template :: templates, oid, values =>
      ∃ segment rest value others, oid = segment ++ rest ∧ values = value :: others ∧
        value.type = template.type ∧ DecodesAs template segment value.val ∧
        Decodes templates rest others

/-- Each index is parsed with zeros for what is missing, and nothing is left behind the last one;
there is something left for each of them. -/
def takeIndexes (order : ByteOrder) : List VariableList → Oid → Option (List VariableList)
  | [], oid => if oid = [] then some [] else none
  | template :: templates, oid =>
      if oid = [] then none
      else
        match parseOneOidIndex order true oid template with
        | none => none
        | some (value, rest) => (takeIndexes order templates rest).map (value :: ·)

/-- The number of the sub-identifiers or octets of a value, and what it is taken from. -/
def announced (implied : Bool) (template : VariableList) (oid : Oid) : Nat × Oid :=
  if implied then (if template.val.valLen = 0 then oid.length else template.val.valLen, oid)
  else (oid.headD 0 % 2 ^ 32, oid.tail)

def isAnnounced (implied : Bool) (template : VariableList) (oid : Oid) : Bool :=
  (implied || decide (oid.headD 0 < 2 ^ 32)) &&
    decide ((announced implied template oid).1 ≤ (announced implied template oid).2.length)

def isReadable (template : VariableList) (oid : Oid) : Bool :=
  match kindOf template.type with
  | .integer => true
  | .address => (oid.take 4).all fun subid => decide (subid ≤ 255)
  | .octets implied | .subids implied => decide ((announced implied template oid).1 ≤ maxOidLen)
  | .unknown => false

def behindIndex (template : VariableList) (oid : Oid) : Oid :=
  match kindOf template.type with
  | .integer => oid.drop 1
  | .address => oid.drop 4
  | .octets implied | .subids implied =>
      (announced implied template oid).2.drop (announced implied template oid).1
  | .unknown => oid

/-- Nothing of the first index is missing, and each number is of the size that it should be. -/
def isWhole (template : VariableList) (oid : Oid) : Bool :=
  match kindOf template.type with
  | .integer => decide (oid.headD 0 < 2 ^ 32)
  | .address => decide (4 ≤ oid.length)
  | .octets implied =>
      isAnnounced implied template oid &&
        ((announced implied template oid).2.take (announced implied template oid).1).all
          fun subid => decide (subid ≤ 255)
  | .subids implied => isAnnounced implied template oid
  | .unknown => true

/-- Something is left for each index, each one is parsed, and nothing is left behind the last. -/
def areReadable : List VariableList → Oid → Bool
  | [], oid => decide (oid = [])
  | template :: templates, oid =>
      decide (oid ≠ []) && isReadable template oid &&
        areReadable templates (behindIndex template oid)

def areWhole : List VariableList → Oid → Bool
  | [], _ => true
  | template :: templates, oid =>
      isWhole template oid && areWhole templates (behindIndex template oid)

structure ParsesAs (template : VariableList) (oid : Oid) (value : VariableList) : Prop where
  type_eq : value.type = template.type
  whole : isWhole template oid = true → ∃ segment, oid = segment ++ behindIndex template oid ∧
    DecodesAs template segment value.val
  of_decodes : ∀ segment rest, oid = segment ++ rest → DecodesAs template segment value.val →
    rest = behindIndex template oid ∧ isWhole template oid = true

structure ParseOutcome (order : ByteOrder) (template : VariableList) (oid : Oid) : Prop where
  unreadable : isReadable template oid = false → parseOneOidIndex order true oid template = none
  readable : isReadable template oid = true → ∃ value,
    parseOneOidIndex order true oid template = some (value, behindIndex template oid) ∧
      ParsesAs template oid value

variable {order : ByteOrder} {template : VariableList} {oid : Oid}

inductive TypeOfKind (type : Byte) : IndexKind → Prop
  | integer (isInteger : isIntegerIndex type = true) : TypeOfKind type .integer
  | address (same : type = asnIpaddress) : TypeOfKind type .address
  | octets (isString : isStringIndex type = true) : TypeOfKind type (.octets false)
  | impliedOctets (same : type = asnPrivImpliedOctetStr) : TypeOfKind type (.octets true)
  | subids (same : type = asnObjectId) : TypeOfKind type (.subids false)
  | impliedSubids (same : type = asnPrivImpliedObjectId) : TypeOfKind type (.subids true)
  | unknown (noInteger : isIntegerIndex type = false) (noAddress : type ≠ asnIpaddress)
      (noSubids : ¬(type = asnObjectId ∨ type = asnPrivImpliedObjectId))
      (noOctets : ¬(isStringIndex type = true ∨ type = asnPrivImpliedOctetStr)) :
      TypeOfKind type .unknown

theorem typeOfKind (type : Byte) : TypeOfKind type (kindOf type) := by
  by_cases isInteger : isIntegerIndex type = true
  · simpa only [kindOf, if_pos isInteger] using .integer isInteger
  · by_cases isAddress : type = asnIpaddress
    · simpa only [kindOf, if_neg isInteger, if_pos isAddress] using .address isAddress
    · by_cases isObjid : type = asnObjectId
      · simpa only [kindOf, if_neg isInteger, if_neg isAddress, if_pos isObjid] using
          .subids isObjid
      · by_cases isImplied : type = asnPrivImpliedObjectId
        · simpa only [kindOf, if_neg isInteger, if_neg isAddress, if_neg isObjid,
            if_pos isImplied] using .impliedSubids isImplied
        · by_cases isImpliedStr : type = asnPrivImpliedOctetStr
          · simpa only [kindOf, if_neg isInteger, if_neg isAddress, if_neg isObjid,
              if_neg isImplied, if_pos isImpliedStr] using .impliedOctets isImpliedStr
          · by_cases isString : isStringIndex type = true
            · simpa only [kindOf, if_neg isInteger, if_neg isAddress, if_neg isObjid,
                if_neg isImplied, if_neg isImpliedStr, if_pos isString] using .octets isString
            · simpa only [kindOf, if_neg isInteger, if_neg isAddress, if_neg isObjid,
                if_neg isImplied, if_neg isImpliedStr, if_neg isString] using
                .unknown (by simpa using isInteger) isAddress (by simp [isObjid, isImplied])
                  (by simp [isString, isImpliedStr])

theorem DecodesAs.of_integer {segment : Oid} {val : Vardata}
    (decodes : DecodesAs template segment val) (kind : kindOf template.type = .integer) :
    ∃ value, segment = [value] ∧ value < 2 ^ 32 := by
  cases decodes with
  | integer _ small => exact ⟨_, rfl, small⟩
  | address kind' => nomatch kind.symm.trans kind'
  | octets kind' => nomatch kind.symm.trans kind'
  | subids kind' => nomatch kind.symm.trans kind'

theorem DecodesAs.of_address {segment : Oid} {val : Vardata}
    (decodes : DecodesAs template segment val) (kind : kindOf template.type = .address) :
    segment.length = 4 := by
  cases decodes with
  | integer kind' => nomatch kind.symm.trans kind'
  | address _ length_eq => rw [List.length_map, length_eq]
  | octets kind' => nomatch kind.symm.trans kind'
  | subids kind' => nomatch kind.symm.trans kind'

theorem parseOneOidIndex_integer (order : ByteOrder) (isInteger : isIntegerIndex template.type = true)
    (subid : Nat) (rest : Oid) :
    ∃ value : VariableList, parseOneOidIndex order true (subid :: rest) template =
      some (value, rest) ∧ value.type = template.type ∧
        (subid < 2 ^ 32 → value.val = .integer subid) := by
  have long := isLong_of_isIntegerIndex isInteger
  refine ⟨snmpSetVarTypedValue template template.type (.integer subid), ?_, rfl, ?_⟩
  · simp [parseOneOidIndex, isInteger]
  · intro small
    have value_eq := snmpSetVarValue_long long (show (subid : Int) ≤ 0xffffffff by omega)
    simp only [snmpSetVarTypedValue, value_eq, Option.getD_some]

theorem outcome_integer (order : ByteOrder) (kind : kindOf template.type = .integer)
    (isInteger : isIntegerIndex template.type = true) (nonempty : oid ≠ []) :
    ParseOutcome order template oid := by
  rcases List.exists_cons_of_ne_nil nonempty with ⟨subid, rest, rfl⟩
  have behind : behindIndex template (subid :: rest) = rest := by simp [behindIndex, kind]
  have whole_iff : isWhole template (subid :: rest) = true ↔ subid < 2 ^ 32 := by
    simp [isWhole, kind]
  refine ⟨by simp [isReadable, kind], fun _ => ?_⟩
  rcases parseOneOidIndex_integer order isInteger subid rest with
    ⟨value, parsed, type_eq, val_eq⟩
  rw [behind]
  refine ⟨value, parsed, type_eq, ?_, ?_⟩
  · intro whole
    have small := whole_iff.mp whole
    rw [behind, val_eq small]
    exact ⟨[subid], rfl, .integer kind small⟩
  · intro segment rest' oid_eq decodes
    rcases decodes.of_integer kind with ⟨value, rfl, small⟩
    cases oid_eq
    exact ⟨behind.symm, whole_iff.mpr small⟩

theorem parseOneOidIndex_address (order : ByteOrder) (isAddress : template.type = asnIpaddress)
    (oid : Oid) : parseOneOidIndex order true oid template =
      if (oid.take 4).any fun subid => decide (255 < subid) then none
      else
        some ({ template with
                val := .string (order.store 4 (htonl order (ipaddrOfSubids oid))) },
          oid.drop 4) := by
  simp [parseOneOidIndex, isAddress, snmpSetVarTypedValue]
  rfl

theorem outcome_address (order : ByteOrder) (kind : kindOf template.type = .address)
    (isAddress : template.type = asnIpaddress) (oid : Oid) : ParseOutcome order template oid := by
  have readable_iff : isReadable template oid = true ↔
      ¬((oid.take 4).any fun subid => decide (255 < subid)) = true := by
    simp [isReadable, kind]
  have whole_iff : isWhole template oid = true ↔ 4 ≤ oid.length := by
    simp [isWhole, kind]
  have behind : behindIndex template oid = oid.drop 4 := by simp [behindIndex, kind]
  refine ⟨?_, ?_⟩
  · intro unreadable
    rw [parseOneOidIndex_address order isAddress, if_pos]
    by_contra noneLarge
    rw [readable_iff.mpr noneLarge] at unreadable
    nomatch unreadable
  · intro readable
    have noneLarge := readable_iff.mp readable
    have parsed := parseOneOidIndex_address order isAddress oid
    rw [if_neg noneLarge, ← behind] at parsed
    refine ⟨_, parsed, rfl, ?_, ?_⟩
    · intro whole
      have enough := whole_iff.mp whole
      rw [behind]
      match oid, enough with
      | a :: b :: c :: d :: rest, _ =>
          simp at noneLarge
          have stored := store_htonl_ipaddrOfSubids order (show a < 256 by omega)
            (show b < 256 by omega) (show c < 256 by omega) (show d < 256 by omega) rest
          have segment_eq : [a, b, c, d] = ([a, b, c, d].map UInt8.ofNat).map UInt8.toNat := by
            apply ((toNat_ofNat_eq_iff _).mpr _).symm
            simp
            omega
          have decodes : DecodesAs template (([a, b, c, d].map UInt8.ofNat).map UInt8.toNat)
              (.string ([a, b, c, d].map UInt8.ofNat)) := .address kind rfl
          rw [← segment_eq] at decodes
          refine ⟨[a, b, c, d], rfl, ?_⟩
          rwa [stored]
    · intro segment rest' oid_eq decodes
      have length_eq := decodes.of_address kind
      rw [behind]
      rw [whole_iff, oid_eq, List.length_append]
      exact ⟨(List.drop_left' length_eq).symm, by omega⟩

theorem lengthInFront_implied (body : Oid) : lengthInFront true body = body := rfl

theorem lengthInFront_plain (body : Oid) : lengthInFront false body = body.length :: body := rfl

theorem zeroFilled_length (body : Oid) (count : Nat) : (zeroFilled body count).length = count := by
  rw [zeroFilled, List.length_append, List.length_take, List.length_replicate]
  omega

theorem zeroFilled_zero (body : Oid) : zeroFilled body 0 = [] := by simp [zeroFilled]

theorem announcedLen_eq (template : VariableList) (implied : Bool) (nonempty : oid ≠ []) :
    announcedLen implied true template oid = some (announced implied template oid) := by
  rcases List.exists_cons_of_ne_nil nonempty with ⟨len, body, rfl⟩
  cases implied with
  | true =>
      simp only [announcedLen, announced, if_true]
      split <;> rfl
  | false => simp [announcedLen, announced]

theorem segment_of_isAnnounced {implied : Bool} (whole : isAnnounced implied template oid = true)
    (nonempty : oid ≠ []) :
    let count := (announced implied template oid).1
    let body := (announced implied template oid).2
    oid = lengthInFront implied (body.take count) ++ body.drop count ∧
      (body.take count).length = count ∧ (implied = true → FitsLength template count) := by
  rcases List.exists_cons_of_ne_nil nonempty with ⟨len, rest, rfl⟩
  cases implied with
  | true =>
      simp only [isAnnounced, announced, if_true, Bool.true_or, Bool.true_and, decide_eq_true_eq]
        at whole
      simp only [announced, if_true, lengthInFront_implied, List.take_append_drop, true_and]
      refine ⟨by rw [List.length_take, Nat.min_eq_left whole], fun _ => ?_⟩
      by_cases anyLength : template.val.valLen = 0
      · exact .inl anyLength
      · exact .inr (by rw [if_neg anyLength])
  | false =>
      simp [isAnnounced, announced] at whole
      have same : len % 2 ^ 32 = len := Nat.mod_eq_of_lt (by omega)
      have length_eq : (rest.take len).length = len := by
        rw [List.length_take]
        omega
      simp only [announced, Bool.false_eq_true, if_false, List.headD_cons, List.tail_cons, same,
        lengthInFront_plain, length_eq, List.cons_append, List.take_append_drop, false_implies,
        and_self]

theorem isAnnounced_of_segment {implied : Bool} {body rest : Oid}
    (oid_eq : oid = lengthInFront implied body ++ rest)
    (length_eq : body.length = (announced implied template oid).1)
    (readable : (announced implied template oid).1 ≤ maxOidLen) :
    (announced implied template oid).2 = body ++ rest ∧
      isAnnounced implied template oid = true := by
  have short : body.length ≤ 128 := by rwa [length_eq]
  cases implied with
  | true =>
      rw [lengthInFront_implied] at oid_eq
      have behind : (announced true template oid).2 = body ++ rest := oid_eq
      refine ⟨behind, ?_⟩
      rw [isAnnounced, behind, ← length_eq, List.length_append]
      simp
  | false =>
      have behind : (announced false template oid).2 = body ++ rest := by
        rw [oid_eq, lengthInFront_plain]
        rfl
      refine ⟨behind, ?_⟩
      have head : oid.headD 0 = body.length := by
        rw [oid_eq, lengthInFront_plain]
        rfl
      rw [isAnnounced, behind, ← length_eq, List.length_append, head]
      simp
      omega

theorem DecodesAs.of_octets {implied : Bool} {segment : Oid} {val : Vardata}
    (decodes : DecodesAs template segment val) (kind : kindOf template.type = .octets implied) :
    ∃ octets, segment = lengthInFront implied (octets.map UInt8.toNat) ∧
      val = octetsVal octets := by
  cases decodes with
  | integer kind' => nomatch kind.symm.trans kind'
  | address kind' => nomatch kind.symm.trans kind'
  | @octets implied' octets kind' =>
      cases IndexKind.octets.inj (kind.symm.trans kind')
      exact ⟨octets, rfl, rfl⟩
  | subids kind' => nomatch kind.symm.trans kind'

theorem DecodesAs.of_subids {implied : Bool} {segment : Oid} {val : Vardata}
    (decodes : DecodesAs template segment val) (kind : kindOf template.type = .subids implied) :
    ∃ subids, segment = lengthInFront implied subids ∧ val = .objid subids := by
  cases decodes with
  | integer kind' => nomatch kind.symm.trans kind'
  | address kind' => nomatch kind.symm.trans kind'
  | octets kind' => nomatch kind.symm.trans kind'
  | @subids implied' subids kind' =>
      cases IndexKind.subids.inj (kind.symm.trans kind')
      exact ⟨subids, rfl, rfl⟩

theorem octetsVal_inj {octets octets' : List Byte} (same : octetsVal octets = octetsVal octets') :
    octets = octets' := by
  by_cases empty : octets = []
  · by_cases empty' : octets' = []
    · rw [empty, empty']
    · simp [octetsVal, empty, empty'] at same
  · by_cases empty' : octets' = []
    · simp [octetsVal, empty, empty'] at same
    · simpa [octetsVal, empty, empty'] using same

theorem outcome_octets (order : ByteOrder) {implied : Bool}
    (kind : kindOf template.type = .octets implied)
    (parsed : parseOneOidIndex order true oid template =
      if maxOidLen < (announced implied template oid).1 then none
      else
        some ({ template with
                val := octetsVal ((zeroFilled (announced implied template oid).2
                  (announced implied template oid).1).map UInt8.ofNat) },
          behindIndex template oid))
    (nonempty : oid ≠ []) : ParseOutcome order template oid := by
  have readable_iff : isReadable template oid = true ↔
      (announced implied template oid).1 ≤ maxOidLen := by
    simp [isReadable, kind]
  have behind : behindIndex template oid =
      (announced implied template oid).2.drop (announced implied template oid).1 := by
    simp [behindIndex, kind]
  refine ⟨?_, ?_⟩
  · intro unreadable
    rw [parsed, if_pos]
    apply not_le.mp
    intro short
    rw [readable_iff.mpr short] at unreadable
    nomatch unreadable
  · intro readable
    have short := readable_iff.mp readable
    rw [if_neg (not_lt.mpr short)] at parsed
    refine ⟨_, parsed, rfl, ?_, ?_⟩
    · intro whole
      simp only [isWhole, kind, Bool.and_eq_true] at whole
      rcases segment_of_isAnnounced whole.1 nonempty with ⟨oid_eq, length_eq, fits⟩
      refine ⟨_, behind ▸ oid_eq, ?_⟩
      rw [zeroFilled_of_le (by rw [← length_eq]; exact List.length_take_le' _ _),
        ← (toNat_ofNat_eq_iff _).mpr whole.2]
      rw [ofNat_toNat_octets]
      refine .octets kind fun isImplied => ?_
      rw [List.length_map, length_eq]
      exact fits isImplied
    · intro segment rest oid_eq decodes
      rcases decodes.of_octets kind with ⟨octets, rfl, val_eq⟩
      have octets_eq := octetsVal_inj val_eq
      have length_eq : (octets.map UInt8.toNat).length = (announced implied template oid).1 := by
        rw [← octets_eq, List.length_map, List.length_map, zeroFilled_length]
      rcases isAnnounced_of_segment oid_eq length_eq short with ⟨body_eq, whole⟩
      have taken : (announced implied template oid).2.take (announced implied template oid).1 =
          octets.map UInt8.toNat := by
        rw [body_eq, List.take_left' length_eq]
      refine ⟨by rw [behind, body_eq, List.drop_left' length_eq], ?_⟩
      have small := (toNat_ofNat_eq_iff (octets.map UInt8.toNat)).mp
        (by rw [ofNat_toNat_octets])
      simp only [isWhole, kind, whole, taken, small, Bool.and_self]

theorem outcome_subids (order : ByteOrder) {implied : Bool}
    (kind : kindOf template.type = .subids implied)
    (parsed : parseOneOidIndex order true oid template =
      if maxOidLen < (announced implied template oid).1 then none
      else
        some ({ template with
                val := .objid (zeroFilled (announced implied template oid).2
                  (announced implied template oid).1) },
          behindIndex template oid))
    (nonempty : oid ≠ []) : ParseOutcome order template oid := by
  have readable_iff : isReadable template oid = true ↔
      (announced implied template oid).1 ≤ maxOidLen := by
    simp [isReadable, kind]
  have behind : behindIndex template oid =
      (announced implied template oid).2.drop (announced implied template oid).1 := by
    simp [behindIndex, kind]
  refine ⟨?_, ?_⟩
  · intro unreadable
    rw [parsed, if_pos]
    apply not_le.mp
    intro short
    rw [readable_iff.mpr short] at unreadable
    nomatch unreadable
  · intro readable
    have short := readable_iff.mp readable
    rw [if_neg (not_lt.mpr short)] at parsed
    refine ⟨_, parsed, rfl, ?_, ?_⟩
    · intro whole
      simp only [isWhole, kind] at whole
      rcases segment_of_isAnnounced whole nonempty with ⟨oid_eq, length_eq, fits⟩
      refine ⟨_, behind ▸ oid_eq, ?_⟩
      rw [zeroFilled_of_le (by rw [← length_eq]; exact List.length_take_le' _ _)]
      refine .subids kind fun isImplied => ?_
      rw [length_eq]
      exact fits isImplied
    · intro segment rest oid_eq decodes
      rcases decodes.of_subids kind with ⟨subids, rfl, val_eq⟩
      have subids_eq := Vardata.objid.inj val_eq
      have length_eq : subids.length = (announced implied template oid).1 := by
        rw [← subids_eq, zeroFilled_length]
      rcases isAnnounced_of_segment oid_eq length_eq short with ⟨body_eq, whole⟩
      refine ⟨by rw [behind, body_eq, List.drop_left' length_eq], ?_⟩
      simp only [isWhole, kind, whole]

theorem parseOneOidIndex_octets (order : ByteOrder) {implied : Bool}
    (isImplied : decide (template.type = asnPrivImpliedOctetStr) = implied)
    (isOctets : isStringIndex template.type = true ∨ template.type = asnPrivImpliedOctetStr)
    (kind : kindOf template.type = .octets implied) (isTemplate : IsTemplate template)
    (nonempty : oid ≠ []) :
    parseOneOidIndex order true oid template =
      if maxOidLen < (announced implied template oid).1 then none
      else
        some ({ template with
                val := octetsVal ((zeroFilled (announced implied template oid).2
                  (announced implied template oid).1).map UInt8.ofNat) },
          behindIndex template oid) := by
  have others : isIntegerIndex template.type = false ∧ template.type ≠ asnIpaddress ∧
      template.type ≠ asnObjectId ∧ template.type ≠ asnPrivImpliedObjectId := by
    rcases isOctets with isString | same
    · have others := not_integer_of_isStringIndex isString
      exact ⟨others.1, others.2.1, others.2.2.1, others.2.2.2.1⟩
    · rw [same]
      decide
  have behind : behindIndex template oid =
      (announced implied template oid).2.drop (announced implied template oid).1 := by
    simp [behindIndex, kind]
  have read := announcedLen_eq template implied nonempty
  simp only [parseOneOidIndex, others, isOctets, isImplied, read, behind, Bool.false_eq_true,
    Bool.true_eq_false, and_false, if_false, or_self, if_true]
  by_cases none_announced : (announced implied template oid).1 = 0
  · have unset : template.val = .unset 0 := by
      cases isTemplate with
      | plain unset => exact unset
      | @fixed valLen _ unset =>
          -- a length that is fixed is announced
          rcases List.exists_cons_of_ne_nil nonempty with ⟨len, rest, rfl⟩
          cases implied with
          | true =>
              simp only [announced, if_true] at none_announced
              split at none_announced
              · cases none_announced
              · contradiction
          | false =>
              rename_i impliedKind
              rw [kind] at impliedKind
              rcases impliedKind with same | same
              · cases same
              · cases same
    simp [none_announced, zeroFilled_zero, octetsVal, ← unset]
  · have filled : (zeroFilled (announced implied template oid).2
        (announced implied template oid).1).map UInt8.ofNat ≠ [] := by
      intro empty
      have length_eq := congrArg List.length empty
      rw [List.length_map, zeroFilled_length] at length_eq
      exact none_announced length_eq
    simp [none_announced, octetsVal, filled]

theorem parseOneOidIndex_subids (order : ByteOrder) {implied : Bool}
    (isImplied : decide (template.type = asnPrivImpliedObjectId) = implied)
    (isSubids : template.type = asnObjectId ∨ template.type = asnPrivImpliedObjectId)
    (kind : kindOf template.type = .subids implied) (nonempty : oid ≠ []) :
    parseOneOidIndex order true oid template =
      if maxOidLen < (announced implied template oid).1 then none
      else
        some ({ template with
                val := .objid (zeroFilled (announced implied template oid).2
                  (announced implied template oid).1) },
          behindIndex template oid) := by
  have others : isIntegerIndex template.type = false ∧ template.type ≠ asnIpaddress ∧
      isLong template.type = false ∧ isCopied template.type = true := by
    rcases isSubids with same | same
    all_goals rw [same]; decide
  have behind : behindIndex template oid =
      (announced implied template oid).2.drop (announced implied template oid).1 := by
    simp [behindIndex, kind]
  have read := announcedLen_eq template implied nonempty
  have copied (val : Vardata) := snmpSetVarValue_copied val others.2.2.1 others.2.2.2
  simp only [parseOneOidIndex, others, isSubids, isImplied, read, behind, Bool.false_eq_true,
    Bool.true_eq_false, and_false, if_false, if_true, snmpSetVarTypedValue, copied,
    Option.getD_some]

theorem outcome (order : ByteOrder) (isTemplate : IsTemplate template) (nonempty : oid ≠ []) :
    ParseOutcome order template oid := by
  have known := typeOfKind template.type
  cases kind : kindOf template.type with
  | integer =>
      rw [kind] at known
      cases known with
      | integer isInteger => exact outcome_integer order kind isInteger nonempty
  | address =>
      rw [kind] at known
      cases known with
      | address same => exact outcome_address order kind same oid
  | octets implied =>
      rw [kind] at known
      apply outcome_octets order kind _ nonempty
      cases known with
      | octets isString =>
          have others := not_integer_of_isStringIndex isString
          exact parseOneOidIndex_octets order (by simp [others]) (.inl isString) kind isTemplate
            nonempty
      | impliedOctets same =>
          exact parseOneOidIndex_octets order (by simp [same]) (.inr same) kind isTemplate nonempty
  | subids implied =>
      rw [kind] at known
      apply outcome_subids order kind _ nonempty
      cases known with
      | subids same =>
          exact parseOneOidIndex_subids order (by rw [same]; rfl) (.inl same) kind nonempty
      | impliedSubids same =>
          exact parseOneOidIndex_subids order (by simp [same]) (.inr same) kind nonempty
  | unknown =>
      rw [kind] at known
      cases known with
      | unknown noInteger noAddress noSubids noOctets =>
          refine ⟨fun _ => ?_, fun readable => ?_⟩
          · simp only [parseOneOidIndex, noInteger, noAddress, noSubids, noOctets,
              Bool.true_eq_false, Bool.false_eq_true, and_false, if_false]
          · simp [isReadable, kind] at readable

/-- What is taken for the indexes is what they decode to, if they are whole. -/
structure TakenAs (order : ByteOrder) (templates : List VariableList) (oid : Oid) : Prop where
  unreadable : areReadable templates oid = false → takeIndexes order templates oid = none
  readable : areReadable templates oid = true → ∃ values,
    takeIndexes order templates oid = some values ∧
      (Decodes templates oid values ↔ areWhole templates oid = true)

theorem takenAs (order : ByteOrder) {templates : List VariableList}
    (areTemplates : ∀ template ∈ templates, IsTemplate template) (oid : Oid) :
    TakenAs order templates oid := by
  induction templates generalizing oid with
  | nil =>
      refine ⟨fun unreadable => ?_, fun readable => ?_⟩
      · have more : oid ≠ [] := by simpa [areReadable] using unreadable
        rw [takeIndexes, if_neg more]
      · have last : oid = [] := by simpa [areReadable] using readable
        refine ⟨[], by rw [takeIndexes, if_pos last], ?_⟩
        simp [Decodes, areWhole, last]
  | cons template templates ih =>
      rcases List.forall_mem_cons.mp areTemplates with ⟨isTemplate, others⟩
      have rest := ih others (behindIndex template oid)
      by_cases empty : oid = []
      · refine ⟨fun _ => by rw [takeIndexes, if_pos empty], fun readable => ?_⟩
        simp [areReadable, empty] at readable
      · have first := outcome order isTemplate empty
        by_cases readableFirst : isReadable template oid = true
        · rcases first.readable readableFirst with ⟨value, parsed, parsesAs⟩
          have same : areReadable (template :: templates) oid =
              areReadable templates (behindIndex template oid) := by
            simp [areReadable, empty, readableFirst]
          refine ⟨fun unreadable => ?_, fun readable => ?_⟩
          · rw [same] at unreadable
            simp only [takeIndexes, empty, if_false, parsed, rest.unreadable unreadable,
              Option.map_none]
          · rw [same] at readable
            rcases rest.readable readable with ⟨values, taken, decodes_iff⟩
            refine ⟨value :: values, ?_, ?_⟩
            · simp only [takeIndexes, empty, if_false, parsed, taken, Option.map_some]
            · rw [areWhole, Bool.and_eq_true, ← decodes_iff]
              constructor
              · rintro ⟨segment, behind, value', values', oid_eq, values_eq, -, decodes,
                  decodesRest⟩
                rcases List.cons.inj values_eq with ⟨rfl, rfl⟩
                rcases parsesAs.of_decodes segment behind oid_eq decodes with ⟨rfl, whole⟩
                exact ⟨whole, decodesRest⟩
              · rintro ⟨whole, decodesRest⟩
                rcases parsesAs.whole whole with ⟨segment, oid_eq, decodes⟩
                exact ⟨segment, _, value, values, oid_eq, rfl, parsesAs.type_eq, decodes,
                  decodesRest⟩
        · rw [Bool.not_eq_true] at readableFirst
          refine ⟨fun _ => ?_, fun readable => ?_⟩
          · simp only [takeIndexes, empty, if_false, first.unreadable readableFirst]
          · simp [areReadable, readableFirst] at readable

end IndexDecode

end NetSnmp
