import NetSnmp.Index.Codec

/-!
# Round trips of table indexes
-/

namespace NetSnmp

variable {order : ByteOrder} {type : Byte} {var var' : VariableList} {oidIndex rest : Oid}

/-- A list of octets as a host reads it from a number that it stores. -/
def ByteOrder.inOrder {α : Type} (order : ByteOrder) (octets : List α) : List α :=
  match order with
  | .bigEndian => octets
  | .littleEndian => octets.reverse

/-- The types and values of indexes. The implied types are those of the last one. -/
inductive IsIndexValue : Byte → Vardata → Prop
  | integer {type : Byte} {value : Nat} (isInteger : isIntegerIndex type = true)
      (small : value < 2 ^ 32) : IsIndexValue type (.integer value)
  | ipaddress {octets : List Byte} (length_eq : octets.length = 4) :
      IsIndexValue asnIpaddress (.string octets)
  | string {type : Byte} {octets : List Byte} (isString : isStringIndex type = true) :
      IsIndexValue type (.string octets)
  | objid {subids : Oid} : IsIndexValue asnObjectId (.objid subids)
  | impliedString {octets : List Byte} (nonempty : octets ≠ []) :
      IsIndexValue asnPrivImpliedOctetStr (.string octets)
  | impliedObjid {subids : Oid} (nonempty : subids ≠ []) :
      IsIndexValue asnPrivImpliedObjectId (.objid subids)

def isImplied (type : Byte) : Bool :=
  type = asnPrivImpliedOctetStr || type = asnPrivImpliedObjectId

/-- Each variable has the value of an index, and only the last one is implied. -/
def IndexList : List VariableList → Prop
  | [] => True
  | var :: indexes =>
      IsIndexValue var.type var.val ∧ (isImplied var.type = true → indexes = []) ∧ IndexList indexes

def templateOf (type : Byte) : VariableList := ⟨[], type, .unset 0⟩

/-- Type and value of an index; a string that is not set is empty. -/
def indexOf (var : VariableList) : Byte × Vardata :=
  match var.val with
  | .unset _ => (var.type, .string [])
  | val => (var.type, val)

def segmentsOf (order : ByteOrder) (indexes : List VariableList) : Oid :=
  indexes.flatMap fun var => (oidSegment order var.type var.val).getD []

theorem ipaddr_octets (order : ByteOrder) {octets : List Byte} (length_eq : octets.length = 4) :
    oidSegment order asnIpaddress (.string octets) =
      some ((order.inOrder octets).map UInt8.toNat) := by
  match octets, length_eq with
  | [a, b, c, d], _ =>
      have ha := a.toNat_lt
      have hb := b.toNat_lt
      have hc := c.toNat_lt
      have hd := d.toNat_lt
      have address : oidSegment order asnIpaddress (.string [a, b, c, d]) =
          some [order.load [a, b, c, d] / 2 ^ 24 % 256, order.load [a, b, c, d] / 2 ^ 16 % 256,
            order.load [a, b, c, d] / 2 ^ 8 % 256, order.load [a, b, c, d] % 256] := rfl
      rw [address]
      cases order with
      | bigEndian =>
          simp [ByteOrder.inOrder, ByteOrder.load, lowFirstValue]
          omega
      | littleEndian =>
          simp [ByteOrder.inOrder, ByteOrder.load, lowFirstValue]
          omega

theorem store_htonl_ipaddrOfSubids (order : ByteOrder) {a b c d : Nat} (ha : a < 256) (hb : b < 256)
    (hc : c < 256) (hd : d < 256) (rest : Oid) :
    order.store 4 (htonl order (ipaddrOfSubids (a :: b :: c :: d :: rest))) =
      [a, b, c, d].map UInt8.ofNat := by
  have network : order.store 4 (htonl order (ipaddrOfSubids (a :: b :: c :: d :: rest))) =
      ByteOrder.bigEndian.store 4 (ipaddrOfSubids (a :: b :: c :: d :: rest)) := by
    cases order with
    | bigEndian => rfl
    | littleEndian => exact ByteOrder.store_littleEndian_swap 4 _
  rw [network]
  have value : ipaddrOfSubids (a :: b :: c :: d :: rest) =
      a * 2 ^ 24 + b * 2 ^ 16 + c * 2 ^ 8 + d := rfl
  have octet3 : (a * 2 ^ 24 + b * 2 ^ 16 + c * 2 ^ 8 + d) % 256 = d := by omega
  have octet2 : (a * 2 ^ 24 + b * 2 ^ 16 + c * 2 ^ 8 + d) / 256 % 256 = c := by omega
  have octet1 : (a * 2 ^ 24 + b * 2 ^ 16 + c * 2 ^ 8 + d) / 256 / 256 % 256 = b := by omega
  have octet0 : (a * 2 ^ 24 + b * 2 ^ 16 + c * 2 ^ 8 + d) / 256 / 256 / 256 % 256 = a := by omega
  simp only [ByteOrder.store, lowFirst, value, octet0, octet1, octet2, octet3]
  rfl

theorem isLong_of_isIntegerIndex (isInteger : isIntegerIndex type = true) : isLong type = true := by
  simp only [isIntegerIndex, isLong, Bool.or_eq_true, decide_eq_true_eq] at isInteger ⊢
  rcases isInteger with ((h | h) | h) | h
  all_goals simp [h]

theorem not_integer_of_isStringIndex (isString : isStringIndex type = true) :
    isIntegerIndex type = false ∧ type ≠ asnIpaddress ∧ type ≠ asnObjectId ∧
      type ≠ asnPrivImpliedObjectId ∧ type ≠ asnPrivImpliedOctetStr := by
  simp only [isStringIndex, Bool.or_eq_true, decide_eq_true_eq] at isString
  rcases isString with rfl | rfl
  all_goals decide

theorem not_other_of_isIntegerIndex (isInteger : isIntegerIndex type = true) :
    type ≠ asnIpaddress ∧ type ≠ asnObjectId ∧ type ≠ asnPrivImpliedObjectId ∧
      type ≠ asnPrivImpliedOctetStr ∧ isStringIndex type = false := by
  simp only [isIntegerIndex, Bool.or_eq_true, decide_eq_true_eq] at isInteger
  rcases isInteger with ((rfl | rfl) | rfl) | rfl
  all_goals decide

theorem setInteger_eq {subid : Nat} (isInteger : isIntegerIndex type = true)
    (small : subid < 2 ^ 32) :
    snmpSetVarTypedValue (templateOf type) type (.integer subid) =
      ⟨[], type, .integer subid⟩ := by
  have stored : snmpSetVarValue type (.integer subid) = some (.integer subid) :=
    snmpSetVarValue_long (isLong_of_isIntegerIndex isInteger) (by omega)
  rw [snmpSetVarTypedValue, stored]
  rfl

theorem setCopied_eq (val : Vardata) (copied : type = asnIpaddress ∨ type = asnObjectId ∨
      type = asnPrivImpliedObjectId) :
    snmpSetVarTypedValue (templateOf type) type val = ⟨[], type, val⟩ := by
  rcases copied with rfl | rfl | rfl
  all_goals rfl

theorem zeroFilled_append (front rest : Oid) :
    zeroFilled (front ++ rest) front.length = front := by
  have none : front.length - (front ++ rest).length = 0 := by
    rw [List.length_append]
    omega
  rw [zeroFilled, none, List.take_left, List.replicate_zero, List.append_nil]

theorem ofNat_toNat_octets (octets : List Byte) :
    (octets.map UInt8.toNat).map UInt8.ofNat = octets := by
  simp [List.map_map, Function.comp_def, UInt8.ofNat_toNat]

/-- What is parsed of the segment of an index: its value, with the octets of an address in the order
of the host. -/
def parsedIndex (order : ByteOrder) (var : VariableList) : Byte × Vardata :=
  if var.type = asnIpaddress then (var.type, .string (order.inOrder var.val.octets))
  else (var.type, var.val)

theorem announcedLen_front (var : VariableList) {front : Oid} (short : front.length ≤ maxOidLen)
    (rest : Oid) :
    announcedLen false false var (front.length :: (front ++ rest)) =
      some (front.length, front ++ rest) := by
  have small : front.length % 2 ^ 32 = front.length := by
    simp only [maxOidLen] at short
    omega
  have enough : ¬((front ++ rest).length < front.length ∧ false = false) := by
    rw [List.length_append]
    omega
  have announced : announcedLen false false var (front.length :: (front ++ rest)) =
      if (front ++ rest).length < front.length % 2 ^ 32 ∧ false = false then none
      else some (front.length % 2 ^ 32, front ++ rest) := rfl
  rw [announced, small, if_neg enough]

theorem announcedLen_implied (complete : Bool) (oidIndex : Oid) :
    announcedLen true complete (templateOf type) oidIndex = some (oidIndex.length, oidIndex) := rfl

theorem parseOneOidIndex_ipaddress (order : ByteOrder) {subids : Oid}
    (length_eq : subids.length = 4)
    (octets : ∀ subid ∈ subids, subid < 256) (rest : Oid) :
    parseOneOidIndex order false (subids ++ rest) (templateOf asnIpaddress) =
      some (⟨[], asnIpaddress, .string (subids.map UInt8.ofNat)⟩, rest) := by
  match subids, length_eq with
  | [a, b, c, d], _ =>
      simp only [List.forall_mem_cons] at octets
      obtain ⟨ha, hb, hc, hd, -⟩ := octets
      have stored := store_htonl_ipaddrOfSubids order ha hb hc hd rest
      have noInteger : isIntegerIndex asnIpaddress = false := rfl
      have inRange : ([a, b, c, d].any fun subid => decide (255 < subid)) = false := by
        simp
        omega
      have copied := setCopied_eq (.string ([a, b, c, d].map UInt8.ofNat))
        (.inl (Eq.refl asnIpaddress))
      simp only [templateOf] at copied
      simp [parseOneOidIndex, templateOf, noInteger, stored]
      refine ⟨by omega, ?_⟩
      exact copied

theorem parseOneOidIndex_string (order : ByteOrder) (isString : isStringIndex type = true ∨
      type = asnPrivImpliedOctetStr) (nonempty : oidIndex ≠ []) :
    parseOneOidIndex order false oidIndex (templateOf type) =
      match announcedLen (type = asnPrivImpliedOctetStr) false (templateOf type) oidIndex with
      | none => none
      | some (uitmp, oidIndex) =>
          if uitmp = 0 then some (templateOf type, oidIndex)
          else if maxOidLen < uitmp then none
          else
            some (⟨[], type, .string ((zeroFilled oidIndex uitmp).map UInt8.ofNat)⟩,
              oidIndex.drop uitmp) := by
  have others : isIntegerIndex type = false ∧ type ≠ asnIpaddress ∧ type ≠ asnObjectId ∧
      type ≠ asnPrivImpliedObjectId := by
    rcases isString with isString | rfl
    · have others := not_integer_of_isStringIndex isString
      exact ⟨others.1, others.2.1, others.2.2.1, others.2.2.2.1⟩
    · decide
  have length_ne : oidIndex.length ≠ 0 := by simpa using nonempty
  simp [parseOneOidIndex, templateOf, others, isString, length_ne]
  rfl

theorem parseOneOidIndex_objid (order : ByteOrder) (isObjid : type = asnObjectId ∨ type =
    asnPrivImpliedObjectId)
    (nonempty : oidIndex ≠ []) :
    parseOneOidIndex order false oidIndex (templateOf type) =
      match announcedLen (type = asnPrivImpliedObjectId) false (templateOf type) oidIndex with
      | none => none
      | some (uitmp, oidIndex) =>
          if maxOidLen < uitmp then none
          else some (⟨[], type, .objid (zeroFilled oidIndex uitmp)⟩, oidIndex.drop uitmp) := by
  have others : isIntegerIndex type = false ∧ type ≠ asnIpaddress := by
    rcases isObjid with rfl | rfl
    all_goals decide
  have length_ne : oidIndex.length ≠ 0 := by simpa using nonempty
  have copied (val : Vardata) := setCopied_eq val (.inr isObjid)
  simp only [templateOf] at copied
  simp [parseOneOidIndex, templateOf, others, isObjid, length_ne, copied]
  rfl

theorem parseOneOidIndex_segment {segment : Oid} (value : IsIndexValue var.type var.val)
    (built : oidSegment order var.type var.val = some segment) (short : segment.length ≤ maxOidLen)
    (last : isImplied var.type = true → rest = []) :
    ∃ parsed, parseOneOidIndex order false (segment ++ rest) (templateOf var.type) =
        some (parsed, rest) ∧ parsed.type = var.type ∧ indexOf parsed = parsedIndex order var := by
  rcases var with ⟨name, type, val⟩
  simp only at value built last ⊢
  cases value with
  | @integer type value isInteger small =>
      have others := not_other_of_isIntegerIndex isInteger
      have segment_eq : segment = [value] := by
        simp only [oidSegment, isInteger, if_true, Vardata.integerSubid, Option.some.injEq] at built
        rw [← built, toSizeT]
        simp only [List.cons.injEq, and_true]
        omega
      subst segment_eq
      refine ⟨⟨[], type, .integer value⟩, ?_, rfl, ?_⟩
      · have parsed := setInteger_eq isInteger small
        simp [parseOneOidIndex, templateOf, isInteger] at parsed ⊢
        exact parsed
      · simp [indexOf, parsedIndex, others]
  | @ipaddress octets length_eq =>
      rw [ipaddr_octets order length_eq, Option.some.injEq] at built
      subst built
      have length : ((order.inOrder octets).map UInt8.toNat).length = 4 := by
        cases order with
        | bigEndian => simp [ByteOrder.inOrder, length_eq]
        | littleEndian => simp [ByteOrder.inOrder, length_eq]
      have inRange : ∀ subid ∈ (order.inOrder octets).map UInt8.toNat, subid < 256 := by
        intro subid mem
        obtain ⟨octet, -, rfl⟩ := List.mem_map.mp mem
        exact octet.toNat_lt
      refine ⟨_, parseOneOidIndex_ipaddress order length inRange rest, rfl, ?_⟩
      rw [ofNat_toNat_octets]
      rfl
  | @string type octets isString =>
      have others := not_integer_of_isStringIndex isString
      have segment_eq : octets.length :: octets.map UInt8.toNat = segment := by
        simpa [oidSegment, others, isString, Vardata.octets] using built
      subst segment_eq
      have fits : (octets.map UInt8.toNat).length ≤ maxOidLen := by
        simp only [List.length_cons] at short
        omega
      have notImplied : decide (type = asnPrivImpliedOctetStr) = false := by simp [others]
      have parsed := parseOneOidIndex_string order (.inl isString)
        (List.cons_ne_nil octets.length (octets.map UInt8.toNat ++ rest))
      have announced := announcedLen_front (templateOf type) fits rest
      have filled := zeroFilled_append (octets.map UInt8.toNat) rest
      rw [List.length_map] at announced fits filled
      simp only [notImplied, announced, filled, ofNat_toNat_octets, Nat.not_lt.mpr fits,
        if_false] at parsed
      by_cases empty : octets = []
      · subst empty
        exact ⟨templateOf type, parsed, rfl, by simp [indexOf, templateOf, parsedIndex, others]⟩
      · have dropped : (octets.map UInt8.toNat ++ rest).drop octets.length = rest :=
          List.drop_left' (by simp)
        rw [if_neg (by simpa using empty), dropped] at parsed
        exact ⟨_, parsed, rfl, by simp [indexOf, parsedIndex, others]⟩
  | @objid subids =>
      have segment_eq : subids.length :: subids = segment := Option.some.inj built
      subst segment_eq
      have fits : subids.length ≤ maxOidLen := by
        simp only [List.length_cons] at short
        omega
      have parsed := parseOneOidIndex_objid order (.inl (Eq.refl asnObjectId))
        (List.cons_ne_nil subids.length (subids ++ rest))
      have announced := announcedLen_front (templateOf asnObjectId) fits rest
      have filled := zeroFilled_append subids rest
      have notImplied : decide (asnObjectId = asnPrivImpliedObjectId) = false := rfl
      simp only [notImplied, announced, filled, Nat.not_lt.mpr fits, if_false, List.drop_left]
        at parsed
      exact ⟨_, parsed, rfl, rfl⟩
  | @impliedString octets nonempty =>
      have segment_eq : octets.map UInt8.toNat = segment := Option.some.inj built
      have rest_eq := last rfl
      subst segment_eq rest_eq
      rw [List.length_map] at short
      have parsed := parseOneOidIndex_string order (.inr (Eq.refl asnPrivImpliedOctetStr))
        (show octets.map UInt8.toNat ≠ [] by simpa using nonempty)
      have filled := zeroFilled_append (octets.map UInt8.toNat) []
      have length_ne : octets.length ≠ 0 := by simpa using nonempty
      rw [List.append_nil] at filled ⊢
      simp only [decide_true, announcedLen_implied, filled, ofNat_toNat_octets] at parsed
      simp only [List.length_map, length_ne, Nat.not_lt.mpr short, if_false] at parsed
      rw [List.drop_of_length_le (by simp)] at parsed
      exact ⟨_, parsed, rfl, rfl⟩
  | @impliedObjid subids nonempty =>
      have segment_eq : subids = segment := Option.some.inj built
      have rest_eq := last rfl
      subst segment_eq rest_eq
      have parsed := parseOneOidIndex_objid order
        (.inr (Eq.refl asnPrivImpliedObjectId)) nonempty
      have filled := zeroFilled_append subids []
      rw [List.append_nil] at filled ⊢
      simp only [decide_true, announcedLen_implied, filled, Nat.not_lt.mpr short, if_false,
        List.drop_length] at parsed
      exact ⟨_, parsed, rfl, rfl⟩

theorem oidSegment_ne_nil (order : ByteOrder) (value : IsIndexValue var.type var.val) :
    ∃ segment, oidSegment order var.type var.val = some segment ∧ segment ≠ [] := by
  rcases var with ⟨name, type, val⟩
  simp only at value ⊢
  cases value with
  | @integer type value isInteger small => simp [oidSegment, isInteger]
  | @ipaddress octets length_eq => exact ⟨_, rfl, List.cons_ne_nil _ _⟩
  | @string type octets isString =>
      have others := not_integer_of_isStringIndex isString
      simp [oidSegment, others, isString]
  | @objid subids => exact ⟨_, rfl, List.cons_ne_nil _ _⟩
  | @impliedString octets nonempty => exact ⟨_, rfl, by simpa [Vardata.octets] using nonempty⟩
  | @impliedObjid subids nonempty => exact ⟨_, rfl, nonempty⟩

theorem appendSegments_eq {inLen : Nat} {out oid : Oid} {indexes : List VariableList}
    (built : appendSegments order inLen out indexes = some oid) :
    oid = out ++ segmentsOf order indexes := by
  induction indexes generalizing out with
  | nil => simpa [appendSegments, segmentsOf] using built.symm
  | cons var indexes ih =>
      rw [appendSegments] at built
      cases segment_eq : oidSegment order var.type var.val with
      | none => simp [buildOidSegment, segment_eq] at built
      | some segment =>
          by_cases long : maxOidLen < segment.length
          · simp [buildOidSegment, segment_eq, long] at built
          · simp only [buildOidSegment, segment_eq, long, if_false] at built
            split at built
            · rw [ih built]
              simp [segmentsOf, segment_eq]
            · cases built

theorem appendSegments_of_fits {inLen : Nat} {out : Oid} {indexes : List VariableList}
    (values : IndexList indexes) (fits : (out ++ segmentsOf order indexes).length ≤ inLen)
    (short : inLen ≤ maxOidLen) :
    appendSegments order inLen out indexes = some (out ++ segmentsOf order indexes) := by
  induction indexes generalizing out with
  | nil => simp [appendSegments, segmentsOf]
  | cons var indexes ih =>
      obtain ⟨value, -, values⟩ := values
      obtain ⟨segment, segment_eq, -⟩ := oidSegment_ne_nil order value
      have segments : segmentsOf order (var :: indexes) = segment ++ segmentsOf order indexes := by
        simp [segmentsOf, segment_eq]
      rw [segments, ← List.append_assoc] at fits ⊢
      have lengths := fits
      simp only [List.length_append] at lengths
      have notLong : ¬maxOidLen < segment.length := by omega
      have built : buildOidSegment order var = some segment := by
        simp [buildOidSegment, segment_eq, notLong]
      have room : segment.length + out.length ≤ inLen := by omega
      simp only [appendSegments, built, room, if_true]
      exact ih values fits

theorem parseOidIndexes_segmentsOf {indexes : List VariableList} (values : IndexList indexes)
    (short : (segmentsOf order indexes).length ≤ maxOidLen) :
    ∃ parsed, parseOidIndexes order (segmentsOf order indexes)
        (indexes.map fun var => templateOf var.type) = some parsed ∧
      parsed.map indexOf = indexes.map (parsedIndex order) := by
  induction indexes with
  | nil => exact ⟨[], rfl, rfl⟩
  | cons var indexes ih =>
      obtain ⟨value, last, values⟩ := values
      obtain ⟨segment, segment_eq, nonempty⟩ := oidSegment_ne_nil order value
      have segments : segmentsOf order (var :: indexes) = segment ++ segmentsOf order indexes := by
        simp [segmentsOf, segment_eq]
      rw [segments] at short ⊢
      have lengths := short
      rw [List.length_append] at lengths
      have noRest (implied : isImplied var.type = true) : segmentsOf order indexes = [] := by
        rw [last implied]
        rfl
      obtain ⟨parsed, parsed_eq, -, index_eq⟩ :=
        parseOneOidIndex_segment value segment_eq (by omega) noRest
      obtain ⟨others, others_eq, indexes_eq⟩ := ih values (by omega)
      have length_ne : (segment ++ segmentsOf order indexes).length ≠ 0 := by simp [nonempty]
      refine ⟨parsed :: others, ?_, ?_⟩
      · simp only [List.map_cons, parseOidIndexes, length_ne, if_false, parsed_eq, others_eq]
        rfl
      · simp [index_eq, indexes_eq]

def consumedLen (type : Byte) (oidIndex : Oid) : Nat :=
  if isIntegerIndex type then 1
  else if type = asnIpaddress then 4
  else if isImplied type then oidIndex.length
  else oidIndex.headD 0 + 1

/-- The first index is built as it stands: an address reads the same in both orders on a host with
the least significant byte first, the octets of a string are no larger than octets, and there is
room for the length in front. -/
def indexFits (order : ByteOrder) (type : Byte) (oidIndex : Oid) : Bool :=
  if type = asnIpaddress then
    decide (order = .bigEndian) || decide ((oidIndex.take 4).reverse = oidIndex.take 4)
  else if type = asnPrivImpliedOctetStr then oidIndex.all fun subid => decide (subid ≤ 255)
  else if isStringIndex type then
    decide (oidIndex.headD 0 < maxOidLen) &&
      ((oidIndex.drop 1).take (oidIndex.headD 0)).all fun subid => decide (subid ≤ 255)
  else if type = asnObjectId then decide (oidIndex.headD 0 < maxOidLen)
  else true

def indexesFit (order : ByteOrder) : List Byte → Oid → Bool
  | [], _ => true
  | type :: types, oidIndex =>
      indexFits order type oidIndex &&
        indexesFit order types (oidIndex.drop (consumedLen type oidIndex))

theorem toNat_ofNat_eq_iff (subids : Oid) :
    (subids.map UInt8.ofNat).map UInt8.toNat = subids ↔
      (subids.all fun subid => decide (subid ≤ 255)) = true := by
  induction subids with
  | nil => simp
  | cons subid subids ih =>
      have first : subid % 256 = subid ↔ subid ≤ 255 := by omega
      simp only [List.map_cons, List.cons.injEq, ih, List.all_cons, Bool.and_eq_true,
        decide_eq_true_eq, UInt8.toNat_ofNat', first]

/-- What is built of the first index that was parsed: as many sub-identifiers as it took. -/
structure BuiltAgain (order : ByteOrder) (type : Byte) (oidIndex : Oid) (var : VariableList)
    (rest segment : Oid) : Prop where
  segment_eq : oidSegment order var.type var.val = some segment
  enough : consumedLen type oidIndex ≤ oidIndex.length
  rest_eq : rest = oidIndex.drop (consumedLen type oidIndex)
  length_eq : segment.length = consumedLen type oidIndex
  fits_iff : segment = oidIndex.take (consumedLen type oidIndex) ∧ segment.length ≤ maxOidLen ↔
    indexFits order type oidIndex = true

theorem inOrder_eq_iff {α : Type} {list : List α} :
    order.inOrder list = list ↔ order = .bigEndian ∨ list.reverse = list := by
  cases order with
  | bigEndian => simp [ByteOrder.inOrder]
  | littleEndian => simp [ByteOrder.inOrder]

theorem builtAgain_integer (isInteger : isIntegerIndex type = true)
    (small : ∀ subid ∈ oidIndex, subid < 2 ^ 32)
    (parsed : parseOneOidIndex order false oidIndex (templateOf type) = some (var, rest)) :
    ∃ segment, BuiltAgain order type oidIndex var rest segment := by
  have others := not_other_of_isIntegerIndex isInteger
  cases oidIndex with
  | nil => simp [parseOneOidIndex] at parsed
  | cons subid oidIndex =>
      have subid_small := small subid List.mem_cons_self
      have stored := setInteger_eq isInteger subid_small
      simp [templateOf] at stored
      simp [parseOneOidIndex, templateOf, isInteger, stored] at parsed
      obtain ⟨rfl, rfl⟩ := parsed
      have same : subid % 2 ^ 64 = subid := by omega
      refine ⟨[subid], ?_, ?_, ?_, ?_, ?_⟩
      · simp [oidSegment, isInteger, Vardata.integerSubid, toSizeT]
        omega
      · simp [consumedLen, isInteger]
      · simp [consumedLen, isInteger]
      · simp [consumedLen, isInteger]
      · simp [consumedLen, isInteger, indexFits, others, maxOidLen]

theorem builtAgain_ipaddress
    (parsed : parseOneOidIndex order false oidIndex (templateOf asnIpaddress) = some (var, rest)) :
    ∃ segment, BuiltAgain order asnIpaddress oidIndex var rest segment := by
  have four : ∃ a b c d tail, oidIndex = a :: b :: c :: d :: tail ∧ a < 256 ∧ b < 256 ∧ c < 256 ∧
      d < 256 := by
    have noInteger : isIntegerIndex asnIpaddress = false := rfl
    match oidIndex with
    | [] => simp [parseOneOidIndex] at parsed
    | [_] => simp [parseOneOidIndex, templateOf, noInteger] at parsed
    | [_, _] => simp [parseOneOidIndex, templateOf, noInteger] at parsed
    | [_, _, _] => simp [parseOneOidIndex, templateOf, noInteger] at parsed
    | a :: b :: c :: d :: tail =>
        refine ⟨a, b, c, d, tail, rfl, ?_⟩
        by_contra large
        have outside : (List.take 4 (a :: b :: c :: d :: tail)).any
            (fun subid => decide (255 < subid)) = true := by
          simp
          omega
        simp only [parseOneOidIndex, templateOf, noInteger, outside] at parsed
        simp at parsed
  obtain ⟨a, b, c, d, tail, rfl, ha, hb, hc, hd⟩ := four
  have octets : ∀ subid ∈ [a, b, c, d], subid < 256 := by simp [ha, hb, hc, hd]
  have known := parseOneOidIndex_ipaddress order (Eq.refl [a, b, c, d].length) octets tail
  simp only [List.cons_append, List.nil_append] at known
  rw [known] at parsed
  obtain ⟨rfl, rfl⟩ := Prod.mk.inj (Option.some.inj parsed)
  have back : (order.inOrder ([a, b, c, d].map UInt8.ofNat)).map UInt8.toNat =
      order.inOrder [a, b, c, d] := by
    have small : ([a, b, c, d].all fun subid => decide (subid ≤ 255)) = true := by
      simp
      omega
    have same := (toNat_ofNat_eq_iff _).mpr small
    cases order with
    | bigEndian => exact same
    | littleEndian =>
        simp only [ByteOrder.inOrder]
        rw [List.map_reverse, same]
  have taken : (a :: b :: c :: d :: tail).take 4 = [a, b, c, d] := rfl
  refine ⟨order.inOrder [a, b, c, d], ?_, ?_, rfl, ?_, ?_⟩
  · rw [ipaddr_octets order (by simp), back]
  · exact Nat.le_add_left 4 tail.length
  · cases order with
    | bigEndian => rfl
    | littleEndian => rfl
  · have consumed : consumedLen asnIpaddress (a :: b :: c :: d :: tail) = 4 := rfl
    have short : (order.inOrder [a, b, c, d]).length ≤ maxOidLen := by
      cases order with
      | bigEndian => simp [ByteOrder.inOrder, maxOidLen]
      | littleEndian => simp [ByteOrder.inOrder, maxOidLen]
    rw [consumed, taken, inOrder_eq_iff]
    simp [indexFits, short]

theorem announcedLen_false_eq {uitmp : Nat} (small : ∀ subid ∈ oidIndex, subid < 2 ^ 32)
    (nonempty : oidIndex ≠ [])
    (announced : announcedLen false false var oidIndex = some (uitmp, rest)) :
    oidIndex = uitmp :: rest ∧ uitmp ≤ rest.length := by
  cases oidIndex with
  | nil => exact absurd rfl nonempty
  | cons len oidIndex =>
      have len_small := small len List.mem_cons_self
      have len_eq : len % 2 ^ 32 = len := Nat.mod_eq_of_lt len_small
      simp only [announcedLen, Bool.false_eq_true, if_false, len_eq] at announced
      split at announced
      · cases announced
      · rename_i few
        obtain ⟨rfl, rfl⟩ := Prod.mk.inj (Option.some.inj announced)
        exact ⟨rfl, by simpa using few⟩

theorem zeroFilled_of_le {count : Nat} (enough : count ≤ oidIndex.length) :
    zeroFilled oidIndex count = oidIndex.take count := by
  have none : count - oidIndex.length = 0 := by omega
  rw [zeroFilled, none, List.replicate_zero, List.append_nil]

theorem builtAgain_string (isString : isStringIndex type = true)
    (small : ∀ subid ∈ oidIndex, subid < 2 ^ 32) (nonempty : oidIndex ≠ [])
    (parsed : parseOneOidIndex order false oidIndex (templateOf type) = some (var, rest)) :
    ∃ segment, BuiltAgain order type oidIndex var rest segment := by
  have others := not_integer_of_isStringIndex isString
  have notImplied : decide (type = asnPrivImpliedOctetStr) = false := by simp [others]
  rw [parseOneOidIndex_string order (.inl isString) nonempty, notImplied] at parsed
  cases announced_eq : announcedLen false false (templateOf type) oidIndex with
  | none => simp [announced_eq] at parsed
  | some announced =>
      obtain ⟨uitmp, tail⟩ := announced
      obtain ⟨rfl, enough⟩ := announcedLen_false_eq small nonempty announced_eq
      simp only [announced_eq, zeroFilled_of_le enough] at parsed
      have consumed : consumedLen type (uitmp :: tail) = uitmp + 1 := by
        simp [consumedLen, others, isImplied]
      have fits : indexFits order type (uitmp :: tail) =
          (decide (uitmp < maxOidLen) &&
            (tail.take uitmp).all fun subid => decide (subid ≤ 255)) := by
        simp [indexFits, others, isString]
      have room : uitmp + 1 ≤ maxOidLen ↔ uitmp < maxOidLen := Nat.succ_le_iff
      have built : ∃ octets, var.val.octets = octets.map UInt8.ofNat ∧ var.type = type ∧
          octets = tail.take uitmp ∧ rest = tail.drop uitmp := by
        split at parsed
        · rename_i zero
          obtain ⟨rfl, rfl⟩ := Prod.mk.inj (Option.some.inj parsed)
          exact ⟨[], rfl, rfl, by simp [zero], by simp [zero]⟩
        · split at parsed
          · cases parsed
          · obtain ⟨rfl, rfl⟩ := Prod.mk.inj (Option.some.inj parsed)
            exact ⟨_, rfl, rfl, rfl, rfl⟩
      obtain ⟨octets, octets_eq, rfl, rfl, rfl⟩ := built
      have taken_length : (tail.take uitmp).length = uitmp := by
        rw [List.length_take]
        omega
      refine ⟨uitmp :: ((tail.take uitmp).map UInt8.ofNat).map UInt8.toNat, ?_, ?_, ?_, ?_, ?_⟩
      · simp [oidSegment, others, isString, octets_eq, enough]
      · rw [consumed, List.length_cons]
        omega
      · rw [consumed, List.drop_succ_cons]
      · simp [consumed, enough]
      · rw [consumed, fits, List.take_succ_cons, List.cons.injEq, toNat_ofNat_eq_iff]
        simp [enough, room, and_comm]

theorem builtAgain_objid (small : ∀ subid ∈ oidIndex, subid < 2 ^ 32) (nonempty : oidIndex ≠ [])
    (parsed : parseOneOidIndex order false oidIndex (templateOf asnObjectId) = some (var, rest)) :
    ∃ segment, BuiltAgain order asnObjectId oidIndex var rest segment := by
  have notImplied : decide (asnObjectId = asnPrivImpliedObjectId) = false := rfl
  rw [parseOneOidIndex_objid order (.inl rfl) nonempty, notImplied] at parsed
  cases announced_eq : announcedLen false false (templateOf asnObjectId) oidIndex with
  | none => simp [announced_eq] at parsed
  | some announced =>
      obtain ⟨uitmp, tail⟩ := announced
      obtain ⟨rfl, enough⟩ := announcedLen_false_eq small nonempty announced_eq
      simp only [announced_eq, zeroFilled_of_le enough] at parsed
      split at parsed
      · cases parsed
      · obtain ⟨rfl, rfl⟩ := Prod.mk.inj (Option.some.inj parsed)
        have consumed : consumedLen asnObjectId (uitmp :: tail) = uitmp + 1 := rfl
        have fits : indexFits order asnObjectId (uitmp :: tail) = decide (uitmp < maxOidLen) := rfl
        have taken_length : (tail.take uitmp).length = uitmp := by
          rw [List.length_take]
          omega
        refine ⟨uitmp :: tail.take uitmp, ?_, ?_, ?_, ?_, ?_⟩
        · have built : oidSegment order asnObjectId (.objid (tail.take uitmp)) =
              some ((tail.take uitmp).length :: tail.take uitmp) := rfl
          rw [built, taken_length]
        · rw [consumed, List.length_cons]
          omega
        · rw [consumed, List.drop_succ_cons]
        · rw [consumed, List.length_cons, taken_length]
        · rw [consumed, fits, List.take_succ_cons, List.length_cons, taken_length]
          simp

theorem builtAgain_impliedString (nonempty : oidIndex ≠ [])
    (parsed : parseOneOidIndex order false oidIndex (templateOf asnPrivImpliedOctetStr) =
      some (var, rest)) :
    ∃ segment, BuiltAgain order asnPrivImpliedOctetStr oidIndex var rest segment := by
  have length_ne : oidIndex.length ≠ 0 := by simpa using nonempty
  rw [parseOneOidIndex_string order (.inr rfl) nonempty] at parsed
  simp only [decide_true, announcedLen_implied, length_ne, if_false,
    zeroFilled_of_le (Nat.le_refl _), List.take_length, List.drop_length] at parsed
  split at parsed
  · cases parsed
  · rename_i short
    obtain ⟨rfl, rfl⟩ := Prod.mk.inj (Option.some.inj parsed)
    have consumed : consumedLen asnPrivImpliedOctetStr oidIndex = oidIndex.length := rfl
    refine ⟨(oidIndex.map UInt8.ofNat).map UInt8.toNat, rfl, ?_, ?_, ?_, ?_⟩
    · rw [consumed]
    · rw [consumed, List.drop_length]
    · rw [consumed, List.length_map, List.length_map]
    · rw [consumed, List.take_length, toNat_ofNat_eq_iff, List.length_map, List.length_map]
      have fits : indexFits order asnPrivImpliedOctetStr oidIndex =
          oidIndex.all fun subid => decide (subid ≤ 255) := rfl
      rw [fits]
      exact and_iff_left (by omega)

theorem builtAgain_impliedObjid (nonempty : oidIndex ≠ [])
    (parsed : parseOneOidIndex order false oidIndex (templateOf asnPrivImpliedObjectId) =
      some (var, rest)) :
    ∃ segment, BuiltAgain order asnPrivImpliedObjectId oidIndex var rest segment := by
  rw [parseOneOidIndex_objid order (.inr rfl) nonempty] at parsed
  simp only [decide_true, announcedLen_implied, zeroFilled_of_le (Nat.le_refl _), List.take_length,
    List.drop_length] at parsed
  split at parsed
  · cases parsed
  · rename_i short
    obtain ⟨rfl, rfl⟩ := Prod.mk.inj (Option.some.inj parsed)
    have consumed : consumedLen asnPrivImpliedObjectId oidIndex = oidIndex.length := rfl
    have fits : indexFits order asnPrivImpliedObjectId oidIndex = true := rfl
    refine ⟨oidIndex, rfl, ?_, ?_, ?_, ?_⟩
    · rw [consumed]
    · rw [consumed, List.drop_length]
    · rw [consumed]
    · rw [consumed, List.take_length, fits]
      exact iff_of_true ⟨rfl, by omega⟩ rfl

theorem builtAgain (small : ∀ subid ∈ oidIndex, subid < 2 ^ 32) (nonempty : oidIndex ≠ [])
    (parsed : parseOneOidIndex order false oidIndex (templateOf type) = some (var, rest)) :
    ∃ segment, BuiltAgain order type oidIndex var rest segment := by
  by_cases isInteger : isIntegerIndex type = true
  · exact builtAgain_integer isInteger small parsed
  by_cases ipaddress : type = asnIpaddress
  · subst ipaddress
    exact builtAgain_ipaddress parsed
  by_cases objid : type = asnObjectId
  · subst objid
    exact builtAgain_objid small nonempty parsed
  by_cases impliedObjid : type = asnPrivImpliedObjectId
  · subst impliedObjid
    exact builtAgain_impliedObjid nonempty parsed
  by_cases impliedString : type = asnPrivImpliedOctetStr
  · subst impliedString
    exact builtAgain_impliedString nonempty parsed
  by_cases isString : isStringIndex type = true
  · exact builtAgain_string isString small nonempty parsed
  -- no index has any other type
  simp [parseOneOidIndex, templateOf, isInteger, ipaddress, objid, impliedObjid, impliedString,
    isString] at parsed

theorem appendSegments_parsed_iff {inLen : Nat} (out : Oid) {types : List Byte}
    {indexes : List VariableList} (small : ∀ subid ∈ oidIndex, subid < 2 ^ 32)
    (room : (out ++ oidIndex).length ≤ inLen)
    (parsed : parseOidIndexes order oidIndex (types.map templateOf) = some indexes) :
    appendSegments order inLen out indexes = some (out ++ oidIndex) ↔
      indexesFit order types oidIndex = true := by
  induction types generalizing oidIndex out indexes with
  | nil =>
      cases oidIndex with
      | nil =>
          obtain rfl := Option.some.inj parsed
          simp [appendSegments, indexesFit]
      | cons subid oidIndex => simp [parseOidIndexes] at parsed
  | cons type types ih =>
      by_cases nonempty : oidIndex = []
      · simp [parseOidIndexes, nonempty] at parsed
      have length_ne : oidIndex.length ≠ 0 := by simpa using nonempty
      simp only [List.map_cons, parseOidIndexes, length_ne, if_false] at parsed
      cases first_eq : parseOneOidIndex order false oidIndex (templateOf type) with
      | none => simp [first_eq] at parsed
      | some first =>
          obtain ⟨var, rest⟩ := first
          simp only [first_eq, Option.map_eq_some_iff] at parsed
          obtain ⟨others, parsed, rfl⟩ := parsed
          obtain ⟨segment, again⟩ := builtAgain small nonempty first_eq
          have consumed := List.take_append_drop (consumedLen type oidIndex) oidIndex
          rw [← again.rest_eq] at consumed
          have smallRest : ∀ subid ∈ rest, subid < 2 ^ 32 := by
            intro subid mem
            rw [again.rest_eq] at mem
            exact small subid (List.mem_of_mem_drop mem)
          have lengths : segment.length + rest.length = oidIndex.length := by
            have enough := again.enough
            rw [again.length_eq, again.rest_eq, List.length_drop]
            omega
          rw [List.length_append] at room
          have fits : indexesFit order (type :: types) oidIndex = true ↔
              indexFits order type oidIndex = true ∧ indexesFit order types rest = true := by
            rw [indexesFit, ← again.rest_eq, Bool.and_eq_true]
          rw [fits, ← again.fits_iff]
          by_cases long : maxOidLen < segment.length
          · have notBuilt : buildOidSegment order var = none := by
              simp [buildOidSegment, again.segment_eq, long]
            simp [appendSegments, notBuilt, Nat.not_le.mpr long]
          · have built : buildOidSegment order var = some segment := by
              simp [buildOidSegment, again.segment_eq, long]
            have roomSegment : segment.length + out.length ≤ inLen := by omega
            have roomRest : ((out ++ segment) ++ rest).length ≤ inLen := by
              simp only [List.length_append]
              omega
            simp only [appendSegments, built, roomSegment, if_true]
            constructor
            · intro appended
              -- what is appended is as long as what was taken
              have whole := appendSegments_eq appended
              rw [← consumed, List.append_assoc, List.append_cancel_left_eq] at whole
              have taken_length : (oidIndex.take (consumedLen type oidIndex)).length =
                  segment.length := by
                rw [List.length_take, again.length_eq, Nat.min_eq_left again.enough]
              obtain ⟨same, -⟩ := List.append_inj whole taken_length
              rw [← consumed, same, ← List.append_assoc] at appended
              exact ⟨⟨same.symm, by omega⟩, (ih _ smallRest roomRest parsed).mp appended⟩
            · rintro ⟨⟨same, -⟩, restFits⟩
              rw [(ih _ smallRest roomRest parsed).mpr restFits, same, List.append_assoc, consumed]

theorem oidSegment_indexOf (order : ByteOrder) (var : VariableList) :
    oidSegment order (indexOf var).1 (indexOf var).2 = oidSegment order var.type var.val := by
  rcases var with ⟨name, type, val⟩
  cases val with
  | unset valLen => rfl
  | string octets => rfl
  | objid subids => rfl
  | integer value => rfl
  | counter64 high low => rfl
  | floatVal value => rfl
  | doubleVal value => rfl

theorem segmentsOf_congr {indexes indexes' : List VariableList}
    (same : indexes.map indexOf = indexes'.map indexOf) :
    segmentsOf order indexes = segmentsOf order indexes' := by
  have byIndex (indexes : List VariableList) : segmentsOf order indexes =
      (indexes.map indexOf).flatMap fun index => (oidSegment order index.1 index.2).getD [] := by
    simp [segmentsOf, List.flatMap_map, oidSegment_indexOf]
  rw [byIndex, byIndex, same]

/-- The values are read back from the sub-identifiers, and an address is written octet by octet. -/
def ValuesComeBack (order : ByteOrder) (indexes : List VariableList) : Prop :=
  ∃ oid parsed, buildOidNoalloc order maxOidLen [] indexes = some oid ∧
    parseOidIndexes order oid (indexes.map fun var => templateOf var.type) = some parsed ∧
    parsed.map indexOf = indexes.map indexOf ∧
    ∀ var ∈ indexes, var.type = asnIpaddress →
      buildOidSegment order var = some (var.val.octets.map UInt8.toNat)

/-- The sub-identifiers are built again from the values. -/
def SubidsComeBack (order : ByteOrder) (types : List Byte) (oid : Oid) : Prop :=
  ∀ indexes inLen, parseOidIndexes order oid (types.map templateOf) = some indexes →
    oid.length ≤ inLen → buildOidNoalloc order inLen [] indexes = some oid

theorem ipaddress_octets {octets : Vardata} (value : IsIndexValue asnIpaddress octets) :
    ∃ address : List Byte, octets = .string address ∧ address.length = 4 := by
  cases value with
  | integer isInteger small => cases isInteger
  | ipaddress length_eq => exact ⟨_, rfl, length_eq⟩
  | string isString => cases isString

theorem parsedIndex_eq_iff (value : IsIndexValue var.type var.val) :
    parsedIndex order var = indexOf var ↔
      (var.type = asnIpaddress → order.inOrder var.val.octets = var.val.octets) := by
  rcases var with ⟨name, type, val⟩
  by_cases ipaddress : type = asnIpaddress
  · subst ipaddress
    obtain ⟨address, rfl, -⟩ := ipaddress_octets value
    simp [parsedIndex, indexOf, Vardata.octets]
  · have set : indexOf ⟨name, type, val⟩ = (type, val) := by
      cases value <;> rfl
    simp [parsedIndex, ipaddress, set]

theorem isIndexValue_of_mem {indexes : List VariableList} (values : IndexList indexes)
    (mem : var ∈ indexes) : IsIndexValue var.type var.val := by
  induction indexes with
  | nil => cases mem
  | cons first indexes ih =>
      obtain ⟨value, -, values⟩ := values
      rcases List.mem_cons.mp mem with rfl | mem
      · exact value
      · exact ih values mem

theorem valuesComeBack_iff {indexes : List VariableList} (values : IndexList indexes)
    (short : (segmentsOf order indexes).length ≤ maxOidLen) :
    ValuesComeBack order indexes ↔ order = .bigEndian ∨
      ∀ var ∈ indexes, var.type = asnIpaddress → var.val.octets.reverse = var.val.octets := by
  have built : buildOidNoalloc order maxOidLen [] indexes = some (segmentsOf order indexes) :=
    appendSegments_of_fits values short (Nat.le_refl _)
  obtain ⟨parsed, parsed_eq, index_eq⟩ := parseOidIndexes_segmentsOf values short
  have inOrder_iff : (order = .bigEndian ∨
      ∀ var ∈ indexes, var.type = asnIpaddress → var.val.octets.reverse = var.val.octets) ↔
        ∀ var ∈ indexes, var.type = asnIpaddress →
          order.inOrder var.val.octets = var.val.octets := by
    cases order with
    | bigEndian => simp [ByteOrder.inOrder]
    | littleEndian => simp [ByteOrder.inOrder]
  rw [inOrder_iff]
  constructor
  · rintro ⟨oid, parsed', built', parsed_eq', same, -⟩
    obtain rfl := Option.some.inj (built.symm.trans built')
    obtain rfl := Option.some.inj (parsed_eq.symm.trans parsed_eq')
    rw [index_eq] at same
    intro var mem
    apply (parsedIndex_eq_iff (isIndexValue_of_mem values mem)).mp
    exact List.map_inj_left.mp same var mem
  · intro inOrder
    refine ⟨_, parsed, built, parsed_eq, ?_, ?_⟩
    · rw [index_eq]
      apply List.map_inj_left.mpr
      intro var mem
      exact (parsedIndex_eq_iff (isIndexValue_of_mem values mem)).mpr (inOrder var mem)
    · intro var mem ipaddress
      have value := isIndexValue_of_mem values mem
      have sameOrder := inOrder var mem ipaddress
      rcases var with ⟨name, type, val⟩
      simp only at ipaddress
      subst ipaddress
      obtain ⟨address, rfl, length_eq⟩ := ipaddress_octets value
      have segment := ipaddr_octets order length_eq
      have octets : order.inOrder address = address := sameOrder
      rw [octets] at segment
      have notLong : ¬maxOidLen < address.length := by simp [length_eq, maxOidLen]
      simp [buildOidSegment, segment, notLong, Vardata.octets]

theorem subidsComeBack_iff {types : List Byte} {oid : Oid} {indexes : List VariableList}
    (small : ∀ subid ∈ oid, subid < 2 ^ 32)
    (parsed : parseOidIndexes order oid (types.map templateOf) = some indexes) :
    SubidsComeBack order types oid ↔ indexesFit order types oid = true := by
  constructor
  · intro comesBack
    have built := comesBack indexes oid.length parsed (Nat.le_refl _)
    exact (appendSegments_parsed_iff [] small (Nat.le_refl _) parsed).mp built
  · intro fits indexes' inLen parsed' room
    obtain rfl := Option.some.inj (parsed.symm.trans parsed')
    exact (appendSegments_parsed_iff [] small room parsed).mpr fits

theorem subids_unique {types types' : List Byte} {oid oid' : Oid}
    {indexes indexes' : List VariableList}
    (parsed : parseOidIndexes order oid (types.map templateOf) = some indexes)
    (parsed' : parseOidIndexes order oid' (types'.map templateOf) = some indexes')
    (comesBack : SubidsComeBack order types oid) (comesBack' : SubidsComeBack order types' oid')
    (same : indexes.map indexOf = indexes'.map indexOf) : oid = oid' := by
  have built := appendSegments_eq (comesBack indexes _ parsed (Nat.le_refl _))
  have built' := appendSegments_eq (comesBack' indexes' _ parsed' (Nat.le_refl _))
  rw [built, built', segmentsOf_congr same]

/-- Values and sub-identifiers of indexes come back just where no address is turned round, no
sub-identifier of a string is larger than an octet, and no length in front is `MAX_OID_LEN`. -/
theorem indexes_comeBack_iff (order : ByteOrder) :
    (∀ indexes : List VariableList, IndexList indexes →
      (segmentsOf order indexes).length ≤ maxOidLen →
        (ValuesComeBack order indexes ↔ order = .bigEndian ∨
          ∀ var ∈ indexes, var.type = asnIpaddress →
            var.val.octets.reverse = var.val.octets)) ∧
    (∀ (types : List Byte) (oid : Oid) (indexes : List VariableList),
      (∀ subid ∈ oid, subid < 2 ^ 32) →
      parseOidIndexes order oid (types.map templateOf) = some indexes →
        (SubidsComeBack order types oid ↔ indexesFit order types oid = true)) ∧
    (∀ (types : List Byte) (oid oid' : Oid) (indexes indexes' : List VariableList),
      parseOidIndexes order oid (types.map templateOf) = some indexes →
      parseOidIndexes order oid' (types.map templateOf) = some indexes' →
      SubidsComeBack order types oid → SubidsComeBack order types oid' → oid ≠ oid' →
        indexes.map indexOf ≠ indexes'.map indexOf) := by
  refine ⟨?_, ?_, ?_⟩
  · intro indexes values short
    exact valuesComeBack_iff values short
  · intro types oid indexes small parsed
    exact subidsComeBack_iff small parsed
  · intro types oid oid' indexes indexes' parsed parsed' comesBack comesBack' different same
    exact different (subids_unique parsed parsed' comesBack comesBack' same)

def addressIndex : VariableList := ⟨[], asnIpaddress, .string [1, 2, 3, 4]⟩

theorem indexList_addressIndex : IndexList [addressIndex] :=
  ⟨.ipaddress rfl, by decide, trivial⟩

theorem indexes_comeBack_address :
    ValuesComeBack .bigEndian [addressIndex] ∧ SubidsComeBack .bigEndian [asnOctetStr] [1, 65] ∧
      SubidsComeBack .bigEndian [asnOctetStr] [1, 66] := by
  obtain ⟨values, subids, -⟩ := indexes_comeBack_iff .bigEndian
  refine ⟨?_, ?_, ?_⟩
  · exact (values [addressIndex] indexList_addressIndex (by decide)).mpr (.inl rfl)
  · exact (subids [asnOctetStr] [1, 65] _ (by decide) rfl).mpr (by decide)
  · exact (subids [asnOctetStr] [1, 66] _ (by decide) rfl).mpr (by decide)

/-- On a host with the least significant byte first the address 1.2.3.4 is read back as 4.3.2.1, and
on each host the strings `1.0` and `1.256` are the same row. -/
theorem not_indexes_comeBack :
    (IndexList [addressIndex] ∧ (segmentsOf .littleEndian [addressIndex]).length ≤ maxOidLen ∧
      ¬ValuesComeBack .littleEndian [addressIndex]) ∧
    ∀ order, ¬SubidsComeBack order [asnOctetStr] [1, 256] ∧
      parseOidIndexes order [1, 256] ([asnOctetStr].map templateOf) =
        some [⟨[], asnOctetStr, .string [0]⟩] ∧
      parseOidIndexes order [1, 0] ([asnOctetStr].map templateOf) =
        some [⟨[], asnOctetStr, .string [0]⟩] := by
  refine ⟨⟨indexList_addressIndex, by decide, ?_⟩, ?_⟩
  · rw [valuesComeBack_iff indexList_addressIndex (by decide)]
    decide
  · intro order
    refine ⟨?_, rfl, rfl⟩
    have parsed : parseOidIndexes order [1, 256] ([asnOctetStr].map templateOf) =
        some [⟨[], asnOctetStr, .string [0]⟩] := rfl
    rw [subidsComeBack_iff (by decide) parsed]
    cases order with
    | bigEndian => decide
    | littleEndian => decide

end NetSnmp
