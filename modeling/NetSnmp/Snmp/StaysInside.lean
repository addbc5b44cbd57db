import NetSnmp.Asn.RemainingLength
import NetSnmp.Reader.Discipline
import NetSnmp.Snmp.Parse

/-!
# What the PDU decoder inspects

`snmp_pdu_parse` on a packet of any octets ends and stays inside of the packet, except for one octet
behind a `BIT STRING` without contents.
-/

namespace NetSnmp

open Reader Ber

/-- Octets are inspected in front of the last `lo` ones, or the first of these is and `past` holds,
and a pass of a loop leaves less than there was before. -/
def Inside (lo : Nat) (past : Prop) : Event → Prop
  | .read remaining => lo < remaining ∨ remaining = lo ∧ past
  | .iteration before after => after < before
  | _ => True

/-- The object at `data` has its contents in front of the last `lo` octets. -/
def ContentsFit (lo : Nat) (data : Ptr) : Prop :=
  ∃ tag field length bufp, LengthField field length ∧ data = tag :: (field ++ bufp) ∧
    length + lo ≤ bufp.length

/-- The object at `data` is read inside, because of the octets that may be used or of its header. -/
def Fits (lo datalength : Nat) (data : Ptr) : Prop :=
  datalength + lo ≤ data.length ∨ ContentsFit lo data

/-- The header at `data`, with contents inside. -/
structure HeaderInside (lo datalength : Nat) (data bufp : Ptr) (asnLength : Nat) : Prop where
  field : ∃ field, LengthField field asnLength ∧ data.drop 1 = field ++ bufp ∧
    field.length + asnLength < datalength
  room : asnLength + lo ≤ bufp.length

/-- The contents behind the header of an object that stands at `data`. -/
structure Entered (lo datalength : Nat) (data next : Ptr) (left : Nat) : Prop where
  suffix : next <:+ data
  room : left + lo ≤ next.length
  shorter : next.length + 2 ≤ data.length
  among : data.length + left ≤ datalength + next.length
  fit : ContentsFit lo data

/-- A place in `whole` with `length` octets in front of the last `lo` ones. -/
structure Standing (lo : Nat) (whole data : Ptr) (length : Nat) : Prop where
  suffix : data <:+ whole
  room : length + lo ≤ data.length
  small : length < 2 ^ 31

/-- What is left behind an object: a later pointer, and the count without what is in front of it. -/
structure LeftBehind (data : Ptr) (datalength : Nat) (next : Ptr) (left : Nat) : Prop where
  suffix : next <:+ data
  count : datalength < 2 ^ 31 → KeepsCount data datalength next left

section Objects

variable {α : Type} {lo datalength asnLength : Nat} {past : Prop} {data bufp : Ptr}

namespace HeaderInside

variable (header : HeaderInside lo datalength data bufp asnLength)

include header

theorem suffix : bufp <:+ data := by
  rcases header.field with ⟨field, -, drop_eq, -⟩
  have behind : bufp <:+ data.drop 1 := by
    rw [drop_eq]
    exact List.suffix_append field bufp
  exact behind.trans (List.drop_suffix 1 data)

theorem lengths : bufp.length + 2 ≤ data.length ∧
    data.length + asnLength ≤ datalength + bufp.length := by
  rcases header.field with ⟨field, lengthField, drop_eq, fits⟩
  have length_eq := congrArg List.length drop_eq
  have pos := lengthField.length_pos
  simp only [List.length_drop, List.length_append] at length_eq
  omega

theorem lt : asnLength < datalength := by
  rcases header.field with ⟨field, -, -, fits⟩
  omega

theorem contentsFit : ContentsFit lo data := by
  have lengths := header.lengths
  rcases header.field with ⟨field, lengthField, drop_eq, -⟩
  cases data with
  | nil => simp at lengths
  | cons tag rest =>
      refine ⟨tag, field, asnLength, bufp, lengthField, ?_, header.room⟩
      rw [← drop_eq]
      rfl

theorem deref (pos : 0 < asnLength) :
    (Reader.deref bufp).Keeps (Inside lo past) fun byte => bufp.head? = some byte := by
  have room := header.room
  exact .deref (.inl (by omega))

theorem derefSecond (two : 2 ≤ asnLength) :
    (Reader.deref (bufp.drop 1)).Keeps (Inside lo past) fun _ => True := by
  have room := header.room
  refine .weaken (.deref (.inl ?_)) fun _ _ => trivial
  rw [List.length_drop]
  omega

theorem readBytes : (Reader.readBytes asnLength bufp).Keeps (Inside lo past) fun _ => True := by
  have room := header.room
  exact .readBytes fun count less => .inl (by omega)

theorem leftBehind {next : Ptr} {left : Nat} (suffix : next <:+ bufp)
    (next_length : next.length + asnLength = bufp.length)
    (left_eq : datalength < 2 ^ 31 →
      left = toSizeT (datalength - (asnLength + ((data.length : Int) - bufp.length)))) :
    LeftBehind data datalength next left := by
  have lengths := header.lengths
  refine ⟨suffix.trans header.suffix, fun small => ?_⟩
  rw [left_eq small, KeepsCount, toSizeT_of_nonneg (by omega) (by omega)]
  omega

theorem leftBehind_drop : LeftBehind data datalength (bufp.drop asnLength)
    (lengthAfter datalength asnLength data bufp) := by
  have room := header.room
  have lengths := header.lengths
  apply header.leftBehind (List.drop_suffix _ _)
  · rw [List.length_drop]
    omega
  · intro small
    rw [lengthAfter, toCInt_eq_self (by omega)]

end HeaderInside

theorem keeps_assignLength (given left : Nat) :
    (assignLength given left).Keeps (Inside lo past) fun left' => left' = left :=
  .bind (.emit trivial) fun _ _ => .pure rfl

theorem LengthField.unique {field field' rest rest' : List Byte} {length length' : Nat}
    (lengthField : LengthField field length) (lengthField' : LengthField field' length')
    (same : field ++ rest = field' ++ rest') : rest = rest' ∧ length = length' := by
  have first : (asnParseNlength (field ++ rest)
      (field.length + length + (field'.length + length'))).outcome = .ok (rest, length) :=
    asnParseNlength_eq_ok_iff.mpr ⟨field, lengthField, rfl, by omega⟩
  have second : (asnParseNlength (field ++ rest)
      (field.length + length + (field'.length + length'))).outcome = .ok (rest', length') :=
    asnParseNlength_eq_ok_iff.mpr ⟨field', lengthField', same, by omega⟩
  rw [first] at second
  simpa using second

theorem keeps_asnParseNlength {pkt : Ptr} {pktLen : Nat} (one : 1 ≤ pktLen → lo < pkt.length)
    (readable : ∀ first rest, pkt = first :: rest → hasBit8 first = true →
      (first &&& 0x7f).toNat < pktLen → (first &&& 0x7f).toNat + 1 + lo ≤ pkt.length) :
    (asnParseNlength pkt pktLen).Keeps (Inside lo past) fun parsed =>
      (asnParseNlength pkt pktLen).outcome = .ok parsed := by
  suffices keeps : (asnParseNlength pkt pktLen).Keeps (Inside lo past) fun _ => True from
    keeps.returned
  refine .within (.bind (.failIf _) fun _ positive => ?_) fun _ => trivial
  have inside : lo < pkt.length := one (by omega)
  refine .bind (.deref (.inl inside)) fun first head => ?_
  split
  · rename_i long
    refine .bind (.failIf _) fun _ short => ?_
    have field : (asnParseLength pkt).Keeps (Inside lo past) fun _ => True := ?_
    · exact .bind field fun parsed _ => .bind (.failIf _) fun _ _ => .pure trivial
    cases pkt with
    | nil => cases head
    | cons octet rest =>
        rcases Option.some.inj head with rfl
        have enough := readable octet rest rfl long (by omega)
        refine .bind (.deref (.inl inside)) fun lengthbyte same => ?_
        rcases Option.some.inj same with rfl
        rw [if_pos long]
        refine .bind (.failIf _) fun _ _ => .bind (.failIf _) fun _ _ => .bind (.readBytes ?_)
          fun _ _ => .bind (.failIf _) fun _ _ => .pure trivial
        intro count less
        rw [List.length_drop]
        exact .inl (by omega)
  · exact .bind (.failIf _) fun _ _ => .pure trivial

theorem keeps_header (fits : Fits lo datalength data) :
    (asnParseNlength (data.drop 1) (datalength - 1)).Keeps (Inside lo past) fun parsed =>
      HeaderInside lo datalength data parsed.1 parsed.2 := by
  refine .weaken (keeps_asnParseNlength ?_ ?_) fun parsed accepted => ?_
  · intro room
    rcases fits with inside | ⟨tag, field, length, bufp, lengthField, rfl, inside⟩
    · rw [List.length_drop]
      omega
    · have pos := lengthField.length_pos
      simp only [List.drop_one, List.tail_cons, List.length_append]
      omega
  · intro first rest drop_eq long short
    have length_eq := congrArg List.length drop_eq
    rw [List.length_drop] at length_eq
    rcases fits with inside | ⟨tag, field, length, bufp, lengthField, rfl, inside⟩
    · rw [List.length_drop]
      omega
    · cases lengthField with
      | short octet small =>
          have same : octet = first := by simpa using congrArg List.head? drop_eq
          rw [hasBit8_eq, ← same] at long
          simp [Octets.topBit] at long
          omega
      | @long count octets count_eq nonempty width positive =>
          have same : count = first := by simpa using congrArg List.head? drop_eq
          have octets_eq := toNat_and_127_of_long (same ▸ long)
          rw [← same]
          simp only [List.drop_one, List.tail_cons, List.length_append, List.length_cons]
          omega
  · rcases asnParseNlength_eq_ok_iff.mp accepted with ⟨field, lengthField, drop_eq, le⟩
    have pos := lengthField.length_pos
    refine ⟨⟨field, lengthField, drop_eq, by omega⟩, ?_⟩
    rcases fits with inside | ⟨tag, field', length, bufp, lengthField', rfl, inside⟩
    · have length_eq := congrArg List.length drop_eq
      rw [List.length_drop, List.length_append] at length_eq
      omega
    · rcases LengthField.unique lengthField' lengthField drop_eq with ⟨rest_eq, length_eq⟩
      rwa [← rest_eq, ← length_eq]

theorem keeps_checked {wrong : Byte → Prop} [DecidablePred wrong]
    {body : Byte → Ptr × Nat → Reader α} {post : α → Prop} (fits : Fits lo datalength data)
    (keeps : ∀ type bufp asnLength, data.head? = some type → ¬ wrong type →
      HeaderInside lo datalength data bufp asnLength →
      (body type (bufp, asnLength)).Keeps (Inside lo past) post) :
    (within data datalength (failIf (datalength < 2) >>= fun _ =>
      deref data >>= fun type => failIf (wrong type) >>= fun _ =>
        asnParseNlength (data.drop 1) (datalength - 1) >>= body type)).Keeps (Inside lo past) post := by
  refine .within (.bind (.failIf _) fun _ room => .bind (.deref (.inl ?_)) fun type head =>
    .bind (.failIf _) fun _ right => .bind (keeps_header fits) fun parsed header =>
      keeps type parsed.1 parsed.2 head right header) fun _ => trivial
  rcases fits with inside | ⟨tag, field, length, bufp, lengthField, rfl, inside⟩
  · omega
  · simp only [List.length_cons, List.length_append]
    omega

theorem keeps_object {body : Byte → Ptr × Nat → Reader α} {post : α → Prop}
    (fits : Fits lo datalength data)
    (keeps : ∀ type bufp asnLength, data.head? = some type →
      HeaderInside lo datalength data bufp asnLength →
      (body type (bufp, asnLength)).Keeps (Inside lo past) post) :
    (within data datalength (failIf (datalength < 2) >>= fun _ =>
      deref data >>= fun type => asnParseNlength (data.drop 1) (datalength - 1) >>=
        body type)).Keeps (Inside lo past) post := by
  refine .within (.bind (.failIf _) fun _ room => .bind (.deref (.inl ?_)) fun type head =>
    .bind (keeps_header fits) fun parsed header =>
      keeps type parsed.1 parsed.2 head header) fun _ => trivial
  rcases fits with inside | ⟨tag, field, length, bufp, lengthField, rfl, inside⟩
  · omega
  · simp only [List.length_cons, List.length_append]
    omega

theorem pos_of_toCInt_ne_zero {length : Nat} (ne : toCInt length ≠ 0) : 0 < length := by
  apply Nat.pos_of_ne_zero
  rintro rfl
  exact ne rfl

theorem keeps_asnParseInt (fits : Fits lo datalength data) :
    (asnParseInt data datalength).Keeps (Inside lo past) fun parsed =>
      LeftBehind data datalength parsed.next parsed.left := by
  apply keeps_checked fits
  intro type bufp asnLength _ _ header
  refine .bind (.failIf _) fun _ width => .bind (keeps_assignLength _ _) fun left left_eq => ?_
  refine .bind (header.deref (pos_of_toCInt_ne_zero (not_or.mp width).2)) fun _ _ => ?_
  refine .bind header.readBytes fun _ _ => .pure ?_
  rw [left_eq]
  exact header.leftBehind_drop

theorem keeps_failUnlessLeadingZero {greatest : Prop} [Decidable greatest]
    (inside : greatest → lo < bufp.length) :
    (failUnlessLeadingZero greatest bufp).Keeps (Inside lo past) fun _ => True := by
  rw [failUnlessLeadingZero]
  split
  · rename_i isGreatest
    exact .bind (.deref (.inl (inside isGreatest))) fun _ _ =>
      .weaken (.failIf _) fun _ _ => trivial
  · exact .pure trivial

theorem keeps_startCounter64 {signed : Bool} (room : asnLength + lo ≤ bufp.length) :
    (startCounter64 signed asnLength bufp).Keeps (Inside lo past) fun _ => True := by
  rw [startCounter64]
  split
  · exact .bind (.deref (.inl (by omega))) fun _ _ => .pure trivial
  · exact .pure trivial

theorem keeps_asnParseUnsignedInt (fits : Fits lo datalength data) :
    (asnParseUnsignedInt data datalength).Keeps (Inside lo past) fun parsed =>
      LeftBehind data datalength parsed.next parsed.left := by
  apply keeps_checked fits
  intro type bufp asnLength _ _ header
  refine .bind (.failIf _) fun _ width => ?_
  have pos := pos_of_toCInt_ne_zero (not_or.mp width).2
  have room := header.room
  refine .bind (keeps_failUnlessLeadingZero fun _ => by omega) fun _ _ => ?_
  refine .bind (keeps_assignLength _ _) fun left left_eq => ?_
  refine .bind header.readBytes fun _ _ => .pure ?_
  rw [left_eq]
  exact header.leftBehind_drop

theorem keeps_asnParseString {strlength : Nat} (fits : Fits lo datalength data) :
    (asnParseString data datalength strlength).Keeps (Inside lo past) fun parsed =>
      LeftBehind data datalength parsed.next parsed.left := by
  apply keeps_checked fits
  intro type bufp asnLength _ _ header
  refine .bind (.failIf _) fun _ _ => .bind header.readBytes fun _ _ => ?_
  refine .bind (keeps_assignLength _ _) fun left left_eq => .pure ?_
  have room := header.room
  refine header.leftBehind (List.drop_suffix _ _) ?_ fun _ => left_eq
  rw [List.length_drop]
  omega

theorem keeps_asnParseSubid {length subidentifier : Nat} (pos : 0 < length)
    (room : length + lo ≤ bufp.length) :
    (asnParseSubid length bufp subidentifier).Keeps (Inside lo past) fun subid =>
      subid.bufp <:+ bufp ∧ subid.bufp.length + length = bufp.length + subid.length ∧
        lo < subid.lastByte.length := by
  induction length generalizing bufp subidentifier with
  | zero => exact absurd pos (Nat.lt_irrefl 0)
  | succ length ih =>
      have drop_length : (bufp.drop 1).length = bufp.length - 1 := List.length_drop
      refine .bind (.failIf _) fun _ _ => .bind (.deref (.inl (by omega))) fun octet _ => ?_
      split
      · rename_i more
        refine .weaken (ih more.2 (by omega)) ?_
        rintro subid ⟨suffix, counts, inside⟩
        exact ⟨suffix.trans (List.drop_suffix 1 bufp), by omega, inside⟩
      · refine .pure ⟨List.drop_suffix 1 bufp, ?_, by simp only; omega⟩
        simp only
        omega

theorem keeps_asnParseSubids {objidlength length : Nat} (room : length + lo ≤ bufp.length) :
    (asnParseSubids objidlength length bufp).Keeps (Inside lo past) fun parsed =>
      parsed.1 <:+ bufp ∧ parsed.1.length + length = bufp.length + parsed.2.1 := by
  induction objidlength generalizing length bufp with
  | zero => exact .pure ⟨List.suffix_rfl, rfl⟩
  | succ objidlength ih =>
      rw [asnParseSubids]
      split
      · exact .pure ⟨List.suffix_rfl, rfl⟩
      · rename_i nonempty
        refine .bind (keeps_asnParseSubid (Nat.pos_of_ne_zero nonempty) room) ?_
        rintro subid ⟨suffix, counts, inside⟩
        have rest : (failIf (maxSubid < subid.subidentifier) >>= fun _ =>
            asnParseSubids objidlength subid.length subid.bufp >>= fun parsed =>
              pure (parsed.1, parsed.2.1, subid.subidentifier :: parsed.2.2)).Keeps
            (Inside lo past) fun parsed =>
              parsed.1 <:+ bufp ∧ parsed.1.length + length = bufp.length + parsed.2.1 := by
          refine .bind (.failIf _) fun _ _ => .bind (ih (by omega)) ?_
          rintro parsed ⟨suffix', counts'⟩
          exact .pure ⟨suffix'.trans suffix, by simp only; omega⟩
        split
        · refine .bind (.deref (.inl inside)) fun lastByte _ => ?_
          exact .bind (.failIf _) fun _ _ => rest
        · exact rest

theorem keeps_asnParseObjid {objidlength : Nat} (fits : Fits lo datalength data) :
    (asnParseObjid data datalength objidlength).Keeps (Inside lo past) fun parsed =>
      LeftBehind data datalength parsed.next parsed.left := by
  apply keeps_checked fits
  intro type bufp asnLength _ _ header
  refine .bind (keeps_assignLength _ _) fun left left_eq => ?_
  refine .bind (keeps_asnParseSubids header.room) ?_
  rintro ⟨bufp', length, objid⟩ ⟨suffix, counts⟩
  refine .bind (.failIf _) fun _ stopped => ?_
  have behind : LeftBehind data datalength bufp' left := by
    have lengths := header.lengths
    rw [not_not.mp stopped] at counts
    refine header.leftBehind suffix (by simpa using counts) fun small => ?_
    rw [left_eq, lengthAfter, toCInt_eq_self (by omega)]
  cases objid with
  | nil => exact .pure behind
  | cons first rest => exact .pure behind

theorem keeps_asnParseBitstring {strlength : Nat} (fits : Fits lo datalength data)
    (exceeds : ∀ field bufp, LengthField field 0 → data = asnBitStr :: (field ++ bufp) →
      bufp.length = lo → past) :
    (asnParseBitstring data datalength strlength).Keeps (Inside lo past) fun _ => True := by
  apply keeps_checked fits
  intro type bufp asnLength head right header
  have room := header.room
  refine .bind (.failIf _) fun _ _ => .bind (.deref ?_) fun _ _ => ?_
  · by_cases inside : lo < bufp.length
    · exact .inl inside
    · right
      refine ⟨by omega, ?_⟩
      rcases header.field with ⟨field, lengthField, drop_eq, -⟩
      rw [show asnLength = 0 by omega] at lengthField
      apply exceeds field bufp lengthField _ (by omega)
      rw [← drop_eq, ← not_not.mp right, List.drop_one]
      exact List.eq_cons_of_mem_head? head
  · exact .bind (.failIf _) fun _ _ => .bind header.readBytes fun _ _ =>
      .bind (keeps_assignLength _ _) fun _ _ => .pure trivial

theorem keeps_innerHeader (header : HeaderInside lo datalength data bufp asnLength)
    (two : 2 ≤ asnLength) :
    (asnParseNlength (bufp.drop 2) (toSizeT ((asnLength : Int) - 2))).Keeps (Inside lo past)
      fun parsed => HeaderInside lo (asnLength - 1) (bufp.drop 1) parsed.1 parsed.2 := by
  have room := header.room
  rcases header.field with ⟨field, lengthField, -, -⟩
  have small := lengthField.lt
  have inner : Fits lo (asnLength - 1) (bufp.drop 1) := .inl (by rw [List.length_drop]; omega)
  have count : toSizeT ((asnLength : Int) - 2) = asnLength - 1 - 1 := by
    rw [toSizeT_of_nonneg (by omega) (by omega)]
    omega
  rw [count]
  simpa using keeps_header inner

theorem keeps_asnParseOpaqueTag {fitting : Bool} {isTag : Byte → Bool} {type : Byte}
    (header : HeaderInside lo datalength data bufp asnLength)
    (two : type = asnOpaque → fitting = true → 2 ≤ asnLength) :
    (asnParseOpaqueTag fitting isTag type bufp datalength asnLength).Keeps (Inside lo past)
      fun object => object.value + lo ≤ object.next.length ∧ object.value < datalength := by
  have lt := header.lt
  rw [asnParseOpaqueTag]
  split
  · rename_i isOpaque
    have two := two isOpaque.1 isOpaque.2
    refine .bind (header.deref (by omega)) fun _ _ => ?_
    split
    · refine .bind (header.derefSecond two) fun _ _ => ?_
      split
      · refine .bind (keeps_assignLength _ _) fun outer outer_eq => ?_
        rw [outer_eq]
        refine .bind (keeps_innerHeader header two) fun parsed inner => .pure ⟨inner.room, ?_⟩
        have lt' := inner.lt
        simp only
        omega
      · exact .pure ⟨header.room, lt⟩
    · exact .pure ⟨header.room, lt⟩
  · exact .pure ⟨header.room, lt⟩

theorem keeps_asnParseInt64Octets {signed : Bool} {object : Parsed Nat}
    (room : object.value + lo ≤ object.next.length) (short : object.value < 2 ^ 31) :
    (asnParseInt64Octets signed data object).Keeps (Inside lo past) fun _ => True := by
  rcases object with ⟨bufp, outer, type, asnLength⟩
  simp only at room short
  simp only [asnParseInt64Octets, toCInt_eq_self short]
  refine .bind (.failIf _) fun _ _ => .bind (keeps_failUnlessLeadingZero fun _ => by omega)
    fun _ _ => .bind (keeps_assignLength _ _) fun _ _ => .bind (keeps_startCounter64 room)
      fun _ _ => .bind (.readBytes ?_) fun _ _ => .pure trivial
  exact fun count less => .inl (by omega)

theorem keeps_asnParseUnsignedInt64 (fits : Fits lo datalength data)
    (small : datalength < 2 ^ 31) :
    (asnParseUnsignedInt64 data datalength).Keeps (Inside lo past) fun _ => True := by
  apply keeps_checked fits
  intro type bufp asnLength _ _ header
  refine .bind (.failIf _) fun _ wide => ?_
  refine .bind (keeps_asnParseOpaqueTag header fun isOpaque _ => ?_) fun object room => ?_
  · exact not_lt.mp fun less => wide ⟨isOpaque, less⟩
  · exact keeps_asnParseInt64Octets room.1 (by omega)

theorem keeps_asnParseSignedInt64 (fits : Fits lo datalength data) (small : datalength < 2 ^ 31) :
    (asnParseSignedInt64 data datalength).Keeps (Inside lo past) fun _ => True := by
  apply keeps_object fits
  intro type bufp asnLength _ header
  have lt := header.lt
  refine .bind (.failIf _) fun _ two => ?_
  have two := not_lt.mp two
  refine .bind (header.deref (by omega)) fun _ _ => .bind (header.derefSecond two) fun _ _ => ?_
  refine .bind (.failIf _) fun _ _ => .bind (keeps_assignLength _ _) fun outer outer_eq => ?_
  rw [outer_eq]
  refine .bind (keeps_innerHeader header two) fun parsed inner => ?_
  have lt' := inner.lt
  exact keeps_asnParseInt64Octets inner.room (by simp only; omega)

theorem keeps_asnParseOpaqueBits {special : Byte} {berLen size minimum : Nat} (two : 2 ≤ berLen)
    (fits : Fits lo datalength data) :
    (asnParseOpaqueBits special berLen size minimum data datalength).Keeps (Inside lo past)
      fun _ => True := by
  apply keeps_object fits
  intro type bufp asnLength _ header
  refine .bind (.failIf _) fun _ _ => ?_
  refine .bind (keeps_asnParseOpaqueTag header fun _ fitting => ?_) fun object room => ?_
  · rwa [of_decide_eq_true fitting]
  · refine .bind (.failIf _) fun _ _ => .bind (.failIf _) fun _ _ => ?_
    refine .bind (keeps_assignLength _ _) fun _ _ => .bind (.readBytes ?_) fun _ _ => .pure trivial
    exact fun count less => .inl (by omega)

theorem keeps_asnParseHeader (fits : Fits lo datalength data) (small : datalength < 2 ^ 31) :
    (asnParseHeader data datalength).Keeps (Inside lo past) fun parsed =>
      Entered lo datalength data parsed.next parsed.left := by
  apply keeps_checked fits
  intro type bufp asnLength _ _ header
  have lt := header.lt
  have lengths := header.lengths
  have length_eq : toSizeT (toCInt asnLength) = asnLength := by
    rw [toCInt_eq_self (by omega), toSizeT_eq_self (by omega)]
  have outer (left : Nat) (left_eq : left = toSizeT (toCInt asnLength)) :
      Entered lo datalength data bufp left := by
    rw [left_eq, length_eq]
    exact ⟨header.suffix, header.room, lengths.1, lengths.2, header.contentsFit⟩
  dsimp only
  split
  · rename_i isOpaque
    refine .bind (header.deref (by omega)) fun _ _ => ?_
    split
    · refine .bind (header.derefSecond (by omega)) fun _ _ => ?_
      refine .bind (keeps_assignLength _ _) fun left left_eq => ?_
      split
      · rw [left_eq, length_eq]
        refine .bind (keeps_innerHeader header (by omega)) ?_
        rintro ⟨inner, innerLength⟩ inside
        refine .bind (keeps_assignLength _ _) fun left' left_eq' => .pure ?_
        have lt' := inside.lt
        have lengths' := inside.lengths
        rw [List.length_drop] at lengths'
        simp only at lt' lengths' left_eq' ⊢
        rw [toCInt_eq_self (by omega), toSizeT_eq_self (by omega)] at left_eq'
        rw [left_eq']
        have suffix := inside.suffix.trans (List.drop_suffix 1 bufp)
        exact ⟨suffix.trans header.suffix, inside.room, by omega, by omega, header.contentsFit⟩
      · exact .pure (outer left left_eq)
    · exact .bind (keeps_assignLength _ _) fun left left_eq => .pure (outer left left_eq)
  · exact .bind (keeps_assignLength _ _) fun left left_eq => .pure (outer left left_eq)

theorem keeps_asnParseSequence {expectedType : Byte} (fits : Fits lo datalength data)
    (small : datalength < 2 ^ 31) :
    (asnParseSequence data datalength expectedType).Keeps (Inside lo past) fun parsed =>
      Entered lo datalength data parsed.next parsed.left :=
  .within (.bind (keeps_asnParseHeader fits small) fun _ entered => .bind (.failIf _)
    fun _ _ => .pure entered) fun _ => trivial

namespace Standing

variable {whole next : Ptr} {left length : Nat} (here : Standing lo whole data length)

include here

theorem fits : Fits lo length data := .inl here.room

theorem enter (entered : Entered lo length data next left) : Standing lo whole next left := by
  have small := here.small
  have shorter := entered.shorter
  have among := entered.among
  exact ⟨entered.suffix.trans here.suffix, entered.room, by omega⟩

theorem after (behind : LeftBehind data length next left) : Standing lo whole next left := by
  have room := here.room
  have small := here.small
  rcases behind.count small with ⟨le, count⟩
  exact ⟨behind.suffix.trans here.suffix, by omega, by omega⟩

end Standing

/-- What `snmp_parse_var_op` hands back stands behind the object, and the value inside of it. -/
structure VarOpInside (lo : Nat) (whole data : Ptr) (length : Nat) (op : VarOp) : Prop where
  next : Standing lo whole op.next op.left
  shorter : op.next.length < data.length
  less : op.left < length
  val : op.val <:+ whole
  fit : ContentsFit lo op.val

theorem keeps_snmpParseVarOp {whole : Ptr} {length varNameLen : Nat}
    (here : Standing lo whole data length) :
    (snmpParseVarOp data varNameLen length).Keeps (Inside lo past)
      (VarOpInside lo whole data length) := by
  refine .within (.bind (keeps_asnParseSequence here.fits here.small) fun sequence entered => ?_)
    fun _ => trivial
  have inner := here.enter entered
  refine .bind (keeps_asnParseObjid inner.fits) fun name behind => .bind (.failIf _) fun _ _ => ?_
  have value := inner.after behind
  refine .bind (keeps_asnParseHeader value.fits value.small) fun header contents => ?_
  refine .bind (keeps_assignLength _ _) fun left left_eq => .pure ?_
  -- The octets up to the returned pointer are among those that may be used.
  rcases behind.count inner.small with ⟨le, count⟩
  have small := here.small
  have room := here.room
  have shorter := entered.shorter
  have among := entered.among
  have shorter' := contents.shorter
  have among' := contents.among
  have room' := contents.room
  have next_length : (header.next.drop header.left).length = header.next.length - header.left :=
    List.length_drop
  have left_eq' : left = length - (data.length - (header.next.length - header.left)) := by
    rw [left_eq, next_length, toCInt_eq_self_of_range (by omega) (by omega),
      toSizeT_of_nonneg (by omega) (by omega)]
    omega
  have suffix := contents.suffix.trans value.suffix
  refine ⟨⟨(List.drop_suffix _ _).trans suffix, ?_, ?_⟩, ?_, ?_, value.suffix, contents.fit⟩
  all_goals
    dsimp only
    omega

end Objects

/-- The packet ends with a `BIT STRING` without contents. -/
def EndsWithEmptyBits (packet : List Byte) : Prop :=
  ∃ field, LengthField field 0 ∧ asnBitStr :: field <:+ packet

section Packet

variable {packet behind data : Ptr}

theorem endsWithEmptyBits {field bufp : List Byte} (suffix : data <:+ packet ++ behind)
    (lengthField : LengthField field 0) (data_eq : data = asnBitStr :: (field ++ bufp))
    (last : bufp.length = behind.length) : EndsWithEmptyBits packet := by
  refine ⟨field, lengthField, ?_⟩
  rw [data_eq] at suffix
  rcases suffix with ⟨front, whole⟩
  have split : front ++ (asnBitStr :: field) ++ bufp = packet ++ behind := by
    rw [← whole]
    simp
  exact ⟨front, (List.append_inj' split last).1⟩

theorem keeps_snmpPduParseValue {type : Byte} {valLen : Nat}
    (fits : ContentsFit behind.length data) (suffix : data <:+ packet ++ behind) :
    (snmpPduParseValue type valLen data).Keeps (Inside behind.length (EndsWithEmptyBits packet))
      fun _ => True := by
  have small : snmpMaxPacketLen < 2 ^ 31 := by decide
  have done {α : Type} {decoder : Reader α} {post : α → Prop} {value : α → TypedValue}
      (keeps : decoder.Keeps (Inside behind.length (EndsWithEmptyBits packet)) post) :
      (decoder >>= fun parsed => pure (value parsed)).Keeps
        (Inside behind.length (EndsWithEmptyBits packet)) fun _ => True :=
    .bind keeps fun _ _ => .pure trivial
  simp only [snmpPduParseValue]
  split
  · exact done (keeps_asnParseInt (.inr fits))
  split
  · exact done (keeps_asnParseUnsignedInt (.inr fits))
  split
  · exact done (keeps_asnParseUnsignedInt64 (.inr fits) small)
  split
  · exact done (keeps_asnParseOpaqueBits (by decide) (.inr fits))
  split
  · exact done (keeps_asnParseOpaqueBits (by decide) (.inr fits))
  split
  · exact done (keeps_asnParseSignedInt64 (.inr fits) small)
  split
  · exact .bind (.failIf _) fun _ _ => done (keeps_asnParseString (.inr fits))
  split
  · exact done (keeps_asnParseObjid (.inr fits))
  split
  · exact .pure trivial
  split
  · exact done (keeps_asnParseBitstring (.inr fits) fun field bufp lengthField data_eq last =>
      endsWithEmptyBits suffix lengthField data_eq last)
  · exact .null

variable {lo : Nat} {past : Prop} {state : PduParsed}

theorem keeps_snmpPduParseVarbinds {passes length : Nat} (enough : data.length < passes)
    (here : Standing behind.length (packet ++ behind) data length) :
    (snmpPduParseVarbinds passes data length).Keeps
      (Inside behind.length (EndsWithEmptyBits packet)) fun parsed =>
        Standing behind.length (packet ++ behind) parsed.1 parsed.2.1 := by
  induction passes generalizing data length with
  | zero => exact absurd enough (Nat.not_lt_zero _)
  | succ passes ih =>
      rw [snmpPduParseVarbinds]
      split
      · refine .bind (keeps_snmpParseVarOp here) fun op inside => ?_
        refine .bind (keeps_snmpPduParseValue inside.fit inside.val) fun _ _ => ?_
        refine .bind (.emit inside.less) fun _ _ => ?_
        have shorter := inside.shorter
        exact .bind (ih (by omega) inside.next) fun _ standing => .pure standing
      · exact .pure here

theorem keeps_snmpPduParseTrapFields {whole : Ptr}
    (here : Standing lo whole state.data state.length) :
    (snmpPduParseTrapFields state).Keeps (Inside lo past) fun state' =>
      Standing lo whole state'.data state'.length := by
  refine .bind (keeps_asnParseObjid here.fits) fun enterprise behind => ?_
  have here := here.after behind
  refine .bind (keeps_asnParseString here.fits) fun agentAddr behind => ?_
  have here := here.after behind
  refine .bind (keeps_asnParseInt here.fits) fun trapType behind => ?_
  have here := here.after behind
  refine .bind (keeps_asnParseInt here.fits) fun specificType behind => ?_
  have here := here.after behind
  exact .bind (keeps_asnParseUnsignedInt here.fits) fun time behind => .pure (here.after behind)

theorem keeps_snmpPduParseFields {whole : Ptr}
    (here : Standing lo whole state.data state.length) :
    (snmpPduParseFields state).Keeps (Inside lo past) fun state' =>
      Standing lo whole state'.data state'.length := by
  refine .bind (keeps_asnParseInt here.fits) fun reqid behind => ?_
  have here := here.after behind
  refine .bind (keeps_asnParseInt here.fits) fun errstat behind => ?_
  have here := here.after behind
  exact .bind (keeps_asnParseInt here.fits) fun errindex behind => .pure (here.after behind)

theorem keeps_snmpPduParseHead {whole : Ptr}
    (here : Standing lo whole state.data state.length) :
    (snmpPduParseHead state).Keeps (Inside lo past) fun state' =>
      Standing lo whole state'.data state'.length := by
  rw [snmpPduParseHead]
  split
  · exact keeps_snmpPduParseTrapFields here
  split
  · exact keeps_snmpPduParseFields here
  · exact .null

theorem keeps_snmpPduParse {pdu : NetsnmpPdu} (small : packet.length < 2 ^ 31) :
    (snmpPduParse pdu (packet ++ behind) packet.length).Keeps
      (Inside behind.length (EndsWithEmptyBits packet)) fun parsed =>
        Standing behind.length (packet ++ behind) parsed.data parsed.length := by
  have start : Standing behind.length (packet ++ behind) (packet ++ behind) packet.length :=
    ⟨List.suffix_rfl, by simp, small⟩
  refine .within (.bind (keeps_asnParseHeader start.fits small) fun header entered => ?_)
    fun _ => trivial
  refine .bind (keeps_snmpPduParseHead (start.enter entered)) fun state here => ?_
  refine .bind (keeps_asnParseSequence here.fits here.small) fun varbinds entered => ?_
  have here := here.enter entered
  refine .bind (keeps_snmpPduParseVarbinds ?_ here) fun _ standing => .pure standing
  exact Nat.lt_succ_of_le here.suffix.length_le

end Packet

/-- The decoder of a packet with `behind` in the memory after it. -/
structure StaysInside (packet behind : List Byte) (reader : Reader PduParsed) : Prop where
  ends : reader.outcome ≠ .diverged
  progress : ∀ before after, .iteration before after ∈ reader.log → after < before
  /-- One octet behind the packet is looked at, and this behind an empty `BIT STRING` only. -/
  reads : ∀ remaining, .read remaining ∈ reader.log →
    behind.length < remaining ∨ remaining = behind.length ∧ EndsWithEmptyBits packet
  fault : reader.outcome = .fault → behind = [] ∧ EndsWithEmptyBits packet
  stops : ∀ parsed, reader.outcome = .ok parsed →
    parsed.data <:+ packet ++ behind ∧ parsed.length + behind.length ≤ parsed.data.length

theorem snmpPduParse_staysInside (pdu : NetsnmpPdu) (packet behind : List Byte)
    (small : packet.length < 2 ^ 31) :
    StaysInside packet behind (snmpPduParse pdu (packet ++ behind) packet.length) := by
  have keeps : (snmpPduParse pdu (packet ++ behind) packet.length).Keeps _ _ :=
    keeps_snmpPduParse small
  refine ⟨keeps.ends, fun before after => keeps.events _, fun remaining => keeps.events _, ?_, ?_⟩
  · intro faulted
    rcases keeps.events _ (keeps.fault faulted) with inside | ⟨none, ends⟩
    · exact absurd inside (Nat.not_lt_zero _)
    · exact ⟨List.eq_nil_of_length_eq_zero none.symm, ends⟩
  · intro parsed returned
    have standing := keeps.result parsed returned
    exact ⟨standing.suffix, standing.room⟩

/-- A GET request with one variable, whose value is an empty `BIT STRING`. -/
def emptyBitsRequest : List Byte :=
  [0xa0, 20, 2, 1, 1, 2, 1, 0, 2, 1, 0, 0x30, 9, 0x30, 7, 6, 3, 0x2b, 6, 1, 3, 0]

theorem snmpPduParse_staysInside_emptyBits :
    StaysInside emptyBitsRequest [0] (snmpPduParse {} (emptyBitsRequest ++ [0]) 22) :=
  snmpPduParse_staysInside {} emptyBitsRequest [0] (by decide)

example : (snmpPduParse {} emptyBitsRequest 22).outcome = .fault := by decide +kernel

end NetSnmp
