import NetSnmp.Asn.Accepted

/-!
# The remaining length

Every decoder is documented to leave in `*datalength` the number of bytes behind
the object.  The ten decoders of a value, and when they do.
-/

namespace NetSnmp

open Reader Ber

/-- A decoder of a value, with the capacity of the buffer for it where there is one. -/
inductive AsnParser where
  /-- `asn_parse_int` -/
  | int
  /-- `asn_parse_unsigned_int` -/
  | unsignedInt
  /-- `asn_parse_string` -/
  | string (strlength : Nat)
  /-- `asn_parse_objid` -/
  | objid (objidlength : Nat)
  /-- `asn_parse_null` -/
  | null
  /-- `asn_parse_bitstring` -/
  | bitstring (strlength : Nat)
  /-- `asn_parse_unsigned_int64` -/
  | unsignedInt64
  /-- `asn_parse_signed_int64` -/
  | signedInt64
  /-- `asn_parse_float` -/
  | float
  /-- `asn_parse_double` -/
  | double
  deriving DecidableEq, Repr

def progress {α : Type} (decoder : Reader (Parsed α)) : Reader (Ptr × Nat) :=
  decoder >>= fun parsed => pure (parsed.next, parsed.left)

/-- The decoder at `data`, told that there are `datalength` bytes. -/
def AsnParser.run (parser : AsnParser) (data : Ptr) (datalength : Nat) : Reader (Ptr × Nat) :=
  match parser with
  | .int => progress (asnParseInt data datalength)
  | .unsignedInt => progress (asnParseUnsignedInt data datalength)
  | .string strlength => progress (asnParseString data datalength strlength)
  | .objid objidlength => progress (asnParseObjid data datalength objidlength)
  | .null => progress (asnParseNull data datalength)
  | .bitstring strlength => progress (asnParseBitstring data datalength strlength)
  | .unsignedInt64 => progress (asnParseUnsignedInt64 data datalength)
  | .signedInt64 => progress (asnParseSignedInt64 data datalength)
  | .float => progress (asnParseFloat data datalength)
  | .double => progress (asnParseDouble data datalength)

/-- The count on return is the count on entry without the bytes up to the returned pointer. -/
def KeepsCount (data : Ptr) (datalength : Nat) (next : Ptr) (left : Nat) : Prop :=
  next.length ≤ data.length ∧ left + (data.length - next.length) = datalength

/-- The type, the length of the contents and the contents, as the header at `data` has them. -/
def objectAt (data : Ptr) : Option (Byte × Nat × Ptr) :=
  match data with
  | [] => none
  | type :: field =>
      match (asnParseLength field).outcome with
      | .ok (bufp, length) => some (type, length, bufp)
      | _ => none

def WrapsUnsigned (type : Byte) (length : Nat) (contents : Ptr) : Prop :=
  type = asnOpaque ∧ length ≤ asnOpaqueCounter64MxBerLen ∧
    ∃ tag, contents.take 2 = [asnOpaqueTag1, tag] ∧
      (tag = asnOpaqueCounter64 ∨ tag = asnOpaqueU64)

/-- For the object at `data`: the decoder counts its bytes. -/
def AsnParser.Counts (parser : AsnParser) (data : Ptr) : Prop :=
  ∃ type length contents, objectAt data = some (type, length, contents) ∧
    match parser with
    | .int | .unsignedInt | .string _ | .null => True
    | .objid _ | .bitstring _ => length < 2 ^ 31
    | .unsignedInt64 => length < 2 ^ 31 ∧ ¬ WrapsUnsigned type length contents
    | .signedInt64 | .float | .double => False

/-- What a decoder knows of the object when it has read the header. -/
structure HeaderRead (data : Ptr) (datalength : Nat) (type : Byte) (length : Nat) (bufp : Ptr) :
    Prop where
  object : objectAt data = some (type, length, bufp)
  behind : bufp.length + 2 ≤ data.length
  fits : data.length - bufp.length + length ≤ datalength
  positive : length < 2 ^ 63

theorem headerRead_of_asnParseNlength {data bufp : Ptr} {datalength length : Nat} {type : Byte}
    (room : ¬ datalength < 2) (typed : (deref data).outcome = .ok type)
    (parsed : (asnParseNlength (data.drop 1) (datalength - 1)).outcome = .ok (bufp, length)) :
    HeaderRead data datalength type length bufp := by
  have head := outcome_deref_eq_ok.mp typed
  cases data with
  | nil => exact absurd head (by simp)
  | cons first rest =>
      obtain rfl : first = type := by simpa using head
      rcases asnParseNlength_eq_ok_iff.mp parsed with ⟨field, lengthField, rest_eq, fits⟩
      obtain rfl : rest = field ++ bufp := by simpa using rest_eq
      have pos := lengthField.length_pos
      constructor
      · have read : (asnParseLength (field ++ bufp)).outcome = .ok (bufp, length) :=
          asnParseLength_eq_ok_iff.mpr ⟨field, lengthField, rfl⟩
        simp [objectAt, read]
      · simp only [List.length_cons, List.length_append]
        omega
      · simp only [List.length_cons, List.length_append]
        omega
      · exact lengthField.lt

theorem header_of_accepted {α : Type} {data : Ptr} {datalength : Nat} {parsed : Parsed α}
    {body : Byte → Ptr × Nat → Reader (Parsed α)}
    (accepted : (within data datalength (failIf (datalength < 2) >>= fun _ =>
      deref data >>= fun type => asnParseNlength (data.drop 1) (datalength - 1) >>=
        body type)).outcome = .ok parsed) :
    ∃ type length bufp, HeaderRead data datalength type length bufp ∧
      (body type (bufp, length)).outcome = .ok parsed := by
  simp only [outcome_within, outcome_bind] at accepted
  rcases Outcome.bind_eq_ok.mp accepted with ⟨_, room, accepted⟩
  rcases Outcome.bind_eq_ok.mp accepted with ⟨type, typed, accepted⟩
  rcases Outcome.bind_eq_ok.mp accepted with ⟨⟨bufp, length⟩, header, accepted⟩
  exact ⟨type, length, bufp,
    headerRead_of_asnParseNlength (outcome_failIf_eq_ok.mp room) typed header, accepted⟩

theorem header_of_checked {α : Type} {data : Ptr} {datalength : Nat} {parsed : Parsed α}
    {wrong : Byte → Prop} [DecidablePred wrong] {body : Byte → Ptr × Nat → Reader (Parsed α)}
    (accepted : (within data datalength (failIf (datalength < 2) >>= fun _ =>
      deref data >>= fun type => failIf (wrong type) >>= fun _ =>
        asnParseNlength (data.drop 1) (datalength - 1) >>= body type)).outcome = .ok parsed) :
    ∃ type length bufp, HeaderRead data datalength type length bufp ∧ ¬ wrong type ∧
      (body type (bufp, length)).outcome = .ok parsed := by
  simp only [outcome_within, outcome_bind] at accepted
  rcases Outcome.bind_eq_ok.mp accepted with ⟨_, room, accepted⟩
  rcases Outcome.bind_eq_ok.mp accepted with ⟨type, typed, accepted⟩
  rcases Outcome.bind_eq_ok.mp accepted with ⟨_, right, accepted⟩
  rcases Outcome.bind_eq_ok.mp accepted with ⟨⟨bufp, length⟩, header, accepted⟩
  exact ⟨type, length, bufp,
    headerRead_of_asnParseNlength (outcome_failIf_eq_ok.mp room) typed header,
    outcome_failIf_eq_ok.mp right, accepted⟩

section Count

variable {data bufp next : Ptr} {datalength length : Nat} {type : Byte}

theorem keepsCount_lengthAfter_iff (header : HeaderRead data datalength type length bufp)
    (small : datalength < 2 ^ 64) (next_length : next.length + length = bufp.length) :
    KeepsCount data datalength next (lengthAfter datalength length data bufp) ↔
      length < 2 ^ 31 := by
  have behind := header.behind
  have fits := header.fits
  have positive := header.positive
  have left_eq : lengthAfter datalength length data bufp =
      (((datalength : Int) - (toCInt length + ((data.length : Int) - bufp.length))) %
        2 ^ 64).toNat := rfl
  rw [KeepsCount, left_eq]
  by_cases short : length < 2 ^ 31
  · rw [toCInt_eq_self short]
    omega
  · have le := toCInt_lt (length : Int)
    have ge := toCInt_ge (length : Int)
    omega

theorem length_drop_add {length : Nat} {bytes : List Byte}
    (read : (readBytes length bufp).outcome = .ok bytes) :
    (bufp.drop length).length + length = bufp.length := by
  have inside := (outcome_readBytes_eq_ok.mp read).1
  rw [List.length_drop]
  omega

end Count

theorem asnParseSubid_counts {length subidentifier : Nat} {bufp : Ptr} {subid : Subid}
    (accepted : (asnParseSubid length bufp subidentifier).outcome = .ok subid) :
    subid.bufp.length + length = bufp.length + subid.length := by
  induction length generalizing bufp subidentifier with
  | zero =>
      obtain rfl : _ = subid := Outcome.ok.inj accepted
      rfl
  | succ length ih =>
      simp only [asnParseSubid, outcome_bind] at accepted
      rcases Outcome.bind_eq_ok.mp accepted with ⟨_, -, accepted⟩
      rcases Outcome.bind_eq_ok.mp accepted with ⟨octet, read, accepted⟩
      cases bufp with
      | nil => exact absurd read (by simp)
      | cons first rest =>
          simp only [List.drop_one, List.tail_cons, outcome_ite] at accepted
          split at accepted
          · have later := ih accepted
            simp only [List.length_cons]
            omega
          · obtain rfl : _ = subid := Outcome.ok.inj accepted
            simp only [List.length_cons]
            omega

theorem asnParseSubids_counts {objidlength length length' : Nat} {bufp bufp' : Ptr} {objid : Oid}
    (accepted : (asnParseSubids objidlength length bufp).outcome = .ok (bufp', length', objid)) :
    bufp'.length + length = bufp.length + length' := by
  induction objidlength generalizing length length' bufp bufp' objid with
  | zero =>
      obtain ⟨rfl, rfl, -⟩ : bufp = bufp' ∧ length = length' ∧ [] = objid := by
        simpa [asnParseSubids] using accepted
      rfl
  | succ objidlength ih =>
      rcases asnParseSubids_succ accepted with ⟨rfl, rfl, -⟩ | ⟨subid, more, read, -, later, -⟩
      · rfl
      · have first := asnParseSubid_counts read
        have rest := ih later
        omega

section Decoders

variable {data : Ptr} {datalength : Nat} (small : datalength < 2 ^ 64)

include small

theorem asnParseInt_counts {parsed : Parsed Int}
    (accepted : (asnParseInt data datalength).outcome = .ok parsed) :
    KeepsCount data datalength parsed.next parsed.left ↔ AsnParser.int.Counts data := by
  rcases header_of_checked accepted with ⟨type, length, bufp, header, -, accepted⟩
  simp only [outcome_bind] at accepted
  rcases Outcome.bind_eq_ok.mp accepted with ⟨_, width, accepted⟩
  rcases Outcome.bind_eq_ok.mp accepted with ⟨left, assigned, accepted⟩
  rcases Outcome.bind_eq_ok.mp accepted with ⟨first, -, accepted⟩
  rcases Outcome.bind_eq_ok.mp accepted with ⟨octets, read, accepted⟩
  have width := outcome_failIf_eq_ok.mp width
  obtain rfl : _ = left := by simpa using assigned
  obtain rfl : _ = parsed := Outcome.ok.inj accepted
  have short : length < 2 ^ 31 := by
    unfold sizeofLong at width
    omega
  apply iff_of_true
  · exact (keepsCount_lengthAfter_iff header small (length_drop_add read)).mpr short
  · exact ⟨type, length, bufp, header.object, trivial⟩

theorem asnParseUnsignedInt_counts {parsed : Parsed Nat}
    (accepted : (asnParseUnsignedInt data datalength).outcome = .ok parsed) :
    KeepsCount data datalength parsed.next parsed.left ↔ AsnParser.unsignedInt.Counts data := by
  rcases header_of_checked accepted with ⟨type, length, bufp, header, -, accepted⟩
  simp only [outcome_bind] at accepted
  rcases Outcome.bind_eq_ok.mp accepted with ⟨_, width, accepted⟩
  rcases Outcome.bind_eq_ok.mp accepted with ⟨_, -, accepted⟩
  rcases Outcome.bind_eq_ok.mp accepted with ⟨left, assigned, accepted⟩
  rcases Outcome.bind_eq_ok.mp accepted with ⟨octets, read, accepted⟩
  have width := outcome_failIf_eq_ok.mp width
  obtain rfl : _ = left := by simpa using assigned
  obtain rfl : _ = parsed := Outcome.ok.inj accepted
  have short : length < 2 ^ 31 := by
    unfold sizeofLong at width
    omega
  apply iff_of_true
  · exact (keepsCount_lengthAfter_iff header small (length_drop_add read)).mpr short
  · exact ⟨type, length, bufp, header.object, trivial⟩

theorem asnParseString_counts {strlength : Nat} {parsed : Parsed (List Byte)}
    (accepted : (asnParseString data datalength strlength).outcome = .ok parsed) :
    KeepsCount data datalength parsed.next parsed.left ↔
      (AsnParser.string strlength).Counts data := by
  rcases header_of_checked accepted with ⟨type, length, bufp, header, -, accepted⟩
  simp only [outcome_bind] at accepted
  rcases Outcome.bind_eq_ok.mp accepted with ⟨_, -, accepted⟩
  rcases Outcome.bind_eq_ok.mp accepted with ⟨octets, read, accepted⟩
  rcases Outcome.bind_eq_ok.mp accepted with ⟨left, assigned, accepted⟩
  have next_length : (bufp.drop length).length + length = bufp.length := length_drop_add read
  have behind := header.behind
  have fits := header.fits
  obtain rfl : _ = left := by simpa using assigned
  obtain rfl : _ = parsed := Outcome.ok.inj accepted
  apply iff_of_true
  · simp only [KeepsCount, toSizeT]
    omega
  · exact ⟨type, length, bufp, header.object, trivial⟩

theorem asnParseNull_counts {parsed : Parsed Unit}
    (accepted : (asnParseNull data datalength).outcome = .ok parsed) :
    KeepsCount data datalength parsed.next parsed.left ↔ AsnParser.null.Counts data := by
  rcases header_of_accepted accepted with ⟨type, length, bufp, header, accepted⟩
  simp only [outcome_bind] at accepted
  rcases Outcome.bind_eq_ok.mp accepted with ⟨_, empty, accepted⟩
  rcases Outcome.bind_eq_ok.mp accepted with ⟨left, assigned, accepted⟩
  obtain rfl : length = 0 := not_not.mp (outcome_failIf_eq_ok.mp empty)
  have behind := header.behind
  have fits := header.fits
  obtain rfl : _ = left := by simpa using assigned
  obtain rfl : _ = parsed := Outcome.ok.inj accepted
  apply iff_of_true
  · simp only [KeepsCount, toSizeT, List.drop_zero]
    omega
  · exact ⟨type, 0, bufp, header.object, trivial⟩

theorem asnParseBitstring_counts {strlength : Nat} {parsed : Parsed (List Byte)}
    (accepted : (asnParseBitstring data datalength strlength).outcome = .ok parsed) :
    KeepsCount data datalength parsed.next parsed.left ↔
      (AsnParser.bitstring strlength).Counts data := by
  rcases header_of_checked accepted with ⟨type, length, bufp, header, -, accepted⟩
  simp only [outcome_bind] at accepted
  rcases Outcome.bind_eq_ok.mp accepted with ⟨_, -, accepted⟩
  rcases Outcome.bind_eq_ok.mp accepted with ⟨_, -, accepted⟩
  rcases Outcome.bind_eq_ok.mp accepted with ⟨_, -, accepted⟩
  rcases Outcome.bind_eq_ok.mp accepted with ⟨octets, read, accepted⟩
  rcases Outcome.bind_eq_ok.mp accepted with ⟨left, assigned, accepted⟩
  obtain rfl : _ = left := by simpa using assigned
  obtain rfl : _ = parsed := Outcome.ok.inj accepted
  rw [keepsCount_lengthAfter_iff header small (length_drop_add read)]
  simp [AsnParser.Counts, header.object]

theorem asnParseObjid_counts {objidlength : Nat} {parsed : Parsed Oid}
    (accepted : (asnParseObjid data datalength objidlength).outcome = .ok parsed) :
    KeepsCount data datalength parsed.next parsed.left ↔
      (AsnParser.objid objidlength).Counts data := by
  rcases header_of_checked accepted with ⟨type, length, bufp, header, -, accepted⟩
  simp only [outcome_bind] at accepted
  rcases Outcome.bind_eq_ok.mp accepted with ⟨left, assigned, accepted⟩
  rcases Outcome.bind_eq_ok.mp accepted with ⟨⟨bufp', length', objid⟩, loop, accepted⟩
  rcases Outcome.bind_eq_ok.mp accepted with ⟨_, ended, accepted⟩
  obtain rfl : length' = 0 := not_not.mp (outcome_failIf_eq_ok.mp ended)
  obtain rfl : _ = left := by simpa using assigned
  have next_length : bufp'.length + length = bufp.length := asnParseSubids_counts loop
  have kept := keepsCount_lengthAfter_iff header small next_length
  have counts : (AsnParser.objid objidlength).Counts data ↔ length < 2 ^ 31 := by
    simp [AsnParser.Counts, header.object]
  rw [counts]
  cases objid with
  | nil =>
      obtain rfl : _ = parsed := Outcome.ok.inj accepted
      exact kept
  | cons first rest =>
      obtain rfl : _ = parsed := Outcome.ok.inj accepted
      exact kept

end Decoders

theorem asnParseInt64Octets_accepted {signed : Bool} {object : Parsed Nat}
    {parsed : Parsed (Nat × Nat)}
    (accepted : (asnParseInt64Octets signed data object).outcome = .ok parsed) :
    parsed.next.length + object.value = object.next.length ∧
      parsed.left = lengthAfter object.left object.value data object.next := by
  rcases object with ⟨bufp, outer, type, length⟩
  simp only [asnParseInt64Octets, outcome_bind] at accepted
  rcases Outcome.bind_eq_ok.mp accepted with ⟨_, -, accepted⟩
  rcases Outcome.bind_eq_ok.mp accepted with ⟨_, -, accepted⟩
  rcases Outcome.bind_eq_ok.mp accepted with ⟨left, assigned, accepted⟩
  rcases Outcome.bind_eq_ok.mp accepted with ⟨start, -, accepted⟩
  rcases Outcome.bind_eq_ok.mp accepted with ⟨octets, read, accepted⟩
  obtain rfl : _ = left := by simpa using assigned
  obtain rfl : _ = parsed := Outcome.ok.inj accepted
  exact ⟨length_drop_add read, rfl⟩

theorem asnParseOpaqueTag_accepted {fits : Bool} {isTag : Byte → Bool} {type : Byte} {bufp : Ptr}
    {datalength length : Nat} {object : Parsed Nat}
    (accepted : (asnParseOpaqueTag fits isTag type bufp datalength length).outcome = .ok object) :
    (object = ⟨bufp, datalength, type, length⟩ ∧
      ¬ (type = asnOpaque ∧ fits = true ∧
        ∃ tag, bufp.take 2 = [asnOpaqueTag1, tag] ∧ isTag tag = true)) ∨
    (type = asnOpaque ∧ fits = true ∧
      (∃ tag, bufp.take 2 = [asnOpaqueTag1, tag] ∧ isTag tag = true) ∧ object.left = length ∧
      object.next.length ≤ bufp.length ∧ object.value ≤ toSizeT ((length : Int) - 2)) := by
  by_cases tried : type = asnOpaque ∧ fits = true
  · rw [asnParseOpaqueTag, if_pos tried, outcome_bind] at accepted
    rcases Outcome.bind_eq_ok.mp accepted with ⟨tag1, read, accepted⟩
    have head := outcome_deref_eq_ok.mp read
    rw [outcome_ite] at accepted
    by_cases isTag1 : tag1 = asnOpaqueTag1
    · rw [if_pos isTag1, outcome_bind] at accepted
      rcases Outcome.bind_eq_ok.mp accepted with ⟨tag, read', accepted⟩
      have second := outcome_deref_eq_ok.mp read'
      rw [outcome_ite] at accepted
      match bufp, head, second with
      | first :: second' :: rest, head, second =>
          obtain rfl : first = tag1 := by simpa using head
          obtain rfl : second' = tag := by simpa using second
          by_cases special : isTag second' = true
          · right
            rw [if_pos special] at accepted
            simp only [outcome_bind] at accepted
            rcases Outcome.bind_eq_ok.mp accepted with ⟨outer, assigned, accepted⟩
            rcases Outcome.bind_eq_ok.mp accepted with ⟨⟨inner, value⟩, header, accepted⟩
            obtain rfl : _ = outer := by simpa using assigned
            obtain rfl : _ = object := Outcome.ok.inj accepted
            rcases asnParseNlength_eq_ok_iff.mp header with ⟨field, lengthField, rest_eq, fits'⟩
            obtain rfl : rest = field ++ inner := by simpa using rest_eq
            refine ⟨tried.1, tried.2, ⟨second', by simp [isTag1], special⟩, rfl, ?_, ?_⟩
            · simp only [List.length_cons, List.length_append]
              omega
            · exact le_trans (Nat.le_add_left _ _) fits'
          · left
            rw [if_neg special] at accepted
            obtain rfl : _ = object := Outcome.ok.inj accepted
            refine ⟨rfl, ?_⟩
            rintro ⟨-, -, tag, tags, isTag_eq⟩
            obtain rfl : second' = tag := by simpa [isTag1] using tags
            exact special isTag_eq
    · left
      rw [if_neg isTag1] at accepted
      obtain rfl : _ = object := Outcome.ok.inj accepted
      refine ⟨rfl, ?_⟩
      rintro ⟨-, -, tag, tags, -⟩
      cases bufp with
      | nil => exact absurd tags (by simp)
      | cons first rest =>
          obtain rfl : first = tag1 := by simpa using head
          simp only [List.take_succ_cons, List.cons.injEq] at tags
          exact isTag1 tags.1
  · left
    rw [asnParseOpaqueTag, if_neg tried] at accepted
    obtain rfl : _ = object := Outcome.ok.inj accepted
    exact ⟨rfl, fun ⟨isOpaque, fits', _⟩ => tried ⟨isOpaque, fits'⟩⟩

theorem not_keepsCount {data inner next : Ptr} {datalength outer value advanced : Nat}
    (small : datalength < 2 ^ 64) (short : value < 2 ^ 31)
    (next_length : next.length + advanced = inner.length)
    (value_le : value ≤ outer + advanced)
    (less : outer + advanced < datalength + value) :
    ¬ KeepsCount data datalength next (lengthAfter outer value data inner) := by
  have left_eq : lengthAfter outer value data inner =
      (((outer : Int) - (value + ((data.length : Int) - inner.length))) % 2 ^ 64).toNat := by
    rw [lengthAfter, toCInt_eq_self short]
    rfl
  rintro ⟨behind, count⟩
  rw [left_eq] at count
  omega

section Wrapped

variable {data : Ptr} {datalength : Nat} (small : datalength < 2 ^ 64)

include small

theorem asnParseUnsignedInt64_counts {parsed : Parsed (Nat × Nat)}
    (accepted : (asnParseUnsignedInt64 data datalength).outcome = .ok parsed) :
    KeepsCount data datalength parsed.next parsed.left ↔
      AsnParser.unsignedInt64.Counts data := by
  rcases header_of_checked accepted with ⟨type, length, bufp, header, -, accepted⟩
  simp only [outcome_bind] at accepted
  rcases Outcome.bind_eq_ok.mp accepted with ⟨_, long, accepted⟩
  rcases Outcome.bind_eq_ok.mp accepted with ⟨object, wrapper, accepted⟩
  have long := outcome_failIf_eq_ok.mp long
  rcases asnParseInt64Octets_accepted accepted with ⟨next_length, left_eq⟩
  have wraps_iff : WrapsUnsigned type length bufp ↔
      type = asnOpaque ∧ decide (length ≤ asnOpaqueCounter64MxBerLen) = true ∧
        ∃ tag, bufp.take 2 = [asnOpaqueTag1, tag] ∧
          (decide (tag = asnOpaqueCounter64) || decide (tag = asnOpaqueU64)) = true := by
    simp [WrapsUnsigned]
  have counts : AsnParser.unsignedInt64.Counts data ↔
      length < 2 ^ 31 ∧ ¬ WrapsUnsigned type length bufp := by
    simp [AsnParser.Counts, header.object]
  rw [counts, wraps_iff, left_eq]
  rcases asnParseOpaqueTag_accepted wrapper with
    ⟨rfl, plain⟩ | ⟨isOpaque, fits, special, outer_eq, behind, value_le⟩
  · rw [keepsCount_lengthAfter_iff header small next_length]
    exact ⟨fun short => ⟨short, plain⟩, And.left⟩
  · have outer_le : length ≤ 12 := of_decide_eq_true fits
    have outer_ge : 2 ≤ length := by
      by_contra less
      exact long ⟨isOpaque, not_le.mp less⟩
    have fits' := header.fits
    have behind' := header.behind
    unfold toSizeT at value_le
    apply iff_of_false
    · rw [outer_eq]
      exact not_keepsCount small (by omega) next_length (by omega) (by omega)
    · rintro ⟨-, plain⟩
      exact plain ⟨isOpaque, fits, special⟩

theorem asnParseSignedInt64_counts {parsed : Parsed (Nat × Nat)}
    (accepted : (asnParseSignedInt64 data datalength).outcome = .ok parsed) :
    KeepsCount data datalength parsed.next parsed.left ↔
      AsnParser.signedInt64.Counts data := by
  rcases header_of_accepted accepted with ⟨type, length, bufp, header, accepted⟩
  simp only [outcome_bind] at accepted
  rcases Outcome.bind_eq_ok.mp accepted with ⟨_, long, accepted⟩
  rcases Outcome.bind_eq_ok.mp accepted with ⟨tag1, read1, accepted⟩
  rcases Outcome.bind_eq_ok.mp accepted with ⟨tag, read, accepted⟩
  rcases Outcome.bind_eq_ok.mp accepted with ⟨_, wrapped, accepted⟩
  rcases Outcome.bind_eq_ok.mp accepted with ⟨outer, assigned, accepted⟩
  rcases Outcome.bind_eq_ok.mp accepted with ⟨⟨inner, value⟩, header', accepted⟩
  have long := outcome_failIf_eq_ok.mp long
  have wrapped := not_not.mp (outcome_failIf_eq_ok.mp wrapped)
  obtain rfl : _ = outer := by simpa using assigned
  rcases asnParseNlength_eq_ok_iff.mp header' with ⟨field, lengthField, rest_eq, fits'⟩
  rcases asnParseInt64Octets_accepted accepted with ⟨next_length, left_eq⟩
  have outer_le : length ≤ 12 := wrapped.2.1
  have fits := header.fits
  have behind := header.behind
  unfold toSizeT at fits'
  have short : value < 2 ^ 31 := by omega
  have less : length + value < datalength + value := by omega
  apply iff_of_false
  · rw [left_eq]
    exact not_keepsCount small short next_length (Nat.le_add_left _ _) less
  · simp [AsnParser.Counts]

theorem asnParseOpaqueBits_counts {special : Byte} {berLen size minimum : Nat}
    {parsed : Parsed Nat} (pos : 0 < size) (size_le : size ≤ berLen) (short : size < 2 ^ 31)
    (accepted : (asnParseOpaqueBits special berLen size minimum data datalength).outcome =
      .ok parsed) :
    ¬ KeepsCount data datalength parsed.next parsed.left := by
  rcases header_of_accepted accepted with ⟨type, length, bufp, header, accepted⟩
  simp only [outcome_bind] at accepted
  rcases Outcome.bind_eq_ok.mp accepted with ⟨_, -, accepted⟩
  rcases Outcome.bind_eq_ok.mp accepted with ⟨object, wrapper, accepted⟩
  rcases Outcome.bind_eq_ok.mp accepted with ⟨_, -, accepted⟩
  rcases Outcome.bind_eq_ok.mp accepted with ⟨_, sized, accepted⟩
  rcases Outcome.bind_eq_ok.mp accepted with ⟨left, assigned, accepted⟩
  rcases Outcome.bind_eq_ok.mp accepted with ⟨octets, read, accepted⟩
  have value_eq : object.value = size := not_not.mp (outcome_failIf_eq_ok.mp sized)
  obtain rfl : _ = left := by simpa using assigned
  obtain rfl : _ = parsed := Outcome.ok.inj accepted
  have fits := header.fits
  have behind := header.behind
  rw [value_eq]
  rcases asnParseOpaqueTag_accepted wrapper with
    ⟨rfl, -⟩ | ⟨-, isLength, -, outer_eq, -, -⟩
  · have length_eq : length = size := value_eq
    have value_le : size ≤ datalength + 0 := by omega
    have less : datalength + 0 < datalength + size := by omega
    exact not_keepsCount small short (Nat.add_zero _) value_le less
  · have length_eq : length = berLen := of_decide_eq_true isLength
    rw [outer_eq]
    exact not_keepsCount small short (Nat.add_zero _) (by omega) (by omega)

/-- A decoder that accepts an object counts its bytes exactly when the object is not in the special
wrapper, is no floating-point number, and is not too long for the conversion to `int`. -/
theorem run_keepsCount_iff {parser : AsnParser} {next : Ptr} {left : Nat}
    (accepted : (parser.run data datalength).outcome = .ok (next, left)) :
    KeepsCount data datalength next left ↔ parser.Counts data := by
  have progressed {α : Type} {decoder : Reader (Parsed α)}
      (accepted : (progress decoder).outcome = .ok (next, left)) :
      ∃ parsed, decoder.outcome = .ok parsed ∧ parsed.next = next ∧ parsed.left = left := by
    rw [progress, outcome_bind] at accepted
    rcases Outcome.bind_eq_ok.mp accepted with ⟨parsed, decoded, same⟩
    rcases Prod.mk.inj (Outcome.ok.inj same) with ⟨next_eq, left_eq⟩
    exact ⟨parsed, decoded, next_eq, left_eq⟩
  rcases parser with _ | _ | _ | _ | _ | _ | _ | _ | _ | _
  all_goals rcases progressed accepted with ⟨parsed, decoded, rfl, rfl⟩
  · exact asnParseInt_counts small decoded
  · exact asnParseUnsignedInt_counts small decoded
  · exact asnParseString_counts small decoded
  · exact asnParseObjid_counts small decoded
  · exact asnParseNull_counts small decoded
  · exact asnParseBitstring_counts small decoded
  · exact asnParseUnsignedInt64_counts small decoded
  · exact asnParseSignedInt64_counts small decoded
  · apply iff_of_false
    · exact asnParseOpaqueBits_counts small (by decide) (by decide) (by decide) decoded
    · simp [AsnParser.Counts]
  · apply iff_of_false
    · exact asnParseOpaqueBits_counts small (by decide) (by decide) (by decide) decoded
    · simp [AsnParser.Counts]

end Wrapped

theorem run_keepsCount_of_int :
    (AsnParser.int.run [0x02, 1, 5, 0x05] 4).outcome = .ok ([0x05], 1) ∧
      KeepsCount [0x02, 1, 5, 0x05] 4 [0x05] 1 := by
  have accepted : (AsnParser.int.run [0x02, 1, 5, 0x05] 4).outcome = .ok ([0x05], 1) := by
    decide +kernel
  have counts : AsnParser.int.Counts [0x02, 1, 5, 0x05] := ⟨0x02, 1, [5, 0x05], by decide, trivial⟩
  exact ⟨accepted, (run_keepsCount_iff (by decide) accepted).mpr counts⟩

/-- Six bytes of a wrapped counter are decoded, and the count wraps around. -/
theorem not_keepsCount_of_wrapped :
    (AsnParser.unsignedInt64.run [0x44, 4, 0x9f, 0x76, 1, 5] 6).outcome =
      .ok ([], 18446744073709551614) ∧
      ¬ KeepsCount [0x44, 4, 0x9f, 0x76, 1, 5] 6 [] 18446744073709551614 := by
  refine ⟨by decide +kernel, ?_⟩
  rintro ⟨-, count⟩
  exact absurd count (by decide)

end NetSnmp
