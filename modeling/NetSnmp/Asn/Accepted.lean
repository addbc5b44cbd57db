import NetSnmp.Asn.Decode

/-!
# What the decoders accept

The other direction: an object that a decoder accepts is a tag, a length field
and contents that fit into the size it was told.
-/

namespace NetSnmp

open Reader Ber

theorem outcome_deref_eq_ok {pointer : Ptr} {byte : Byte} :
    (deref pointer).outcome = .ok byte ↔ pointer.head? = some byte := by
  cases pointer <;> simp

theorem outcome_failIf_eq_ok {condition : Prop} [Decidable condition] {ended : Unit} :
    (failIf condition).outcome = .ok ended ↔ ¬ condition := by
  rw [outcome_failIf]
  split <;> simp_all

theorem outcome_readBytes_eq_ok {length : Nat} {pointer : Ptr} {bytes : List Byte} :
    (readBytes length pointer).outcome = .ok bytes ↔
      length ≤ pointer.length ∧ bytes = pointer.take length := by
  induction length generalizing pointer bytes with
  | zero => simp [readBytes, eq_comm]
  | succ length ih =>
      cases pointer with
      | nil => simp [readBytes]
      | cons byte rest =>
          simp only [readBytes, outcome_bind, outcome_deref_cons, Outcome.bind_ok, List.drop_one,
            List.tail_cons, List.take_succ_cons, List.length_cons, Nat.add_le_add_iff_right,
            Outcome.bind_eq_ok, outcome_pure, Outcome.ok.injEq]
          constructor
          · rintro ⟨bytes', read, rfl⟩
            rcases ih.mp read with ⟨le, rfl⟩
            exact ⟨le, rfl⟩
          · rintro ⟨le, rfl⟩
            exact ⟨rest.take length, ih.mpr ⟨le, rfl⟩, rfl⟩

theorem outcome_readBytes_of_short {length : Nat} {pointer : Ptr}
    (short : pointer.length < length) : (readBytes length pointer).outcome = .fault := by
  induction length generalizing pointer with
  | zero => exact absurd short (Nat.not_lt_zero _)
  | succ length ih =>
      cases pointer with
      | nil => simp [readBytes]
      | cons byte rest =>
          have rest_short : rest.length < length := by simpa using short
          simp [readBytes, ih rest_short]

theorem toNat_and_127_of_long {count : Byte} (long : hasBit8 count = true) :
    count.toNat = 128 + (count &&& 0x7f).toNat := by
  rw [hasBit8_eq] at long
  have low : (count &&& 0x7f).toNat = count.toNat % 128 := toNat_and_127 count
  have top : 128 ≤ count.toNat := by simpa [Octets.topBit] using long
  have small := count.toNat_lt
  omega

theorem asnParseLength_eq_ok_iff {data bufp : Ptr} {length : Nat} :
    (asnParseLength data).outcome = .ok (bufp, length) ↔
      ∃ field, LengthField field length ∧ data = field ++ bufp := by
  constructor
  · intro parsed
    cases data with
    | nil => simp [asnParseLength] at parsed
    | cons count rest =>
        rw [asnParseLength, outcome_bind, outcome_deref_cons, Outcome.bind_ok, outcome_ite]
          at parsed
        by_cases long : hasBit8 count = true
        · rw [if_pos long] at parsed
          simp only [outcome_bind] at parsed
          rcases Outcome.bind_eq_ok.mp parsed with ⟨_, definite, parsed⟩
          rcases Outcome.bind_eq_ok.mp parsed with ⟨_, width, parsed⟩
          rcases Outcome.bind_eq_ok.mp parsed with ⟨octets, read, parsed⟩
          rcases Outcome.bind_eq_ok.mp parsed with ⟨_, nonneg, parsed⟩
          have count_eq := toNat_and_127_of_long long
          have width := outcome_failIf_eq_ok.mp width
          have nonneg := outcome_failIf_eq_ok.mp nonneg
          rcases outcome_readBytes_eq_ok.mp read with ⟨inside, octets_eq⟩
          have length_octets : octets.length = (count &&& 0x7f).toNat := by
            rw [octets_eq, List.length_take]
            omega
          have nonempty : octets ≠ [] := by
            intro empty
            apply outcome_failIf_eq_ok.mp definite
            apply UInt8.toNat_inj.mp
            rw [← length_octets, empty]
            rfl
          have value_eq : octets.foldl (fun length octet => length * 256 + octet.toNat) 0 =
              Octets.beNat octets := by
            rw [Octets.foldl_shift]
            simp
          rw [value_eq] at nonneg parsed
          obtain ⟨rfl, rfl⟩ : rest.drop (count &&& 0x7f).toNat = bufp ∧
              Octets.beNat octets = length := by
            rw [Nat.add_comm 1] at parsed
            simpa using parsed
          refine ⟨count :: octets, .long (by rw [length_octets, count_eq]) nonempty ?_ ?_, ?_⟩
          · unfold sizeofLong at width
            omega
          · have bound := Octets.beNat_lt octets
            have bound' : (256 : Nat) ^ octets.length ≤ 256 ^ 8 := by
              apply Nat.pow_le_pow_right (by decide)
              unfold sizeofLong at width
              omega
            unfold toCLong signedOfBits at nonneg
            split at nonneg <;> omega
          · rw [octets_eq, List.cons_append]
            simp
        · rw [if_neg long, outcome_pure] at parsed
          obtain ⟨rfl, rfl⟩ : rest = bufp ∧ count.toNat = length := by simpa using parsed
          have small : count.toNat < 128 := by
            simpa [hasBit8_eq, Octets.topBit] using long
          exact ⟨[count], .short count small, rfl⟩
  · rintro ⟨field, lengthField, rfl⟩
    cases lengthField with
    | short octet small =>
        have top : hasBit8 octet = false := by
          rw [hasBit8_eq]
          simpa [Octets.topBit] using small
        simp [asnParseLength, top]
    | long count_eq nonempty width positive =>
        exact outcome_asnParseLength_long bufp count_eq nonempty width positive

theorem asnParseNlength_eq_ok_iff {pkt bufp : Ptr} {pktLen length : Nat} :
    (asnParseNlength pkt pktLen).outcome = .ok (bufp, length) ↔
      ∃ field, LengthField field length ∧ pkt = field ++ bufp ∧
        field.length + length ≤ pktLen := by
  constructor
  · intro parsed
    have accepted : ∃ field length', LengthField field length' ∧ ∃ rest, pkt = field ++ rest := by
      simp only [asnParseNlength, outcome_within, outcome_bind] at parsed
      rcases Outcome.bind_eq_ok.mp parsed with ⟨_, -, parsed⟩
      rcases Outcome.bind_eq_ok.mp parsed with ⟨first, deref_eq, parsed⟩
      rw [outcome_ite] at parsed
      split at parsed
      · simp only [outcome_bind] at parsed
        rcases Outcome.bind_eq_ok.mp parsed with ⟨_, -, parsed⟩
        rcases Outcome.bind_eq_ok.mp parsed with ⟨⟨rest, length'⟩, inner, -⟩
        rcases asnParseLength_eq_ok_iff.mp inner with ⟨field, lengthField, pkt_eq⟩
        exact ⟨field, length', lengthField, rest, pkt_eq⟩
      · rename_i short
        have small : first.toNat < 128 := by
          simpa [hasBit8_eq, Octets.topBit] using short
        refine ⟨[first], first.toNat, .short first small, pkt.tail, ?_⟩
        have head := outcome_deref_eq_ok.mp deref_eq
        cases pkt with
        | nil => exact absurd head (by simp)
        | cons octet rest =>
            obtain rfl : octet = first := by simpa using head
            rfl
    rcases accepted with ⟨field, length', lengthField, rest, rfl⟩
    rw [outcome_asnParseNlength rest lengthField] at parsed
    split at parsed
    · rename_i fits
      obtain ⟨rfl, rfl⟩ : rest = bufp ∧ length' = length := by simpa using parsed
      exact ⟨field, lengthField, rfl, fits⟩
    · exact absurd parsed (by simp)
  · rintro ⟨field, lengthField, rfl, fits⟩
    rw [outcome_asnParseNlength bufp lengthField, if_pos fits]

theorem asnParseSubids_succ {objidlength length length' : Nat} {bufp bufp' : Ptr} {objid : Oid}
    (parsed : (asnParseSubids (objidlength + 1) length bufp).outcome =
      .ok (bufp', length', objid)) :
    (bufp = bufp' ∧ length = length' ∧ [] = objid) ∨
      ∃ subid more, (asnParseSubid length bufp 0).outcome = .ok subid ∧
        subid.subidentifier ≤ maxSubid ∧
        (asnParseSubids objidlength subid.length subid.bufp).outcome =
          .ok (bufp', length', more) ∧ subid.subidentifier :: more = objid := by
  rw [asnParseSubids, outcome_ite] at parsed
  by_cases stop : length = 0
  · left
    simpa [stop, eq_comm] using parsed
  · right
    rw [if_neg stop, outcome_bind] at parsed
    rcases Outcome.bind_eq_ok.mp parsed with ⟨subid, read, parsed⟩
    -- the test of the last byte only rejects
    have parsed' : (failIf (maxSubid < subid.subidentifier) >>= fun _ =>
        asnParseSubids objidlength subid.length subid.bufp >>= fun ending =>
          pure (ending.1, ending.2.1, subid.subidentifier :: ending.2.2)).outcome =
        .ok (bufp', length', objid) := by
      split at parsed
      · rw [outcome_bind] at parsed
        rcases Outcome.bind_eq_ok.mp parsed with ⟨octet, -, parsed⟩
        change (failIf (hasBit8 octet = true) >>= _).outcome = _ at parsed
        rw [outcome_bind] at parsed
        rcases Outcome.bind_eq_ok.mp parsed with ⟨_, -, parsed⟩
        exact parsed
      · exact parsed
    simp only [outcome_bind] at parsed'
    rcases Outcome.bind_eq_ok.mp parsed' with ⟨_, checked, parsed'⟩
    rcases Outcome.bind_eq_ok.mp parsed' with ⟨⟨bufp'', length'', more⟩, later, parsed'⟩
    obtain ⟨rfl, rfl, objid_eq⟩ : bufp'' = bufp' ∧ length'' = length' ∧
        subid.subidentifier :: more = objid := by
      simpa using parsed'
    exact ⟨subid, more, read, not_lt.mp (outcome_failIf_eq_ok.mp checked), later, objid_eq⟩

end NetSnmp
