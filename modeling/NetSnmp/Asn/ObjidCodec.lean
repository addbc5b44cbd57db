import NetSnmp.Asn.LengthCodec

/-!
# Object identifiers, written and read back

Both encoders write the shortest encoding of an object identifier, the decoder
reads it back, and whatever else the decoder accepts stays within the limits of
an object identifier.
-/

namespace NetSnmp

open Ber Reader

theorem subids_of_asnParseSubids {objidlength length length' : Nat} {bufp bufp' : Ptr}
    {objid : Oid}
    (parsed : (asnParseSubids objidlength length bufp).outcome = .ok (bufp', length', objid)) :
    objid.length ≤ objidlength ∧ ∀ subid ∈ objid, subid ≤ maxSubid := by
  induction objidlength generalizing length length' bufp bufp' objid with
  | zero =>
      obtain ⟨-, -, rfl⟩ : bufp = bufp' ∧ length = length' ∧ [] = objid := by
        simpa [asnParseSubids] using parsed
      simp
  | succ objidlength ih =>
      rcases asnParseSubids_succ parsed with ⟨-, -, rfl⟩ | ⟨subid, more, -, small, later, rfl⟩
      · simp
      · rcases ih later with ⟨length_le, subids⟩
        constructor
        · simpa using length_le
        · intro subid' mem
          rcases List.mem_cons.mp mem with rfl | mem
          · exact small
          · exact subids subid' mem

theorem splitFirst_spec {subidentifier : Nat} (small : subidentifier ≤ maxSubid) :
    (splitFirst subidentifier).length = 2 ∧
      ∀ subid ∈ splitFirst subidentifier, subid ≤ maxSubid := by
  unfold maxSubid at small
  unfold splitFirst maxSubid
  split
  · simp
  · split
    · simp
      omega
    · split
      · simp
        omega
      · simp
        omega

theorem oid_of_asnParseObjid {data : Ptr} {datalength objidlength : Nat} {parsed : Parsed Oid}
    (room : 2 ≤ objidlength)
    (accepted : (asnParseObjid data datalength objidlength).outcome = .ok parsed) :
    parsed.value.length ≤ objidlength ∧ ∀ subid ∈ parsed.value, subid ≤ maxSubid := by
  simp only [asnParseObjid, outcome_within, outcome_bind] at accepted
  rcases Outcome.bind_eq_ok.mp accepted with ⟨-, -, accepted⟩
  rcases Outcome.bind_eq_ok.mp accepted with ⟨type, -, accepted⟩
  rcases Outcome.bind_eq_ok.mp accepted with ⟨-, -, accepted⟩
  rcases Outcome.bind_eq_ok.mp accepted with ⟨⟨bufp, asnLength⟩, -, accepted⟩
  rcases Outcome.bind_eq_ok.mp accepted with ⟨left, -, accepted⟩
  rcases Outcome.bind_eq_ok.mp accepted with ⟨⟨bufp', length, objid⟩, loop, accepted⟩
  rcases Outcome.bind_eq_ok.mp accepted with ⟨-, -, accepted⟩
  rcases subids_of_asnParseSubids loop with ⟨length_le, subids⟩
  cases objid with
  | nil =>
      obtain rfl : _ = parsed := Outcome.ok.inj accepted
      constructor
      · simpa using by omega
      · simp
  | cons first rest =>
      obtain rfl : _ = parsed := Outcome.ok.inj accepted
      rcases splitFirst_spec (subids first (List.mem_cons_self)) with ⟨two, split⟩
      constructor
      · rw [List.length_cons] at length_le
        rw [List.length_append, two]
        omega
      · intro subid mem
        rcases List.mem_append.mp mem with mem | mem
        · exact split subid mem
        · exact subids subid (List.mem_cons_of_mem _ mem)

/-- The encoders agree on every object identifier within the limits and the decoder reads back what
they write; whatever else it accepts is within the limits on subidentifiers, too. -/
theorem objidCodec :
    (∀ name, EncodableOid name → ∃ bytes : Byte → List Byte,
      (∀ type buf, asnBuildObjid buf type name = buf.append (bytes type)) ∧
      (∀ type buf, ∃ buf', asnReallocRbuildObjid true buf type name = some buf') ∧
      (∀ type r buf buf', asnReallocRbuildObjid r buf type name = some buf' →
        buf'.written = bytes type ++ buf.written) ∧
      ∀ rest datalength, (bytes asnObjectId).length ≤ datalength → datalength < 2 ^ 64 →
        (asnParseObjid (bytes asnObjectId ++ rest) datalength maxOidLen).outcome =
          .ok ⟨rest, datalength - (bytes asnObjectId).length, asnObjectId, name⟩) ∧
    ∀ data datalength parsed,
      (asnParseObjid data datalength maxOidLen).outcome = .ok parsed →
        parsed.value.length ≤ maxOidLen ∧ ∀ subid ∈ parsed.value, subid ≤ maxSubid := by
  constructor
  · intro name encodable
    have short := length_oidContents_le encodable
    have same (type : Byte) : builtObject type (oidContents name) =
        object type (oidContents name) := builtObject_eq_object (by omega)
    refine ⟨fun type => object type (oidContents name), ?_, ?_, ?_, ?_⟩
    · intro type buf
      change asnBuildObjid buf type name = buf.append (object type (oidContents name))
      rw [← same type]
      exact appends_asnBuildObjid type encodable buf
    · intro type buf
      rcases wrote_asnReallocRbuildObjid type encodable buf with ⟨buf', result, -⟩
      exact ⟨buf', result⟩
    · intro type r buf buf' result
      exact (same_asnReallocRbuildObjid buf type name).written_eq
        (wrote_asnReallocRbuildObjid type encodable buf) result
    · intro rest datalength fits small
      have encodes : Encodes asnObjectId (oidContents name)
          (object asnObjectId (oidContents name)) := encodes_object (by omega)
      rw [outcome_asnParseObjid encodes encodable (by omega) rest datalength small, if_pos fits]
  · intro data datalength parsed accepted
    exact oid_of_asnParseObjid (by decide) accepted

end NetSnmp
