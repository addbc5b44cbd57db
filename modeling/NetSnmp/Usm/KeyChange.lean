import NetSnmp.Reader.Basic

/-!
# Key changes

How a new key is encoded under the old one with a random component and a hash function, and how
it is decoded on the other side.
-/

namespace NetSnmp

namespace KeyChange

abbrev snmpMaxbufSmall : Nat := 512

abbrev snmpMaxbuf : Nat := 4096

abbrev snmperrSuccess : Int := 0

abbrev snmperrGenerr : Int := -1

/-- The hash function of an authentication protocol, with the length of its digests. -/
structure AuthHash where
  digest : List Byte → List Byte
  length : Nat
  length_digest : ∀ buf, (digest buf).length = length

/-- `sc_hash`, with the length of the buffer for the digest. -/
def scHash (hashtype : AuthHash) (buf : List Byte) (macLen : Nat) : Option (List Byte) :=
  if buf.length = 0 ∨ macLen < hashtype.length then none else some (hashtype.digest buf)

/-- `memcpy` to a place in a buffer. Behind the end of the buffer its behaviour is undefined. -/
def memcpy (buf : List Byte) (place : Nat) (src : List Byte) : Option (List Byte) :=
  if place + src.length ≤ buf.length then
    some (buf.take place ++ (src ++ buf.drop (place + src.length)))
  else none

/-- The inner loops: so many octets of a digest are combined with those of a key, up to the length
of the key. -/
def xorLoop (tmpbuf key : List Byte) (keyLen : Nat) :
    (digestLen : Nat) → (out : List Byte) → (place tmpp : Nat) → Option (List Byte × Nat × Nat)
  | 0, out, place, tmpp => some (out, place, tmpp)
  | digestLen + 1, out, place, tmpp =>
      if place < keyLen then
        match tmpbuf[tmpp]?, key[place]? with
        | some octet, some octet' =>
            (memcpy out place [octet ^^^ octet']).bind fun out =>
              xorLoop tmpbuf key keyLen digestLen out (place + 1) (tmpp + 1)
        | _, _ => none
      else some (out, place, tmpp)

/-- The variables of `encode_keychange`. -/
structure EncodeState where
  tmpbuf : List Byte
  tmpLen : Nat
  tmpp : Nat
  delta : List Byte
  deltaLen : Nat

/-- The loop of `encode_keychange`. It is left without a state if the hash fails, and has no result
if it needs more passes. -/
def encodeLoop (hashtype : AuthHash) (random newkey : List Byte) :
    Nat → EncodeState → Option (Option EncodeState)
  | 0, _ => none
  | passes + 1, state =>
      if state.deltaLen < newkey.length then
        (memcpy state.tmpbuf state.tmpp random).bind fun tmpbuf =>
          match scHash hashtype (tmpbuf.take (state.tmpLen + random.length)) snmpMaxbufSmall with
          | none => some none
          | some digest =>
              (memcpy tmpbuf 0 digest).bind fun tmpbuf =>
                (xorLoop tmpbuf newkey newkey.length digest.length state.delta state.deltaLen
                  0).bind fun (delta, deltaLen, tmpp) =>
                    encodeLoop hashtype random newkey passes
                      { tmpbuf, tmpLen := digest.length, tmpp, delta, deltaLen }
      else some (some state)

/-- `encode_keychange`: the return value, and `kcstring` with its length. There is no `hashtype`
for an unknown one, and no random component if `sc_random` fails. Each pass of the loop stores an
octet at least, unless digests are empty and it does not end. -/
def encodeKeychange (hashtype : Option AuthHash) (scRandom : Option (List Byte))
    (oldkey newkey kcstring : List Byte) : Option (Int × List Byte × Nat) :=
  let quit : Int × List Byte × Nat :=
    (snmperrGenerr, List.replicate kcstring.length 0, kcstring.length)
  if oldkey.length ≠ newkey.length ∨ newkey.length = 0 ∨ kcstring.length < 2 * newkey.length then
    some quit
  else
    match hashtype, scRandom with
    | some hashtype, some random =>
        if random.length ≠ oldkey.length then some quit
        else
          (memcpy (List.replicate snmpMaxbufSmall 0) 0 oldkey).bind fun tmpbuf =>
            (encodeLoop hashtype random newkey (newkey.length + 1)
              { tmpbuf
                tmpLen := oldkey.length
                tmpp := oldkey.length
                delta := List.replicate snmpMaxbufSmall 0
                deltaLen := 0 }).bind fun
              | none => some quit
              | some state =>
                  (memcpy kcstring 0 random).bind fun kcstring =>
                    (memcpy kcstring random.length (state.delta.take state.deltaLen)).map
                      fun kcstring =>
                        (snmperrSuccess, kcstring, random.length + state.deltaLen)
    | _, _ => some quit

/-- The variables of `decode_keychange`. -/
structure DecodeState where
  tmpbuf : List Byte
  tmpbufLen : Nat
  newkey : List Byte
  deltaLen : Nat

/-- The loop of `decode_keychange`. A digest that is longer than the key is truncated. -/
def decodeLoop (hashtype : AuthHash) (kcstring : List Byte) (keyLen : Nat) :
    Nat → DecodeState → Option (Option DecodeState)
  | 0, _ => none
  | passes + 1, state =>
      if state.deltaLen < keyLen then
        (memcpy state.tmpbuf state.tmpbufLen (kcstring.take keyLen)).bind fun tmpbuf =>
          match scHash hashtype (tmpbuf.take (state.tmpbufLen + keyLen)) snmpMaxbuf with
          | none => some none
          | some hash =>
              let hashLen := if hash.length > keyLen then keyLen else hash.length
              (memcpy tmpbuf 0 (hash.take hashLen)).bind fun tmpbuf =>
                (xorLoop tmpbuf (kcstring.drop keyLen) keyLen hashLen state.newkey state.deltaLen
                  0).bind fun (newkey, deltaLen, _) =>
                    decodeLoop hashtype kcstring keyLen passes
                      { tmpbuf, tmpbufLen := hashLen, newkey, deltaLen }
      else some (some state)

/-- `decode_keychange`: the return value, and `newkey` with its length. If the hash fails, the new
key is overwritten with zeros. -/
def decodeKeychange (hashtype : Option AuthHash) (oldkey kcstring newkey : List Byte) :
    Option (Int × List Byte × Nat) :=
  let quit : Int × List Byte × Nat := (snmperrGenerr, newkey, newkey.length)
  if oldkey.length = 0 ∨ kcstring.length = 0 ∨ newkey.length = 0 then some quit
  else
    match hashtype with
    | none => some quit
    | some hashtype =>
        if oldkey.length * 2 ≠ kcstring.length ∨ newkey.length < oldkey.length then some quit
        else
          let keyLen := oldkey.length
          (memcpy (List.replicate (keyLen * 2) 0) 0 oldkey).bind fun tmpbuf =>
            (decodeLoop hashtype kcstring keyLen (keyLen + 1)
              { tmpbuf, tmpbufLen := keyLen, newkey, deltaLen := 0 }).bind fun
              | none =>
                  (memcpy newkey 0 (List.replicate keyLen 0)).map fun newkey =>
                    (snmperrGenerr, newkey, keyLen)
              | some state => some (snmperrSuccess, state.newkey, keyLen)

structure DecodableLengths (oldkey kcstring newkey : List Byte) : Prop where
  nonempty : oldkey.length ≠ 0
  double : kcstring.length = 2 * oldkey.length
  room : oldkey.length ≤ newkey.length

/-- What is encoded under an old key is decoded with it, into any buffer that is long enough, and
with other lengths nothing is. -/
structure ChangesKeys (hashtype : AuthHash) : Prop where
  roundTrip : ∀ oldkey newkey random kcstring buffer : List Byte,
    1 ≤ newkey.length → oldkey.length = newkey.length → random.length = newkey.length →
    2 * newkey.length ≤ kcstring.length → newkey.length ≤ buffer.length →
    2 * newkey.length ≤ snmpMaxbufSmall → newkey.length + hashtype.length ≤ snmpMaxbufSmall →
    ∃ encoded decoded,
      encodeKeychange (some hashtype) (some random) oldkey newkey kcstring =
        some (snmperrSuccess, encoded, 2 * newkey.length) ∧
      decodeKeychange (some hashtype) oldkey (encoded.take (2 * newkey.length)) buffer =
        some (snmperrSuccess, decoded, newkey.length) ∧
      decoded.take newkey.length = newkey
  refuses : ∀ oldkey kcstring newkey : List Byte, ¬ DecodableLengths oldkey kcstring newkey →
    decodeKeychange (some hashtype) oldkey kcstring newkey =
      some (snmperrGenerr, newkey, newkey.length)

def pad (digest : List Byte → List Byte) (random : List Byte) : Nat → List Byte → List Byte
  | 0, _ => []
  | passes + 1, tmp =>
      digest (tmp ++ random) ++ pad digest random passes (digest (tmp ++ random))

def xorPad (octets key : List Byte) : List Byte := List.zipWith (· ^^^ ·) octets key

theorem xorPad_append (front back key : List Byte) : xorPad (front ++ back) key =
    xorPad front key ++ xorPad back (key.drop front.length) := by
  induction front generalizing key with
  | nil => simp [xorPad]
  | cons octet front ih =>
      cases key with
      | nil => simp [xorPad]
      | cons octet' key =>
          have rest := ih key
          simp only [xorPad] at rest ⊢
          simp [rest]

theorem length_xorPad (octets key : List Byte) :
    (xorPad octets key).length = min octets.length key.length := by
  rw [xorPad, List.length_zipWith]

theorem xorPad_take (octets key : List Byte) : xorPad (octets.take key.length) key =
    xorPad octets key := by
  induction key generalizing octets with
  | nil => simp [xorPad]
  | cons octet' key ih =>
      cases octets with
      | nil => rfl
      | cons octet octets =>
          have rest := ih octets
          simp only [xorPad] at rest
          simp [xorPad, rest]

theorem xorPad_xorPad {octets key : List Byte} (long : key.length ≤ octets.length) :
    xorPad octets (xorPad octets key) = key := by
  induction key generalizing octets with
  | nil => simp [xorPad]
  | cons octet' key ih =>
      cases octets with
      | nil => exact absurd long (by simp)
      | cons octet octets =>
          have rest := ih (Nat.le_of_succ_le_succ long)
          have cancel : octet ^^^ (octet ^^^ octet') = octet' := by
            rw [← UInt8.xor_assoc, UInt8.xor_self, UInt8.zero_xor]
          simp only [xorPad] at rest
          simp [xorPad, rest, cancel]

theorem drop_min_length (count : Nat) (key : List Byte) :
    key.drop (min count key.length) = key.drop count := by
  rcases Nat.le_total count key.length with le | ge
  · rw [Nat.min_eq_left le]
  · rw [Nat.min_eq_right ge, List.drop_length, List.drop_of_length_le ge]

section Pad

variable {digest : List Byte → List Byte} {length : Nat}

theorem length_pad (fixed : ∀ buf, (digest buf).length = length) (random : List Byte)
    (passes : Nat) (tmp : List Byte) :
    (pad digest random passes tmp).length = passes * length := by
  induction passes generalizing tmp with
  | zero => rw [pad, List.length_nil, Nat.zero_mul]
  | succ passes ih => rw [pad, List.length_append, fixed, ih, Nat.succ_mul, Nat.add_comm]

theorem take_pad (fixed : ∀ buf, (digest buf).length = length) (random : List Byte) (passes : Nat)
    (tmp : List Byte) (keyLen : Nat) :
    (pad (fun buf => (digest buf).take keyLen) random (passes + 1) tmp).take keyLen =
      (pad digest random (passes + 1) tmp).take keyLen := by
  by_cases short : length ≤ keyLen
  · have same : (fun buf => (digest buf).take keyLen) = digest := by
      funext buf
      exact List.take_of_length_le (by rw [fixed]; exact short)
    rw [same]
  · have long : ∀ buf, keyLen ≤ (digest buf).length := by
      intro buf
      rw [fixed]
      omega
    rw [pad, pad, List.take_append_of_le_length, List.take_append_of_le_length (long _),
      List.take_take, Nat.min_self]
    rw [List.length_take, Nat.min_eq_left (long _)]

end Pad

theorem memcpy_eq {buf src : List Byte} {place : Nat} (room : place + src.length ≤ buf.length) :
    ∃ buf', memcpy buf place src = some buf' ∧ buf'.length = buf.length ∧
      buf'.take (place + src.length) = buf.take place ++ src := by
  refine ⟨_, if_pos room, ?_, ?_⟩
  · simp only [List.length_append, List.length_take, List.length_drop]
    omega
  · have front : (buf.take place).length = place := by
      rw [List.length_take]
      omega
    rw [← List.append_assoc, List.take_left']
    rw [List.length_append, front]

theorem memcpy_zero {buf src : List Byte} (room : src.length ≤ buf.length) :
    ∃ buf', memcpy buf 0 src = some buf' ∧ buf'.length = buf.length ∧
      buf'.take src.length = src := by
  have copied := @memcpy_eq buf src 0
  simp only [Nat.zero_add, List.take_zero, List.nil_append] at copied
  exact copied room

theorem xorLoop_eq {tmpbuf key out block : List Byte} {keyLen place tmpp : Nat}
    (read : (tmpbuf.drop tmpp).take block.length = block) (key_len : key.length = keyLen)
    (room : keyLen ≤ out.length) (inside : place ≤ keyLen) :
    ∃ out', xorLoop tmpbuf key keyLen block.length out place tmpp =
        some (out', place + min block.length (keyLen - place),
          tmpp + min block.length (keyLen - place)) ∧
      out'.length = out.length ∧
      out'.take (place + min block.length (keyLen - place)) =
        out.take place ++ xorPad block (key.drop place) := by
  induction block generalizing out place tmpp with
  | nil =>
      refine ⟨out, ?_, rfl, ?_⟩
      · rw [List.length_nil, xorLoop, Nat.zero_min, Nat.add_zero, Nat.add_zero]
      · rw [List.length_nil, Nat.zero_min, Nat.add_zero, xorPad, List.zipWith_nil_left,
          List.append_nil]
  | cons octet block ih =>
      rcases Nat.lt_or_ge place keyLen with less | atEnd
      · have octet_eq : tmpbuf[tmpp]? = some octet := by
          have first := congrArg List.head? read
          rw [List.length_cons, List.head?_take, if_neg (Nat.succ_ne_zero _),
            List.head?_drop] at first
          exact first
        have rest : (tmpbuf.drop (tmpp + 1)).take block.length = block := by
          have tail := congrArg (List.drop 1) read
          rw [List.length_cons, List.drop_take, Nat.add_sub_cancel, List.drop_drop] at tail
          exact tail
        have inKey : place < key.length := by omega
        have fits : place + [octet ^^^ key[place]].length ≤ out.length := by
          rw [List.length_singleton]
          omega
        rcases memcpy_eq fits with ⟨out1, copied, length1, front1⟩
        rcases @ih out1 (place + 1) (tmpp + 1) rest (by omega) less with
          ⟨out', run, length_eq, front⟩
        have step : min (octet :: block).length (keyLen - place) =
            1 + min block.length (keyLen - (place + 1)) := by
          rw [List.length_cons]
          omega
        refine ⟨out', ?_, length_eq.trans length1, ?_⟩
        · rw [List.length_cons, xorLoop, if_pos less, octet_eq, List.getElem?_eq_getElem inKey]
          simp only [copied, Option.bind_some]
          rw [run, ← List.length_cons, step, Nat.add_assoc, Nat.add_assoc]
        · rw [step, ← Nat.add_assoc, front, List.drop_eq_getElem_cons inKey]
          rw [List.length_singleton] at front1
          rw [front1, List.append_assoc]
          rfl
      · refine ⟨out, ?_, rfl, ?_⟩
        · rw [List.length_cons, xorLoop, if_neg (by omega), Nat.sub_eq_zero_of_le atEnd,
            Nat.min_zero, Nat.add_zero, Nat.add_zero]
        · rw [Nat.sub_eq_zero_of_le atEnd, Nat.min_zero, Nat.add_zero,
            List.drop_of_length_le (by omega), xorPad, List.zipWith_nil_right, List.append_nil]

variable {hashtype : AuthHash}

theorem scHash_eq {buf : List Byte} {macLen : Nat} (some_buf : buf.length ≠ 0)
    (room : hashtype.length ≤ macLen) :
    scHash hashtype buf macLen = some (hashtype.digest buf) := by
  rw [scHash, if_neg]
  omega

theorem append_xorPad {front key block rest : List Byte} {place : Nat} :
    front ++ xorPad block (key.drop place) ++
        xorPad rest (key.drop (place + min block.length (key.length - place))) =
      front ++ xorPad (block ++ rest) (key.drop place) := by
  rw [List.append_assoc, xorPad_append, ← List.length_drop, ← List.drop_drop, drop_min_length]

theorem encodeLoop_eq {random newkey : List Byte} (positive : 0 < hashtype.length)
    (isRandom : random.length = newkey.length) (fits : newkey.length ≤ snmpMaxbufSmall)
    (fitsHash : newkey.length + hashtype.length ≤ snmpMaxbufSmall) {passes : Nat}
    {state : EncodeState} (tmpbuf_length : state.tmpbuf.length = snmpMaxbufSmall)
    (delta_length : state.delta.length = snmpMaxbufSmall)
    (inside : state.deltaLen ≤ newkey.length)
    (room : state.tmpLen + newkey.length ≤ snmpMaxbufSmall)
    (atEnd : state.deltaLen < newkey.length → state.tmpp = state.tmpLen)
    (enough : newkey.length - state.deltaLen < passes) :
    ∃ state', encodeLoop hashtype random newkey passes state = some (some state') ∧
      state'.deltaLen = newkey.length ∧ state'.delta.length = snmpMaxbufSmall ∧
      state'.delta.take newkey.length = state.delta.take state.deltaLen ++
        xorPad (pad hashtype.digest random passes (state.tmpbuf.take state.tmpLen))
          (newkey.drop state.deltaLen) := by
  induction passes generalizing state with
  | zero => exact absurd enough (Nat.not_lt_zero _)
  | succ passes ih =>
      rw [encodeLoop]
      rcases Nat.lt_or_ge state.deltaLen newkey.length with less | done
      · rw [if_pos less, atEnd less]
        rcases @memcpy_eq state.tmpbuf random state.tmpLen (by omega) with
          ⟨tmpbuf1, copied1, length1, front1⟩
        have hashed : scHash hashtype (tmpbuf1.take (state.tmpLen + random.length))
            snmpMaxbufSmall =
              some (hashtype.digest (state.tmpbuf.take state.tmpLen ++ random)) := by
          rw [front1]
          apply scHash_eq
          · rw [List.length_append]
            omega
          · omega
        generalize digest_eq :
          hashtype.digest (state.tmpbuf.take state.tmpLen ++ random) = digest at hashed
        have digest_length : digest.length = hashtype.length := by
          rw [← digest_eq, hashtype.length_digest]
        rcases @memcpy_zero tmpbuf1 digest (by omega) with ⟨tmpbuf2, copied2, length2, front2⟩
        rcases @xorLoop_eq tmpbuf2 newkey state.delta digest newkey.length state.deltaLen 0
          (by rwa [List.drop_zero]) rfl (by omega) inside with
          ⟨delta, stored, delta_length', delta_front⟩
        simp only [copied1, Option.bind_some, hashed, copied2, stored, Nat.zero_add]
        generalize stored_eq : min digest.length (newkey.length - state.deltaLen) = count at *
        rcases @ih { tmpbuf := tmpbuf2, tmpLen := digest.length, tmpp := count, delta,
                     deltaLen := state.deltaLen + count }
          (by simp only; omega) (by simp only; omega) (by simp only; omega)
          (by simp only; omega) (by simp only; omega) (by simp only; omega) with
          ⟨state', run, deltaLen_eq, length_eq, front⟩
        refine ⟨state', run, deltaLen_eq, length_eq, ?_⟩
        rw [front, pad, digest_eq, ← append_xorPad, stored_eq]
        simp only [delta_front, front2]
      · rw [if_neg (Nat.not_lt_of_ge done)]
        refine ⟨state, rfl, Nat.le_antisymm inside done, delta_length, ?_⟩
        rw [List.drop_of_length_le done, xorPad, List.zipWith_nil_right, List.append_nil,
          Nat.le_antisymm inside done]

theorem decodeLoop_eq {random delta : List Byte} {keyLen : Nat} (positive : 0 < hashtype.length)
    (some_key : 0 < keyLen) (isRandom : random.length = keyLen) (isDelta : delta.length = keyLen)
    (fitsHash : hashtype.length ≤ snmpMaxbuf) {passes : Nat} {state : DecodeState}
    (tmpbuf_length : state.tmpbuf.length = keyLen * 2) (room : keyLen ≤ state.newkey.length)
    (inside : state.deltaLen ≤ keyLen) (tmpbufLen_le : state.tmpbufLen ≤ keyLen)
    (enough : keyLen - state.deltaLen < passes) :
    ∃ state', decodeLoop hashtype (random ++ delta) keyLen passes state = some (some state') ∧
      state'.newkey.take keyLen = state.newkey.take state.deltaLen ++
        xorPad (pad (fun buf => (hashtype.digest buf).take keyLen) random passes
          (state.tmpbuf.take state.tmpbufLen)) (delta.drop state.deltaLen) := by
  have random_eq : (random ++ delta).take keyLen = random := by
    rw [← isRandom, List.take_left']
    rfl
  have delta_eq : (random ++ delta).drop keyLen = delta := by
    rw [← isRandom, List.drop_left']
    rfl
  induction passes generalizing state with
  | zero => exact absurd enough (Nat.not_lt_zero _)
  | succ passes ih =>
      rw [decodeLoop]
      rcases Nat.lt_or_ge state.deltaLen keyLen with less | done
      · rw [if_pos less, random_eq, delta_eq]
        rcases @memcpy_eq state.tmpbuf random state.tmpbufLen (by omega) with
          ⟨tmpbuf1, copied1, length1, front1⟩
        rw [isRandom] at front1
        have hashed : scHash hashtype (tmpbuf1.take (state.tmpbufLen + keyLen)) snmpMaxbuf =
            some (hashtype.digest (state.tmpbuf.take state.tmpbufLen ++ random)) := by
          rw [front1]
          apply scHash_eq
          · rw [List.length_append]
            omega
          · exact fitsHash
        generalize hash_eq :
          hashtype.digest (state.tmpbuf.take state.tmpbufLen ++ random) = hash at hashed
        have hash_length : hash.length = hashtype.length := by
          rw [← hash_eq, hashtype.length_digest]
        have hashLen_eq : (if hash.length > keyLen then keyLen else hash.length) =
            (hash.take keyLen).length := by
          rw [List.length_take]
          split
          · omega
          · omega
        have truncated : hash.take (hash.take keyLen).length = hash.take keyLen := by
          rw [List.length_take]
          rcases Nat.le_total keyLen hash.length with le | ge
          · rw [Nat.min_eq_left le]
          · rw [Nat.min_eq_right ge, List.take_length, List.take_of_length_le ge]
        generalize block_eq : hash.take keyLen = block at hashLen_eq truncated
        have block_length : block.length = min keyLen hashtype.length := by
          rw [← block_eq, List.length_take, hash_length]
        rcases @memcpy_zero tmpbuf1 block (by omega) with ⟨tmpbuf2, copied2, length2, front2⟩
        rcases @xorLoop_eq tmpbuf2 delta state.newkey block keyLen state.deltaLen 0
          (by rwa [List.drop_zero]) isDelta room inside with
          ⟨newkey, stored, newkey_length, newkey_front⟩
        simp only [copied1, Option.bind_some, hashed, hashLen_eq, truncated, copied2, stored]
        generalize stored_eq : min block.length (keyLen - state.deltaLen) = count at *
        rcases @ih { tmpbuf := tmpbuf2, tmpbufLen := block.length, newkey,
                     deltaLen := state.deltaLen + count }
          (by simp only; omega) (by simp only; omega) (by simp only; omega)
          (by simp only; omega) (by simp only; omega) with ⟨state', run, front⟩
        refine ⟨state', run, ?_⟩
        rw [front, pad, hash_eq, block_eq, ← append_xorPad, isDelta, stored_eq]
        simp only [newkey_front, front2]
      · rw [if_neg (Nat.not_lt_of_ge done)]
        refine ⟨state, rfl, ?_⟩
        rw [List.drop_of_length_le (by omega), xorPad, List.zipWith_nil_right, List.append_nil,
          Nat.le_antisymm inside done]

theorem encodeKeychange_eq {oldkey newkey random kcstring : List Byte}
    (positive : 0 < hashtype.length) (nonempty : 1 ≤ newkey.length)
    (same : oldkey.length = newkey.length) (isRandom : random.length = newkey.length)
    (room : 2 * newkey.length ≤ kcstring.length) (fits : 2 * newkey.length ≤ snmpMaxbufSmall)
    (fitsHash : newkey.length + hashtype.length ≤ snmpMaxbufSmall) :
    ∃ encoded, encodeKeychange (some hashtype) (some random) oldkey newkey kcstring =
        some (snmperrSuccess, encoded, 2 * newkey.length) ∧
      encoded.take (2 * newkey.length) =
        random ++ xorPad (pad hashtype.digest random (newkey.length + 1) oldkey) newkey := by
  rcases @memcpy_zero (List.replicate snmpMaxbufSmall 0) oldkey
    (by rw [List.length_replicate]; omega) with ⟨tmpbuf, copied, tmpbuf_length, front⟩
  rw [List.length_replicate] at tmpbuf_length
  rcases @encodeLoop_eq hashtype random newkey positive isRandom (by omega) fitsHash
    (newkey.length + 1)
    { tmpbuf, tmpLen := oldkey.length, tmpp := oldkey.length,
      delta := List.replicate snmpMaxbufSmall 0, deltaLen := 0 }
    tmpbuf_length List.length_replicate (Nat.zero_le _) (by simp only; omega) (fun _ => rfl)
    (by simp only; omega) with ⟨state, run, deltaLen_eq, delta_length, delta_eq⟩
  simp only [front, List.take_zero, List.nil_append, List.drop_zero] at delta_eq
  rcases @memcpy_zero kcstring random (by omega) with ⟨kcstring1, copied1, length1, front1⟩
  have taken : (state.delta.take state.deltaLen).length = newkey.length := by
    rw [List.length_take, deltaLen_eq, delta_length]
    omega
  rcases @memcpy_eq kcstring1 (state.delta.take state.deltaLen) random.length (by omega) with
    ⟨encoded, copied2, -, front2⟩
  refine ⟨encoded, ?_, ?_⟩
  · rw [encodeKeychange, if_neg (by omega), if_neg (by omega), copied,
      Option.bind_some, run]
    simp only [Option.bind_some, copied1, copied2, Option.map_some]
    rw [deltaLen_eq, isRandom, Nat.two_mul]
  · rw [taken, front1, deltaLen_eq, delta_eq, isRandom] at front2
    rw [Nat.two_mul, front2]

theorem decodeKeychange_eq {oldkey random delta buffer : List Byte}
    (positive : 0 < hashtype.length) (nonempty : 1 ≤ oldkey.length)
    (isRandom : random.length = oldkey.length) (isDelta : delta.length = oldkey.length)
    (room : oldkey.length ≤ buffer.length) (fitsHash : hashtype.length ≤ snmpMaxbuf) :
    ∃ decoded, decodeKeychange (some hashtype) oldkey (random ++ delta) buffer =
        some (snmperrSuccess, decoded, oldkey.length) ∧
      decoded.take oldkey.length =
        xorPad (pad hashtype.digest random (oldkey.length + 1) oldkey) delta := by
  rcases @memcpy_zero (List.replicate (oldkey.length * 2) 0) oldkey
    (by rw [List.length_replicate]; omega) with ⟨tmpbuf, copied, tmpbuf_length, front⟩
  rw [List.length_replicate] at tmpbuf_length
  rcases @decodeLoop_eq hashtype random delta oldkey.length positive (by omega) isRandom isDelta
    fitsHash (oldkey.length + 1)
    { tmpbuf, tmpbufLen := oldkey.length, newkey := buffer, deltaLen := 0 }
    tmpbuf_length room (Nat.zero_le _) (Nat.le_refl _) (by simp only; omega) with
    ⟨state, run, newkey_eq⟩
  refine ⟨state.newkey, ?_, ?_⟩
  · have kcstring_length : (random ++ delta).length = oldkey.length * 2 := by
      rw [List.length_append]
      omega
    rw [decodeKeychange, if_neg (by omega)]
    simp only
    rw [if_neg (by omega)]
    simp only [copied, Option.bind_some, run]
  · simp only [front, List.take_zero, List.nil_append, List.drop_zero] at newkey_eq
    rw [newkey_eq, ← xorPad_take, isDelta, take_pad hashtype.length_digest, ← isDelta, xorPad_take]

/-- A new key survives its encoding, whatever the lengths of keys and digests are to each other. -/
theorem changesKeys (hashtype : AuthHash) (positive : 0 < hashtype.length) :
    ChangesKeys hashtype := by
  constructor
  · intro oldkey newkey random kcstring buffer nonempty same isRandom room bufferRoom fits fitsHash
    rcases encodeKeychange_eq positive nonempty same isRandom room fits fitsHash with
      ⟨encoded, run, encoded_eq⟩
    have long : newkey.length ≤
        (pad hashtype.digest random (newkey.length + 1) oldkey).length := by
      rw [length_pad hashtype.length_digest]
      calc newkey.length ≤ (newkey.length + 1) * 1 := by omega
        _ ≤ (newkey.length + 1) * hashtype.length := Nat.mul_le_mul_left _ positive
    have delta_length : (xorPad (pad hashtype.digest random (newkey.length + 1) oldkey)
        newkey).length = oldkey.length := by
      rw [length_xorPad, Nat.min_eq_right long, same]
    rcases @decodeKeychange_eq hashtype oldkey random _ buffer positive (by omega) (by omega)
      delta_length (by omega) (Nat.le_trans (Nat.le_of_add_left_le fitsHash) (by decide)) with
      ⟨decoded, run', decoded_eq⟩
    refine ⟨encoded, decoded, run, ?_, ?_⟩
    · rw [encoded_eq, run', same]
    · rw [same] at decoded_eq
      rw [decoded_eq, xorPad_xorPad long]
  · intro oldkey kcstring newkey wrong
    rw [decodeKeychange]
    split
    · rfl
    · rename_i someLengths
      simp only
      rw [if_pos]
      by_contra right
      apply wrong
      exact ⟨by omega, by omega, by omega⟩

def firstOctets : AuthHash where
  digest buf := (buf ++ List.replicate 4 0).take 4
  length := 4
  length_digest buf := by
    rw [List.length_take, List.length_append, List.length_replicate]
    omega

theorem changesKeys_firstOctets : 0 < firstOctets.length ∧ ChangesKeys firstOctets :=
  ⟨by decide, changesKeys firstOctets (by decide)⟩

end KeyChange

end NetSnmp
