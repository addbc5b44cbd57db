import NetSnmp.Machine
import NetSnmp.OidCompare
import NetSnmp.Usm.UserList

/-!
# The index of a user

`usm_generate_OID` writes the engine ID and the name of a user as an index of
`usmUserTable`, each with its length in front, and `usm_parse_oid` takes an index apart.
The routines count in `int`, and the characters of a name are signed.
-/

namespace NetSnmp

def usmIndex (engineID name : List Byte) : Oid :=
  engineID.length :: engineID.map UInt8.toNat ++ name.length :: name.map UInt8.toNat

/-- A `char` that is converted to `oid`. -/
def oidOfChar (char : Byte) : Nat := toSizeT (signedOfBits 8 char.toNat)

/-- `usm_generate_OID`; its loops count in `int`. -/
def usmGenerateOid (pre : Oid) (uptr : UsmUser) : Option Oid :=
  if uptr.engineIDLen < 2 ^ 31 ∧ uptr.name.strlen < 2 ^ 31 then
    some (pre ++ uptr.engineIDLen :: uptr.engineBytes.map UInt8.toNat ++
      uptr.name.strlen :: uptr.name.chars.map oidOfChar)
  else none

/-- `oidIndex[i]`; `none` outside of the index. -/
def indexSubid (oidIndex : Oid) (i : Int) : Option Nat :=
  if 0 ≤ i then oidIndex[i.toNat]? else none

/-- A loop of `usm_parse_oid`, from the subidentifier at `i` on: the bytes, if no subidentifier is
too large for one. -/
def copySubids (oidIndex : Oid) : (count : Nat) → (i : Int) → Option (Option (List Byte))
  | 0, _ => some (some [])
  | count + 1, i => do
      let subid ← indexSubid oidIndex (toCInt i)
      if 255 < subid then some none
      else
        let rest ← copySubids oidIndex count (i + 1)
        some (rest.map (UInt8.ofNat subid :: ·))

/-- `usm_parse_oid`: the engine ID and the name, or no result where it returns 1; `none` is an
access outside of the index or of the name. -/
def usmParseOid (oidIndex : Oid) : Option (Option (List Byte × List Byte)) :=
  match oidIndex with
  | [] => some none
  | first :: _ => do
      let oidLen := toCInt oidIndex.length
      let engineIDL := toCInt first
      if oidLen < toCInt (engineIDL + 2) then some none
      else
        let second ← indexSubid oidIndex (toCInt (engineIDL + 1))
        let nameL := toCInt second
        if oidLen ≠ toCInt (engineIDL + nameL + 2) then some none
        -- `malloc` has no room for a negative length
        else if engineIDL < 0 then some none
        else if nameL < 0 then none
        else
          let engineID ← copySubids oidIndex engineIDL.toNat 1
          match engineID with
          | none => some none
          | some engineID =>
              let name ← copySubids oidIndex nameL.toNat (engineIDL + 2)
              some (name.map fun name => (engineID, name))

theorem indexSubid_append (front : Oid) (subid : Nat) (back : Oid) :
    indexSubid (front ++ subid :: back) front.length = some subid := by
  simp [indexSubid]

theorem copySubids_append (front subids back : Oid)
    (short : front.length + subids.length ≤ 2 ^ 31) :
    copySubids (front ++ subids ++ back) subids.length front.length =
      some (if ∀ subid ∈ subids, subid ≤ 255 then some (subids.map UInt8.ofNat) else none) := by
  induction subids generalizing front with
  | nil => simp [copySubids]
  | cons subid subids ih =>
      have rest := ih (front ++ [subid]) (by simp at short ⊢; omega)
      have place : (front.length : Int) + 1 = (front ++ [subid]).length := by simp
      have whole : front ++ subid :: subids ++ back = front ++ [subid] ++ subids ++ back := by simp
      rw [List.length_cons] at short
      rw [List.length_cons, copySubids, toCInt_eq_self (by omega), place, whole, rest]
      have read : indexSubid (front ++ [subid] ++ subids ++ back) front.length = some subid := by
        rw [← whole, List.append_assoc, List.cons_append]
        exact indexSubid_append front subid (subids ++ back)
      rw [read]
      by_cases large : 255 < subid
      · simp [large]
      · simp only [Option.bind_eq_bind, Option.bind_some, if_neg large]
        by_cases all : ∀ subid ∈ subids, subid ≤ 255
        · rw [if_pos all, if_pos]
          · rfl
          · intro other mem
            rcases List.mem_cons.mp mem with rfl | mem
            · exact not_lt.mp large
            · exact all other mem
        · rw [if_neg all, if_neg]
          · rfl
          · intro allWith
            exact all fun other mem => allWith other (List.mem_cons_of_mem _ mem)

theorem length_split (engineID name : Oid) (second : Nat) :
    (engineID.length :: engineID ++ second :: name).length =
      engineID.length + name.length + 2 := by
  simp only [List.cons_append, List.length_cons, List.length_append]
  omega

/-- The lengths fit into an `int`, or the index ends where it is just too long for one. -/
def FitsInt (engineLen nameLen : Nat) : Prop :=
  engineLen + nameLen + 2 < 2 ^ 31 ∨ engineLen + 2 = 2 ^ 31 ∧ nameLen = 0

theorem usmParseOid_split (engineID : Oid) (second : Nat) (name : Oid)
    (fits : FitsInt engineID.length name.length) (second_lt : second < 2 ^ 32) :
    usmParseOid (engineID.length :: engineID ++ second :: name) =
      some (if second = name.length ∧ (∀ subid ∈ engineID, subid ≤ 255) ∧
          ∀ subid ∈ name, subid ≤ 255 then
        some (engineID.map UInt8.ofNat, name.map UInt8.ofNat) else none) := by
  have engineIDL_eq : toCInt engineID.length = engineID.length := by
    rcases fits with fits | fits <;> exact toCInt_eq_self (by omega)
  have enough : ¬ toCInt (engineID.length + name.length + 2 : Nat) <
      toCInt ((engineID.length : Int) + 2) := by
    unfold toCInt signedOfBits
    rcases fits with fits | fits <;> split <;> split <;> omega
  have place_eq : toCInt ((engineID.length : Int) + 1) = (engineID.length :: engineID).length := by
    rw [List.length_cons, Nat.cast_add, Nat.cast_one]
    rcases fits with fits | fits <;> exact toCInt_eq_self_of_range (by omega) (by omega)
  have exact_iff : (toCInt (engineID.length + name.length + 2 : Nat) ≠
      toCInt (engineID.length + toCInt second + 2)) ↔ second ≠ name.length := by
    unfold toCInt signedOfBits
    rcases fits with fits | fits <;> split <;> split <;> split <;> omega
  rw [List.cons_append, usmParseOid, ← List.cons_append, length_split]
  simp only [engineIDL_eq, place_eq, indexSubid_append, Option.bind_eq_bind,
    Option.bind_some, exact_iff]
  rw [if_neg enough]
  by_cases same : second = name.length
  · have nameL_eq : toCInt (name.length : Nat) = name.length := by
      rcases fits with fits | fits <;> exact toCInt_eq_self (by omega)
    have copied := copySubids_append [engineID.length] engineID (second :: name) (by
      rw [List.length_singleton]
      rcases fits with fits | fits <;> omega)
    have copiedName := copySubids_append (engineID.length :: engineID ++ [second]) name [] (by
      simp only [List.cons_append, List.length_cons, List.length_append, List.length_nil]
      rcases fits with fits | fits <;> omega)
    have front_eq : ((engineID.length :: engineID ++ [second]).length : Int) =
        engineID.length + 2 := by
      simp only [List.cons_append, List.length_cons, List.length_append, List.length_nil]
      push_cast
      omega
    have shape : engineID.length :: engineID ++ [second] ++ name ++ [] =
        engineID.length :: engineID ++ second :: name := by simp
    rw [shape, front_eq] at copiedName
    rw [List.singleton_append, List.length_singleton, Nat.cast_one] at copied
    rw [if_neg (not_not.mpr same), if_neg (by omega), same, nameL_eq, if_neg (by omega)]
    simp only [Int.toNat_natCast]
    rw [same] at copied copiedName
    rw [copied]
    by_cases all : ∀ subid ∈ engineID, subid ≤ 255
    · simp only [if_pos all, Option.bind_some, copiedName]
      by_cases allName : ∀ subid ∈ name, subid ≤ 255
      · rw [if_pos allName, if_pos ⟨trivial, all, allName⟩]
        rfl
      · rw [if_neg allName, if_neg fun both => allName both.2.2]
        rfl
    · rw [if_neg all, if_neg fun both => all both.2.1]
      rfl
  · rw [if_pos same, if_neg fun both => same both.1]

/-- The first subidentifiers with which `usm_parse_oid` leaves the index. -/
def StraysFrom (oidIndex : Oid) : Prop :=
  ∃ first ∈ oidIndex.head?, 2 ^ 31 - 2 ≤ first ∧ first ≠ 2 ^ 32 - 1

theorem usmParseOid_cases {oidIndex : Oid} (short : oidIndex.length < 2 ^ 31)
    (subids : ∀ subid ∈ oidIndex, subid < 2 ^ 32) :
    usmParseOid oidIndex = none ∧ StraysFrom oidIndex ∨
      usmParseOid oidIndex = some none ∧ ¬ StraysFrom oidIndex ∨
      ¬ StraysFrom oidIndex ∧ ∃ (engineID : Oid) (second : Nat) (name : Oid),
        oidIndex = engineID.length :: engineID ++ second :: name := by
  cases oidIndex with
  | nil =>
      refine .inr (.inl ⟨rfl, ?_⟩)
      rintro ⟨first, mem, -⟩
      cases mem
  | cons first rest =>
      have first_lt := subids first List.mem_cons_self
      have strays_iff : StraysFrom (first :: rest) ↔ 2 ^ 31 - 2 ≤ first ∧ first ≠ 2 ^ 32 - 1 := by
        constructor
        · rintro ⟨_, mem, strays⟩
          cases mem
          exact strays
        · intro strays
          exact ⟨first, rfl, strays⟩
      have length_eq : toCInt (first :: rest).length = (first :: rest).length :=
        toCInt_eq_self short
      rw [strays_iff]
      by_cases usual : first < 2 ^ 31 - 2
      · have next_eq : toCInt (toCInt first + 2) = first + 2 := by
          rw [toCInt_eq_self (show first < 2 ^ 31 by omega)]
          apply toCInt_eq_self_of_range
          · omega
          · omega
        by_cases fits : first + 1 ≤ rest.length
        · have place : first < rest.length := by omega
          refine .inr (.inr ⟨by omega, rest.take first, rest[first], rest.drop (first + 1), ?_⟩)
          rw [List.length_take, min_eq_left (by omega), List.cons_append,
            ← List.drop_eq_getElem_cons place, List.take_append_drop]
        · refine .inr (.inl ⟨?_, by omega⟩)
          rw [usmParseOid, length_eq, next_eq, if_pos]
          rw [List.length_cons]
          omega
      · by_cases minus : first = 2 ^ 32 - 1
        · refine .inr (.inl ⟨?_, by omega⟩)
          have engineIDL_eq : toCInt first = -1 := by
            subst minus
            rfl
          have second_eq : indexSubid (first :: rest) (toCInt (-1 + 1)) = some first := rfl
          rw [usmParseOid, length_eq, engineIDL_eq, if_neg]
          · simp only [second_eq, Option.bind_eq_bind, Option.bind_some, engineIDL_eq]
            rw [if_pos]
            rw [List.length_cons]
            have zero_eq : toCInt (-1 + -1 + 2) = 0 := rfl
            omega
          · have one_eq : toCInt (-1 + 2) = 1 := rfl
            rw [List.length_cons, one_eq]
            omega
        · refine .inl ⟨?_, by omega, minus⟩
          have next_le : toCInt (toCInt first + 2) ≤ 0 := by
            unfold toCInt signedOfBits
            split <;> split <;> omega
          have outside : indexSubid (first :: rest) (toCInt (toCInt first + 1)) = none := by
            rw [indexSubid]
            split
            · rename_i nonneg
              apply List.getElem?_eq_none
              have large : (2 : Int) ^ 31 - 1 ≤ toCInt (toCInt first + 1) := by
                revert nonneg
                unfold toCInt signedOfBits
                split <;> split <;> omega
              omega
            · rfl
          rw [usmParseOid, length_eq, if_neg, outside]
          · rfl
          · rw [List.length_cons]
            omega

theorem usmParseOid_eq_none_iff {oidIndex : Oid} (short : oidIndex.length < 2 ^ 31)
    (subids : ∀ subid ∈ oidIndex, subid < 2 ^ 32) :
    usmParseOid oidIndex = none ↔ StraysFrom oidIndex := by
  rcases usmParseOid_cases short subids with ⟨none_eq, strays⟩ | ⟨refused, stays⟩ |
    ⟨stays, engineID, second, name, rfl⟩
  · exact iff_of_true none_eq strays
  · refine iff_of_false ?_ stays
    rw [refused]
    exact Option.some_ne_none _
  · refine iff_of_false ?_ stays
    rw [usmParseOid_split engineID second name (.inl ((length_split ..).symm.trans_lt short))
      (subids second (by simp))]
    exact Option.some_ne_none _

theorem map_toNat_ofNat {subids : Oid} (bytes : ∀ subid ∈ subids, subid ≤ 255) :
    (subids.map UInt8.ofNat).map UInt8.toNat = subids := by
  calc (subids.map UInt8.ofNat).map UInt8.toNat
    _ = subids.map id := by
        rw [List.map_map]
        apply List.map_congr_left
        intro subid mem
        have small := bytes subid mem
        simp only [Function.comp_apply, UInt8.toNat_ofNat', id_eq]
        omega
    _ = subids := List.map_id subids

theorem usmParseOid_eq_some {oidIndex : Oid} (short : oidIndex.length < 2 ^ 31)
    (subids : ∀ subid ∈ oidIndex, subid < 2 ^ 32) {engineID name : List Byte}
    (accepted : usmParseOid oidIndex = some (some (engineID, name))) :
    oidIndex = usmIndex engineID name := by
  rcases usmParseOid_cases short subids with ⟨none_eq, -⟩ | ⟨refused, -⟩ |
    ⟨-, engineSubids, second, nameSubids, rfl⟩
  · rw [none_eq] at accepted
    cases accepted
  · rw [refused] at accepted
    cases accepted
  · have fits := (length_split ..).symm.trans_lt short
    rw [usmParseOid_split engineSubids second nameSubids (.inl fits) (subids second (by simp)),
      Option.some.injEq] at accepted
    split at accepted
    · rename_i form
      rcases form with ⟨rfl, bytes, nameBytes⟩
      cases accepted
      rw [usmIndex, map_toNat_ofNat bytes, map_toNat_ofNat nameBytes, List.length_map,
        List.length_map]
    · cases accepted

theorem indexSubid_of_neg (oidIndex : Oid) {i : Int} (negative : i < 0) :
    indexSubid oidIndex i = none := if_neg (not_le.mpr negative)

theorem usmParseOid_unfit {engineID name : Oid} (notFit : ¬ FitsInt engineID.length name.length)
    (engine_lt : engineID.length < 2 ^ 31) (name_lt : name.length < 2 ^ 31)
    (result : List Byte × List Byte) :
    usmParseOid (engineID.length :: engineID ++ name.length :: name) ≠ some (some result) := by
  simp only [FitsInt, not_or, not_and, not_lt] at notFit
  rcases notFit with ⟨long, notJust⟩
  have engineIDL_eq : toCInt engineID.length = engineID.length := toCInt_eq_self engine_lt
  have nameL_eq : toCInt name.length = name.length := toCInt_eq_self name_lt
  rw [List.cons_append, usmParseOid, ← List.cons_append, length_split]
  simp only [engineIDL_eq]
  by_cases usual : engineID.length + 2 < 2 ^ 31
  · -- the length of the index is negative as an `int`
    rw [if_pos]
    · simp
    · unfold toCInt signedOfBits
      split <;> split <;> omega
  · rw [if_neg (by unfold toCInt signedOfBits; split <;> split <;> omega)]
    by_cases most : engineID.length + 1 = 2 ^ 31
    · rw [indexSubid_of_neg _ (by unfold toCInt signedOfBits; split <;> omega)]
      simp
    · have just : engineID.length + 2 = 2 ^ 31 := by omega
      have place_eq : toCInt ((engineID.length : Int) + 1) =
          (engineID.length :: engineID).length := by
        rw [List.length_cons, Nat.cast_add, Nat.cast_one]
        exact toCInt_eq_self_of_range (by omega) (by omega)
      have copied := copySubids_append [engineID.length] engineID (name.length :: name)
        (by rw [List.length_singleton]; omega)
      rw [List.singleton_append, List.length_singleton, Nat.cast_one] at copied
      simp only [place_eq, indexSubid_append, Option.bind_eq_bind, Option.bind_some, nameL_eq,
        Int.toNat_natCast, copied]
      rw [if_neg (not_not.mpr (by unfold toCInt signedOfBits; split <;> split <;> omega)),
        if_neg (by omega), if_neg (by omega)]
      split
      · simp
      · -- the first character of the name is at an index that does not fit into an `int`
        cases name with
        | nil => exact absurd (notJust just) (by simp)
        | cons first name =>
            rw [List.length_cons, copySubids, indexSubid_of_neg]
            · simp
            · unfold toCInt signedOfBits
              split <;> omega

theorem oidOfChar_le_iff (char : Byte) : oidOfChar char ≤ 255 ↔ char < 128 := by
  have lt := char.toNat_lt
  rw [UInt8.lt_iff_toNat_lt]
  show _ ↔ char.toNat < 128
  unfold oidOfChar signedOfBits toSizeT
  split <;> omega

theorem ofNat_oidOfChar {char : Byte} (ascii : char < 128) :
    UInt8.ofNat (oidOfChar char) = char := by
  have lt : char.toNat < 128 := UInt8.lt_iff_toNat_lt.mp ascii
  have same : oidOfChar char = char.toNat := by
    unfold oidOfChar signedOfBits toSizeT
    split <;> omega
  rw [same, UInt8.ofNat_toNat]

/-- The index that `usm_generate_OID` writes for the user is taken apart into its engine ID and its
name. -/
def IndexComesBack (pre : Oid) (uptr : UsmUser) : Prop :=
  ∃ oid, usmGenerateOid pre uptr = some oid ∧
    usmParseOid (oid.drop pre.length) = some (some (uptr.engineBytes, uptr.name.chars))

theorem indexComesBack_iff (pre : Oid) (uptr : UsmUser) :
    IndexComesBack pre uptr ↔
      (∀ char ∈ uptr.name.chars, char < 128) ∧ FitsInt uptr.engineIDLen uptr.name.strlen := by
  by_cases counted : uptr.engineIDLen < 2 ^ 31 ∧ uptr.name.strlen < 2 ^ 31
  · have generated : IndexComesBack pre uptr ↔
        usmParseOid ((uptr.engineBytes.map UInt8.toNat).length ::
          uptr.engineBytes.map UInt8.toNat ++ (uptr.name.chars.map oidOfChar).length ::
            uptr.name.chars.map oidOfChar) =
        some (some (uptr.engineBytes, uptr.name.chars)) := by
      rw [IndexComesBack, usmGenerateOid, if_pos counted, List.length_map, List.length_map]
      simp only [Option.some.injEq, exists_eq_left', List.append_assoc, List.drop_left]
      rfl
    rw [generated]
    have lengths : FitsInt (uptr.engineBytes.map UInt8.toNat).length
        (uptr.name.chars.map oidOfChar).length ↔ FitsInt uptr.engineIDLen uptr.name.strlen := by
      rw [List.length_map, List.length_map]
      rfl
    by_cases fits : FitsInt uptr.engineIDLen uptr.name.strlen
    · have name_lt : (uptr.name.chars.map oidOfChar).length < 2 ^ 32 := by
        rw [List.length_map]
        exact counted.2.trans (by decide)
      rw [usmParseOid_split _ _ _ (lengths.mpr fits) name_lt, Option.some.injEq,
        and_iff_left fits]
      constructor
      · intro comesBack char mem
        split at comesBack
        · rename_i form
          exact (oidOfChar_le_iff char).mp (form.2.2 _ (List.mem_map_of_mem mem))
        · cases comesBack
      · intro ascii
        rw [if_pos]
        · rw [List.map_map, List.map_map, Option.some.injEq, Prod.mk.injEq]
          constructor
          · apply List.map_id''
            intro octet
            exact UInt8.ofNat_toNat
          · calc uptr.name.chars.map (UInt8.ofNat ∘ oidOfChar)
              _ = uptr.name.chars.map id :=
                  List.map_congr_left fun char mem => ofNat_oidOfChar (ascii char mem)
              _ = uptr.name.chars := List.map_id _
        · refine ⟨rfl, ?_, ?_⟩
          · intro subid mem
            rcases List.mem_map.mp mem with ⟨octet, -, rfl⟩
            exact Nat.le_of_lt_succ octet.toNat_lt
          · intro subid mem
            rcases List.mem_map.mp mem with ⟨char, charMem, rfl⟩
            exact (oidOfChar_le_iff char).mpr (ascii char charMem)
    · refine iff_of_false ?_ fun both => fits both.2
      apply usmParseOid_unfit (fun fits' => fits (lengths.mp fits'))
      · rw [List.length_map]
        exact counted.1
      · rw [List.length_map]
        exact counted.2
  · refine iff_of_false ?_ ?_
    · rintro ⟨oid, generated, -⟩
      rw [usmGenerateOid, if_neg counted] at generated
      cases generated
    · rintro ⟨-, fits⟩
      rw [FitsInt] at fits
      omega

/-- An index is read within its bounds, and accepted only if it is one of an engine ID and a
name. -/
def ParsedSafely (oidIndex : Oid) : Prop :=
  usmParseOid oidIndex ≠ none ∧
    ∀ engineID name, usmParseOid oidIndex = some (some (engineID, name)) →
      oidIndex = usmIndex engineID name

/-- The index of a user comes back just if its name is in ASCII and the lengths fit into an `int`,
and an index is parsed safely just if it does not lead astray with its first length. -/
theorem usmIndex_sound_iff (pre : Oid) (uptr : UsmUser) {oidIndex : Oid}
    (short : oidIndex.length < 2 ^ 31) (subids : ∀ subid ∈ oidIndex, subid < 2 ^ 32) :
    (IndexComesBack pre uptr ↔
      (∀ char ∈ uptr.name.chars, char < 128) ∧ FitsInt uptr.engineIDLen uptr.name.strlen) ∧
    (ParsedSafely oidIndex ↔ ¬ StraysFrom oidIndex) := by
  refine ⟨indexComesBack_iff pre uptr, ?_⟩
  rw [ParsedSafely, Ne, usmParseOid_eq_none_iff short subids]
  constructor
  · rintro ⟨stays, -⟩
    exact stays
  · intro stays
    exact ⟨stays, fun _ _ accepted => usmParseOid_eq_some short subids accepted⟩

theorem usmIndex_sound_ascii :
    IndexComesBack [1, 3] ⟨some [0x80, 0xff], ⟨[0x61, 0x62], by decide⟩⟩ ∧
      ParsedSafely [1, 200, 0] := by
  have sound := usmIndex_sound_iff [1, 3] ⟨some [0x80, 0xff], ⟨[0x61, 0x62], by decide⟩⟩
    (show ([1, 200, 0] : Oid).length < 2 ^ 31 by decide +kernel) (by decide +kernel)
  refine ⟨sound.1.mpr ⟨by decide +kernel, .inl (by decide +kernel)⟩, sound.2.mpr ?_⟩
  rintro ⟨first, mem, large, -⟩
  cases mem
  exact absurd large (by decide)

example : usmParseOid [4294967294, 0] = none := by decide +kernel

/-- The name of a user with a character outside of ASCII. -/
theorem not_usmIndex_sound :
    ¬ ((∀ (pre : Oid) (uptr : UsmUser), IndexComesBack pre uptr) ∧
      ∀ oidIndex : Oid, (∀ subid ∈ oidIndex, subid < 2 ^ 32) → ParsedSafely oidIndex) := by
  rintro ⟨comesBack, -⟩
  rcases comesBack [] ⟨some [0x80], ⟨[0xfc], by decide⟩⟩ with ⟨oid, generated, parsed⟩
  cases generated
  exact absurd parsed (by decide)

end NetSnmp
