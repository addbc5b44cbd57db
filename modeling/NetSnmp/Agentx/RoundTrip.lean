import NetSnmp.Agentx.Protocol

/-!
# Round trips of AgentX encodings

What is parsed of the object identifiers and varbinds that are built.
-/

namespace NetSnmp

variable (order : AgentxOrder) {name : Oid} {rest : List Byte} {value : Nat}

theorem agentxBuildNumber_eq (width value : Nat) :
    agentxBuildNumber order width value = order.network.store width value := by
  rcases order with ⟨host, network⟩
  cases network with
  | bigEndian =>
      cases host with
      | bigEndian => rfl
      | littleEndian => exact ByteOrder.store_littleEndian_swap width value
  | littleEndian =>
      cases host with
      | bigEndian => rfl
      | littleEndian => rfl

theorem agentxParseNumber_eq {width : Nat} {data : List Byte} (enough : width ≤ data.length) :
    agentxParseNumber order width data = order.network.load (data.take width) := by
  have length_eq : (data.take width).length = width := by
    rw [List.length_take]
    omega
  rcases order with ⟨host, network⟩
  cases network with
  | bigEndian =>
      cases host with
      | bigEndian => rfl
      | littleEndian => exact ByteOrder.swap_load_littleEndian length_eq
  | littleEndian =>
      cases host with
      | bigEndian => rfl
      | littleEndian => rfl

@[simp]
theorem length_agentxBuildInt (value : Nat) :
    (agentxBuildInt order value).length = 4 := by
  rw [agentxBuildInt, agentxBuildNumber_eq, ByteOrder.length_store]

theorem agentxParseInt_agentxBuildInt (value : Nat) (rest : List Byte) :
    agentxParseInt order (agentxBuildInt order value ++ rest) = toCInt (value % 2 ^ 32 : Nat) := by
  have length_eq := length_agentxBuildInt order value
  rw [agentxParseInt, agentxParseNumber_eq order (by rw [List.length_append]; omega),
    List.take_left' length_eq, agentxBuildInt, agentxBuildNumber_eq, ByteOrder.load_store]
  congr 2
  omega

def signExtended (value : Nat) : Nat := toSizeT (toCInt (value % 2 ^ 32 : Nat))

theorem signExtended_eq_iff (small : value < 2 ^ 32) :
    signExtended value = value ↔ value < 2 ^ 31 := by
  constructor
  · intro same
    by_contra large
    have negative := @toCInt_neg value (by omega)
    have lower : -2 ^ 31 ≤ toCInt value := by
      unfold toCInt signedOfBits
      split <;> omega
    rw [signExtended, Nat.mod_eq_of_lt small, toSizeT] at same
    omega
  · intro low
    rw [signExtended, Nat.mod_eq_of_lt small, toCInt_eq_self low, toSizeT]
    omega

theorem agentxParseSubids_flatMap (name : Oid) (rest : List Byte) :
    agentxParseSubids order name.length (name.flatMap (agentxBuildInt order) ++ rest) =
      (name.map signExtended, rest) := by
  induction name with
  | nil => rfl
  | cons subid name ih =>
      have here := agentxParseInt_agentxBuildInt order subid
        (name.flatMap (agentxBuildInt order) ++ rest)
      rw [List.length_cons, List.flatMap_cons, List.append_assoc, agentxParseSubids, here,
        List.drop_left' (length_agentxBuildInt order subid), ih]
      rfl

theorem agentxCompact_cases (name : Oid) :
    agentxCompact name = (0, name) ∨
      ∃ subid rest, name = 1 :: 3 :: 6 :: 1 :: subid :: rest ∧ 0 < subid ∧ subid < 256 ∧
        agentxCompact name = (subid, rest) := by
  unfold agentxCompact
  split
  · rename_i subid rest
    split
    · rename_i bounds
      exact .inr ⟨subid, rest, rfl, bounds.1, bounds.2, rfl⟩
    · exact .inl rfl
  · exact .inl rfl

theorem map_signExtended_eq_iff (small : ∀ subid ∈ name, subid < 2 ^ 32) :
    name.map signExtended = name ↔ ∀ subid ∈ name, subid < 2 ^ 31 := by
  induction name with
  | nil => simp
  | cons subid name ih =>
      have here := signExtended_eq_iff (small subid List.mem_cons_self)
      have later := ih fun subid' mem => small subid' (List.mem_cons_of_mem _ mem)
      rw [List.map_cons, List.cons_eq_cons, here, later, List.forall_mem_cons]

theorem length_flatMap_agentxBuildInt (name : Oid) :
    (name.flatMap (agentxBuildInt order)).length = 4 * name.length := by
  induction name with
  | nil => rfl
  | cons subid name ih =>
      rw [List.flatMap_cons, List.length_append, ih, length_agentxBuildInt, List.length_cons]
      omega

theorem agentxParseOid_header {subids : Oid} {prefix0 : Nat} (inclusive : Byte)
    (short : subids.length < 256) (small : prefix0 < 256) (rest : List Byte) :
    agentxParseOid order ([UInt8.ofNat subids.length, UInt8.ofNat prefix0, inclusive, 0] ++
        subids.flatMap (agentxBuildInt order) ++ rest) =
      if subids = [] ∧ prefix0 = 0 then some ([0, 0], inclusive, rest)
      else some ((if prefix0 = 0 then [] else [1, 3, 6, 1, prefix0]) ++ subids.map signExtended,
        inclusive, rest) := by
  have toNat_ofNat {n : Nat} (small : n < 256) : (UInt8.ofNat n).toNat = n := by
    simp only [UInt8.toNat_ofNat']
    omega
  have eq_zero_iff {n : Nat} (small : n < 256) : UInt8.ofNat n = 0 ↔ n = 0 := by
    rw [← UInt8.toNat_inj, toNat_ofNat small]
    rfl
  have enough : ¬ (subids.flatMap (agentxBuildInt order) ++ rest).length < 4 * subids.length := by
    rw [List.length_append, length_flatMap_agentxBuildInt]
    omega
  simp only [List.cons_append, List.nil_append, agentxParseOid, eq_zero_iff short,
    eq_zero_iff small, toNat_ofNat short, toNat_ofNat small, if_neg enough,
    agentxParseSubids_flatMap, List.length_eq_zero_iff]
  split
  · rename_i null
    rw [null.1, List.flatMap_nil, List.nil_append]
  · rfl

theorem agentxParseOid_agentxBuildOid_iff (inclusive : Byte) (short : name.length ≤ 128)
    (small : ∀ subid ∈ name, subid < 2 ^ 32) (rest : List Byte) :
    agentxParseOid order (agentxBuildOid order inclusive name ++ rest) =
        some (name, inclusive, rest) ↔
      name ≠ [] ∧ ∀ subid ∈ name, subid < 2 ^ 31 := by
  by_cases empty : name = []
  · subst empty
    simp [agentxBuildOid, agentxCompact, agentxParseOid]
  · have nonempty : ¬ name.length = 0 := by simpa using empty
    rcases agentxCompact_cases name with plain | ⟨subid, left, rfl, positive, below, compact⟩
    · simp only [agentxBuildOid, plain, if_neg nonempty]
      rw [agentxParseOid_header order inclusive (by omega) (by decide) rest]
      simp [empty, map_signExtended_eq_iff small]
    · simp only [agentxBuildOid, compact, if_neg nonempty]
      simp only [List.length_cons] at short
      have later : ∀ subid' ∈ left, subid' < 2 ^ 32 := by
        intro subid' mem
        exact small subid' (by simp [mem])
      rw [agentxParseOid_header order inclusive (by omega) below rest]
      have notZero : ¬ subid = 0 := by omega
      simp [notZero, map_signExtended_eq_iff later]
      omega

theorem exists_agentxParseOid_agentxBuildOid (short : name.length ≤ 128) (rest : List Byte) :
    ∃ parsed, agentxParseOid order (agentxBuildOid order 0 name ++ rest) =
      some (parsed, 0, rest) := by
  have header {subids : Oid} {prefix0 : Nat} (few : subids.length < 256) (below : prefix0 < 256) :
      ∃ parsed, agentxParseOid order ([UInt8.ofNat subids.length, UInt8.ofNat prefix0, 0, 0] ++
        subids.flatMap (agentxBuildInt order) ++ rest) = some (parsed, 0, rest) := by
    rw [agentxParseOid_header order 0 few below rest]
    split
    · exact ⟨_, rfl⟩
    · exact ⟨_, rfl⟩
  rcases agentxCompact_cases name with plain | ⟨subid, left, rfl, positive, below, compact⟩
  · simp only [agentxBuildOid, plain, ite_self]
    exact header (by omega) (by decide)
  · simp only [agentxBuildOid, compact, ite_self]
    simp only [List.length_cons] at short
    exact header (by omega) below

/-- A value of an unsigned type or a `Counter64`, with 32-bit numbers. -/
inductive AgentxNumber : Byte → Vardata → Prop
  | unsigned {type : Byte} {value : Nat}
      (isUnsigned : type = asnCounter ∨ type = asnGauge ∨ type = asnTimeticks ∨ type = asnUinteger)
      (small : value < 2 ^ 32) : AgentxNumber type (.integer value)
  | counter64 {high low : Nat} (high_lt : high < 2 ^ 32) (low_lt : low < 2 ^ 32) :
      AgentxNumber asnCounter64 (.counter64 high low)

/-- No half of a `Counter64` is taken for a negative number. -/
def HalvesNonneg (val : Vardata) : Prop :=
  ∀ high low, val = .counter64 high low → high < 2 ^ 31 ∧ low < 2 ^ 31

theorem agentxParseValue_agentxBuildValue {type : Byte} {val : Vardata}
    (number : AgentxNumber type val) (rest : List Byte) :
    ∃ data parsed, agentxBuildValue order type val = some data ∧
      agentxParseValue order type.toNat (data ++ rest) = some (parsed, rest) ∧
      (parsed = val ↔ HalvesNonneg val) := by
  cases number with
  | @unsigned type value isUnsigned small =>
      have built : agentxBuildValue order type (.integer value) =
          some (agentxBuildInt order (toSizeT value)) := by
        simp [agentxBuildValue, isUnsigned]
      have parsedInt := agentxParseInt_agentxBuildInt order (toSizeT value) rest
      have unsigned : toCInt (toSizeT value % 2 ^ 32 : Nat) % 2 ^ 32 = value := by
        have bits : toSizeT value % 2 ^ 32 = value := by
          rw [toSizeT]
          omega
        rw [bits]
        unfold toCInt signedOfBits
        split <;> omega
      refine ⟨_, .integer value, built, ?_, ?_⟩
      · have isParsed : type.toNat ≠ asnInteger.toNat ∧ (type.toNat = asnCounter.toNat ∨
            type.toNat = asnGauge.toNat ∨ type.toNat = asnTimeticks.toNat ∨
            type.toNat = asnUinteger.toNat) := by
          rcases isUnsigned with rfl | rfl | rfl | rfl
          all_goals decide
        have enough : ¬ (agentxBuildInt order (toSizeT value) ++ rest).length < 4 := by
          rw [List.length_append, length_agentxBuildInt]
          omega
        simp only [agentxParseValue, if_neg isParsed.1, if_pos isParsed.2, if_neg enough,
          parsedInt, unsigned]
        rw [List.drop_left' (length_agentxBuildInt _ _)]
      · refine iff_of_true rfl ?_
        intro high low absurdity
        exact absurd absurdity (by simp)
  | @counter64 high low high_lt low_lt =>
      have two (first second : Nat) :
          ¬ (agentxBuildInt order first ++ agentxBuildInt order second ++ rest).length < 8 ∧
          agentxParseInt order (agentxBuildInt order first ++ agentxBuildInt order second ++ rest) =
            toCInt (first % 2 ^ 32 : Nat) ∧
          agentxParseInt order ((agentxBuildInt order first ++ agentxBuildInt order second ++
            rest).drop 4) = toCInt (second % 2 ^ 32 : Nat) ∧
          (agentxBuildInt order first ++ agentxBuildInt order second ++ rest).drop 8 = rest := by
        refine ⟨?_, ?_, ?_, ?_⟩
        · rw [List.length_append, List.length_append, length_agentxBuildInt, length_agentxBuildInt]
          omega
        · rw [List.append_assoc, agentxParseInt_agentxBuildInt]
        · rw [List.append_assoc, List.drop_left' (length_agentxBuildInt _ _),
            agentxParseInt_agentxBuildInt]
        · apply List.drop_left'
          rw [List.length_append, length_agentxBuildInt, length_agentxBuildInt]
      have same_iff : Vardata.counter64 (signExtended high) (signExtended low) =
          .counter64 high low ↔ HalvesNonneg (.counter64 high low) := by
        rw [Vardata.counter64.injEq, signExtended_eq_iff high_lt, signExtended_eq_iff low_lt]
        constructor
        · rintro nonneg _ _ ⟨⟩
          exact nonneg
        · intro nonneg
          exact nonneg high low rfl
      rcases order with ⟨host, network⟩
      cases network with
      | bigEndian =>
          refine ⟨_, .counter64 (signExtended high) (signExtended low), rfl, ?_, same_iff⟩
          rcases two high low with ⟨enough, first, second, left⟩
          rewrite [agentxParseValue, if_neg (by decide), if_neg (by decide), if_neg (by decide),
            if_neg (by decide), if_pos rfl, if_neg enough, first, second, left]
          rfl
      | littleEndian =>
          refine ⟨_, .counter64 (signExtended high) (signExtended low), rfl, ?_, same_iff⟩
          rcases two low high with ⟨enough, first, second, left⟩
          rewrite [agentxParseValue, if_neg (by decide), if_neg (by decide), if_neg (by decide),
            if_neg (by decide), if_pos rfl, if_neg enough, first, second, left]
          rfl

theorem agentxParseVarbind_agentxBuildVarbind_iff {vp : VariableList}
    (short : vp.name.length ≤ 128) (small : ∀ subid ∈ vp.name, subid < 2 ^ 32)
    (number : AgentxNumber vp.type vp.val) (rest : List Byte) :
    ((agentxBuildVarbind order vp).bind fun data => agentxParseVarbind order (data ++ rest)) =
        some (vp.name, vp.type.toNat, vp.val, rest) ↔
      (vp.name ≠ [] ∧ ∀ subid ∈ vp.name, subid < 2 ^ 31) ∧ HalvesNonneg vp.val := by
  rcases vp with ⟨name, type, val⟩
  rcases agentxParseValue_agentxBuildValue order number rest with
    ⟨value, parsedVal, built, parses, val_iff⟩
  rcases exists_agentxParseOid_agentxBuildOid order short (value ++ rest) with
    ⟨parsedName, parsesName⟩
  have name_iff := agentxParseOid_agentxBuildOid_iff order 0 short small (value ++ rest)
  rw [parsesName] at name_iff
  have sent : agentxSentType type = type := by
    cases number with
    | unsigned isUnsigned small =>
        rcases isUnsigned with rfl | rfl | rfl | rfl
        all_goals rfl
    | counter64 high_lt low_lt => rfl
  have length_short : (agentxBuildShort order type.toNat).length = 2 := by
    rw [agentxBuildShort, agentxBuildNumber_eq, ByteOrder.length_store]
  have enough : ¬ (agentxBuildShort order type.toNat ++ [0, 0] ++ agentxBuildOid order 0 name ++
      value ++ rest).length < 4 := by
    simp only [List.length_append, length_short, List.length_cons, List.length_nil]
    omega
  have type_eq : agentxParseNumber order 2 (agentxBuildShort order type.toNat ++ [0, 0] ++
      agentxBuildOid order 0 name ++ value ++ rest) = type.toNat := by
    have typeSmall := type.toNat_lt
    rw [agentxParseNumber_eq order (by simp only [List.length_append, length_short]; omega)]
    simp only [List.append_assoc]
    rw [List.take_left' length_short, agentxBuildShort, agentxBuildNumber_eq, ByteOrder.load_store]
    omega
  have left : (agentxBuildShort order type.toNat ++ [0, 0] ++ agentxBuildOid order 0
    name ++ value ++
      rest).drop 4 = agentxBuildOid order 0 name ++ (value ++ rest) := by
    simp only [List.append_assoc]
    rw [← List.append_assoc (agentxBuildShort order type.toNat) [0, 0]]
    apply List.drop_left'
    simp [length_short]
  simp only [agentxBuildVarbind, built, sent, Option.map_some, Option.bind_some,
    agentxParseVarbind, if_neg enough, type_eq, left, parsesName, parses, Option.some.injEq,
    Prod.mk.injEq, true_and, and_true] at name_iff ⊢
  exact and_congr name_iff val_iff

/-- A name and a varbind of that name come back exactly if the name is not empty and no number in
it, and no half of a `Counter64`, has its upper bit set. -/
theorem agentx_comesBack_iff (inclusive : Byte) (vp : VariableList)
    (short : vp.name.length ≤ 128) (small : ∀ subid ∈ vp.name, subid < 2 ^ 32)
    (number : AgentxNumber vp.type vp.val) (rest : List Byte) :
    (agentxParseOid order (agentxBuildOid order inclusive vp.name ++ rest) =
        some (vp.name, inclusive, rest) ↔
      vp.name ≠ [] ∧ ∀ subid ∈ vp.name, subid < 2 ^ 31) ∧
    (((agentxBuildVarbind order vp).bind fun data => agentxParseVarbind order (data ++ rest)) =
        some (vp.name, vp.type.toNat, vp.val, rest) ↔
      (vp.name ≠ [] ∧ ∀ subid ∈ vp.name, subid < 2 ^ 31) ∧ HalvesNonneg vp.val) :=
  ⟨agentxParseOid_agentxBuildOid_iff order inclusive short small rest,
    agentxParseVarbind_agentxBuildVarbind_iff order short small number rest⟩

theorem agentx_comesBack_zero :
    agentxParseOid ⟨.littleEndian, .bigEndian⟩
        (agentxBuildOid ⟨.littleEndian, .bigEndian⟩ 0 [1, 3, 6, 1, 2, 1] ++ []) =
      some ([1, 3, 6, 1, 2, 1], 0, []) :=
  (agentx_comesBack_iff _ 0 ⟨[1, 3, 6, 1, 2, 1], asnCounter64, .counter64 0 0⟩ (by decide)
    (by decide) (.counter64 (by decide) (by decide)) []).1.mpr ⟨by decide, by decide⟩

/-- The last sub-identifier and the upper half of the value come back as 64-bit numbers. -/
theorem not_agentx_comesBack :
    agentxParseOid ⟨.littleEndian, .bigEndian⟩
        (agentxBuildOid ⟨.littleEndian, .bigEndian⟩ 0 [1, 3, 2147483648]) ≠
      some ([1, 3, 2147483648], 0, []) ∧
    ((agentxBuildVarbind ⟨.littleEndian, .bigEndian⟩
        ⟨[1, 3], asnCounter64, .counter64 2147483648 5⟩).bind
      (agentxParseVarbind ⟨.littleEndian, .bigEndian⟩)) ≠
      some ([1, 3], asnCounter64.toNat, .counter64 2147483648 5, []) := by
  decide

end NetSnmp
