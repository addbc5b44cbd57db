import NetSnmp.Asn.LengthCodec

/-!
# The octets that the forward integer encoders write

The forward encoders drop octets from the top of a machine word until the first
nine bits differ, which leaves the shortest octets of the number.
-/

namespace NetSnmp

theorem toNat_topOctet {integer : Nat} (small : integer < 2 ^ 64) :
    (toUChar (integer / 2 ^ 56 : Nat)).toNat = integer / 2 ^ 56 := by
  rw [toNat_toUChar_natCast]
  omega

theorem shortest_topOctets {intsize integer : Nat} (small : integer < 2 ^ 64)
    (differs : ¬ (integer / 2 ^ 55 = 0 ∨ integer / 2 ^ 55 = 0x1ff)) :
    Octets.Shortest (topOctets (intsize + 2) integer) := by
  have shifted : integer * 2 ^ 8 % 2 ^ 64 < 2 ^ 64 := Nat.mod_lt _ (by norm_num)
  have first := toNat_topOctet small
  have second := toNat_topOctet shifted
  simp only [topOctets, Octets.Shortest, Octets.topBit]
  rw [second]
  constructor
  · rintro ⟨zero, clear⟩
    rw [zero] at first
    have none : (0 : Byte).toNat = 0 := rfl
    rw [decide_eq_false_iff_not] at clear
    omega
  · rintro ⟨ones, set⟩
    rw [ones] at first
    have full : (0xff : Byte).toNat = 255 := rfl
    rw [decide_eq_true_eq] at set
    omega

theorem shortest_trimOctets {intsize integer : Nat} (pos : 0 < intsize)
    (small : integer < 2 ^ 64) :
    Octets.Shortest
      (topOctets (trimOctets intsize integer).1 (trimOctets intsize integer).2) := by
  induction intsize, integer using trimOctets.induct with
  | case1 integer => exact absurd pos (Nat.lt_irrefl 0)
  | case2 integer => trivial
  | case3 intsize integer repeats ih =>
      rw [trimOctets, if_pos repeats]
      exact ih (Nat.succ_pos _) (Nat.mod_lt _ (by norm_num))
  | case4 intsize integer differs =>
      rw [trimOctets, if_neg differs]
      exact shortest_topOctets small differs

theorem shortest_intOctets {integer : Nat} (small : integer < 2 ^ 64) :
    Octets.Shortest (intOctets integer) :=
  shortest_trimOctets (show 0 < sizeofLong by decide) small

theorem unsignedOctets_spec {integer : Nat} (small : integer < 2 ^ 64) :
    Octets.Shortest (unsignedOctets integer) ∧ Octets.beInt (unsignedOctets integer) = integer ∧
      (unsignedOctets integer).length ≤ 9 ∧
      ((unsignedOctets integer).length = 9 → (unsignedOctets integer).head? = some 0) := by
  unfold unsignedOctets
  by_cases large : 2 ^ 63 ≤ integer
  · rw [if_pos large]
    have first := toNat_topOctet small
    refine ⟨⟨?_, ?_⟩, ?_, ?_, fun _ => rfl⟩
    · rintro ⟨-, clear⟩
      rw [Octets.topBit, first, decide_eq_false_iff_not] at clear
      omega
    · rintro ⟨absurdity, -⟩
      exact absurd absurdity (by decide)
    · have value := beNat_topOctets (le_refl 8) small
      rw [Nat.sub_self, pow_zero, Nat.div_one] at value
      rcases Octets.beInt_cons 0 (topOctets 8 integer) with ⟨set, -⟩ | ⟨-, signed⟩
      · exact absurd set (by decide)
      · rw [signed, Octets.beNat_cons, value]
        simp
    · rw [List.length_cons, length_topOctets]
  · rw [if_neg large]
    obtain ⟨-, width, value⟩ := intOctets_spec small
    rw [toCLong_eq_self (by omega)] at value
    exact ⟨shortest_intOctets small, value, by omega, fun nine => by omega⟩

def joinHalves (halves : Nat × Nat) : Nat := halves.1 * 2 ^ 32 + halves.2

def HalfWords (halves : Nat × Nat) : Prop := halves.1 < 2 ^ 32 ∧ halves.2 < 2 ^ 32

theorem shiftHalves_spec {halves : Nat × Nat} (words : HalfWords halves) :
    HalfWords (shiftHalves halves) ∧
      joinHalves (shiftHalves halves) = joinHalves halves * 2 ^ 8 % 2 ^ 64 := by
  rcases halves with ⟨high, low⟩
  rcases words with ⟨high_lt, low_lt⟩
  simp only [HalfWords, shiftHalves, joinHalves] at *
  omega

theorem halvesOctets_eq (intsize : Nat) {halves : Nat × Nat} (words : HalfWords halves) :
    halvesOctets intsize halves = topOctets intsize (joinHalves halves) := by
  induction intsize generalizing halves with
  | zero => rfl
  | succ intsize ih =>
      obtain ⟨words', joined⟩ := shiftHalves_spec words
      have first : joinHalves halves / 2 ^ 56 = halves.1 / 2 ^ 24 := by
        unfold joinHalves
        have low_lt := words.2
        omega
      rw [halvesOctets, topOctets, first, ih words', joined]

theorem trimHalves_eq (intsize : Nat) {halves : Nat × Nat} (words : HalfWords halves) :
    HalfWords (trimHalves intsize halves).2 ∧
      ((trimHalves intsize halves).1, joinHalves (trimHalves intsize halves).2) =
        trimOctets intsize (joinHalves halves) := by
  induction intsize, halves using trimHalves.induct with
  | case1 halves => exact ⟨words, rfl⟩
  | case2 halves => exact ⟨words, rfl⟩
  | case3 intsize halves repeats ih =>
      obtain ⟨words', joined⟩ := shiftHalves_spec words
      have top : joinHalves halves / 2 ^ 55 = halves.1 / 2 ^ 23 := by
        unfold joinHalves
        have low_lt := words.2
        omega
      rw [trimHalves, if_pos repeats, trimOctets, top, if_pos repeats, ← joined]
      exact ih words'
  | case4 intsize halves differs =>
      have top : joinHalves halves / 2 ^ 55 = halves.1 / 2 ^ 23 := by
        unfold joinHalves
        have low_lt := words.2
        omega
      rw [trimHalves, if_neg differs, trimOctets, top, if_neg differs]
      exact ⟨words, rfl⟩

theorem trimmedHalves_eq {halves : Nat × Nat} (words : HalfWords halves) :
    halvesOctets (trimHalves 8 halves).1 (trimHalves 8 halves).2 =
      intOctets (joinHalves halves) := by
  obtain ⟨words', trimmed⟩ := trimHalves_eq 8 words
  rw [halvesOctets_eq _ words', intOctets, sizeofLong, ← trimmed]

theorem appends_buildOpaque (special : Byte) {contents : List Byte}
    (short : contents.length ≤ 120) :
    Appends (buildOpaque · special contents) (specialObject special contents) := fun buf => by
  have tags : Appends (·.append [asnOpaqueTag1, special, toUChar contents.length])
      [asnOpaqueTag1, special, toUChar contents.length] := fun buf => rfl
  have append : Appends (·.append contents) contents := fun buf => rfl
  have checked := (tags.andThen append).checked (show contents.length + 3 ≤
    ([asnOpaqueTag1, special, toUChar contents.length] ++ contents).length by simp)
  have both := (appends_asnBuildHeader asnOpaque (contents.length + 3)).andThen checked
  have bytes_eq : specialObject special contents = asnOpaque ::
      buildLengthOctets (contents.length + 3) ++
        ([asnOpaqueTag1, special, toUChar contents.length] ++ contents) := by
    rw [buildLengthOctets_eq (by omega), toUChar_natCast]
    simp [specialObject, object, headerOctets]
  rw [bytes_eq, ← both buf]
  change buildOpaque buf special contents = _
  unfold buildOpaque asnBuildHeaderCheck
  refine bind_congr fun buf' => ?_
  split <;> rfl

end NetSnmp
