import NetSnmp.Asn.Accepted

/-!
# The size of a packet on a stream

`asn_check_packet` looks at the bytes that have arrived so far and tells how
long the packet is going to be, or that the header is not complete yet.  It
decodes the length field once more, next to the header parser.
-/

namespace NetSnmp

open Reader Ber

def attempt {α : Type} (reader : Reader α) : Reader (Option α) :=
  match reader.ending with
  | .ok value => ⟨.ok (some value), reader.log⟩
  | .null => ⟨.ok none, reader.log⟩
  | .fault => ⟨.fault, reader.log⟩
  | .diverged => ⟨.diverged, reader.log⟩

def asnCheckPacket (pkt : Ptr) (len : Nat) : Reader Int := do
  if len < 2 then pure 0
  else do
    let type ← deref pkt
    if type ≠ asnSequence then pure (-1)
    else do
      let lengthbyte ← deref (pkt.drop 1)
      let octets := (lengthbyte &&& 0x7f).toNat
      if hasBit8 lengthbyte then
        if toCInt len < octets + 2 then pure 0
        else do
          match ← attempt (asnParseLength (pkt.drop 1)) with
          | none => pure 0
          | some (_, asnLength) => pure (toCInt (toSizeT (asnLength + 2 + octets : Nat)))
      else pure (lengthbyte.toNat + 2 : Nat)

theorem outcome_attempt {α : Type} (reader : Reader α) :
    (attempt reader).outcome =
      match reader.outcome with
      | .ok value => .ok (some value)
      | .null => .ok none
      | .fault => .fault
      | .diverged => .diverged := by
  unfold attempt outcome
  cases reader.ending <;> rfl

/-- The number of bytes of the packet at the beginning of the input, when its header is complete:
the header and the contents that its length field announces. -/
def packetSize (input : List Byte) : Option Nat :=
  match input with
  | [] => none
  | type :: field =>
      if type = asnSequence then
        match (asnParseLength field).outcome with
        | .ok (body, length) => some (input.length - body.length + length)
        | _ => none
      else none

def IsIncomplete (input : List Byte) : Prop :=
  packetSize input = none ∧ ∃ more size, packetSize (input ++ more) = some size

/-- What the answer should say: nothing is known as long as the header is not complete; otherwise it
is the size of the packet, or negative when there is none or it is over the limit of the type. -/
structure AnswersSize (input : List Byte) (answer : Int) : Prop where
  incomplete : answer = 0 → IsIncomplete input
  exact : 0 < answer → packetSize input = some answer.toNat
  refused : answer < 0 → ¬ IsIncomplete input ∧
    ∀ size, packetSize input = some size → 2 ^ 31 ≤ size

/-- The length field may still become one: its number of octets is neither zero nor above eight, and
of eight octets the first one is below 128. -/
def IsLengthPrefix (octets : Nat) (arrived : List Byte) : Prop :=
  octets ≠ 0 ∧ octets ≤ 8 ∧ (octets = 8 → ∀ first ∈ arrived.head?, first.toNat < 128)

/-- The answer for these bytes is right: a single byte is the tag of a packet, and a length field in
the long form can be accepted and, once it is there, neither the number of bytes nor the size is
mistaken for a smaller one as an `int`. -/
def SizeFits (input : List Byte) : Prop :=
  match input with
  | [] => True
  | [type] => type = asnSequence
  | type :: lengthbyte :: arrived =>
      let octets := (lengthbyte &&& 0x7f).toNat
      let size := Octets.beNat (arrived.take octets) + 2 + octets
      type = asnSequence → hasBit8 lengthbyte = true →
        IsLengthPrefix octets arrived ∧
          (octets ≤ arrived.length → (octets : Int) + 2 ≤ toCInt input.length ∧
            (size < 2 ^ 31 ∨ 2 ^ 31 ≤ size % 2 ^ 32))

theorem packetSize_short {lengthbyte : Byte} (short : hasBit8 lengthbyte = false)
    (arrived : List Byte) :
    packetSize (asnSequence :: lengthbyte :: arrived) = some (lengthbyte.toNat + 2) := by
  have parsed : (asnParseLength (lengthbyte :: arrived)).outcome =
      .ok (arrived, lengthbyte.toNat) := by
    simp [asnParseLength, short]
  simp only [packetSize, if_true, parsed, List.length_cons, Option.some.injEq]
  omega

theorem toNat_and_0x7f_eq_zero_iff {lengthbyte : Byte} :
    lengthbyte &&& 0x7f = 0 ↔ (lengthbyte &&& 0x7f).toNat = 0 := by
  rw [← UInt8.toNat_inj]
  rfl

section Long

variable {lengthbyte : Byte} (long : hasBit8 lengthbyte = true)

include long

theorem outcome_asnParseLength_arrived (arrived : List Byte) :
    (asnParseLength (lengthbyte :: arrived)).outcome =
      if (lengthbyte &&& 0x7f).toNat = 0 ∨ 8 < (lengthbyte &&& 0x7f).toNat then .null
      else if arrived.length < (lengthbyte &&& 0x7f).toNat then .fault
      else if 2 ^ 63 ≤ Octets.beNat (arrived.take (lengthbyte &&& 0x7f).toNat) then .null
      else .ok (arrived.drop (lengthbyte &&& 0x7f).toNat,
        Octets.beNat (arrived.take (lengthbyte &&& 0x7f).toNat)) := by
  rw [asnParseLength, outcome_bind, outcome_deref_cons, Outcome.bind_ok, outcome_ite, if_pos long]
  simp only [outcome_bind, outcome_failIf, toNat_and_0x7f_eq_zero_iff, sizeofLong]
  generalize (lengthbyte &&& 0x7f).toNat = octets
  by_cases indefinite : octets = 0
  · simp [indefinite]
  · by_cases wide : 8 < octets
    · simp [indefinite, wide]
    · simp only [indefinite, wide, or_self, if_false, Outcome.bind_ok, List.drop_one,
        List.tail_cons]
      by_cases short : arrived.length < octets
      · simp [short, outcome_readBytes_of_short short]
      · rw [if_neg short, outcome_readBytes (not_lt.mp short), Outcome.bind_ok,
          Octets.foldl_shift]
        have bound := Octets.beNat_lt (arrived.take octets)
        have bound' : (256 : Nat) ^ (arrived.take octets).length ≤ 256 ^ 8 := by
          apply Nat.pow_le_pow_right (by decide)
          rw [List.length_take]
          omega
        generalize Octets.beNat (arrived.take octets) = value at bound
        by_cases negative : 2 ^ 63 ≤ value
        · have isNeg : toCLong value < 0 := by
            unfold toCLong signedOfBits
            split <;> omega
          rw [if_pos negative]
          simp [isNeg]
        · have nonneg : ¬ toCLong value < 0 := by
            unfold toCLong signedOfBits
            split <;> omega
          rw [if_neg negative]
          simp [nonneg, Nat.add_comm 1]

theorem packetSize_long (arrived : List Byte) :
    packetSize (asnSequence :: lengthbyte :: arrived) =
      if (lengthbyte &&& 0x7f).toNat = 0 ∨ 8 < (lengthbyte &&& 0x7f).toNat ∨
          arrived.length < (lengthbyte &&& 0x7f).toNat ∨
          2 ^ 63 ≤ Octets.beNat (arrived.take (lengthbyte &&& 0x7f).toNat) then none
      else some (Octets.beNat (arrived.take (lengthbyte &&& 0x7f).toNat) + 2 +
        (lengthbyte &&& 0x7f).toNat) := by
  simp only [packetSize, if_true, outcome_asnParseLength_arrived long]
  generalize (lengthbyte &&& 0x7f).toNat = octets
  by_cases wrong : octets = 0 ∨ 8 < octets
  · rcases wrong with indefinite | wide
    · simp [indefinite]
    · simp [wide]
  · by_cases short : arrived.length < octets
    · simp [wrong, short]
    · by_cases negative : 2 ^ 63 ≤ Octets.beNat (arrived.take octets)
      · rw [if_neg wrong, if_neg short, if_pos negative, if_pos (.inr (.inr (.inr negative)))]
      · have right : ¬ (octets = 0 ∨ 8 < octets ∨ arrived.length < octets ∨
            2 ^ 63 ≤ Octets.beNat (arrived.take octets)) := by
          simp only [short, negative, or_false]
          exact wrong
        rw [if_neg wrong, if_neg short, if_neg negative, if_neg right]
        simp only [List.length_cons, List.length_drop, Option.some.injEq]
        omega

theorem outcome_asnCheckPacket_long (arrived : List Byte) (len : Nat)
    (len_eq : len = arrived.length + 2) :
    (asnCheckPacket (asnSequence :: lengthbyte :: arrived) len).outcome =
      .ok (if toCInt len < (lengthbyte &&& 0x7f).toNat + 2 then 0
        else match packetSize (asnSequence :: lengthbyte :: arrived) with
          | none => 0
          | some size => toCInt size) := by
  have enough : ¬ len < 2 := by omega
  have le := toCInt_le_self len
  rw [packetSize_long long]
  simp only [asnCheckPacket, outcome_ite, enough, if_false, outcome_bind, outcome_deref_cons,
    Outcome.bind_ok, ne_eq, not_true_eq_false, List.drop_one, List.tail_cons, if_pos long]
  by_cases early : toCInt len < (lengthbyte &&& 0x7f).toNat + 2
  · rw [if_pos early, if_pos early, outcome_pure]
  · have whole : ¬ arrived.length < (lengthbyte &&& 0x7f).toNat := by omega
    rw [if_neg early, if_neg early, outcome_attempt, outcome_asnParseLength_arrived long]
    generalize (lengthbyte &&& 0x7f).toNat = octets at whole
    by_cases wrong : octets = 0 ∨ 8 < octets
    · have wrong' : octets = 0 ∨ 8 < octets ∨ arrived.length < octets ∨
          2 ^ 63 ≤ Octets.beNat (arrived.take octets) := by
        rcases wrong with indefinite | wide
        · exact .inl indefinite
        · exact .inr (.inl wide)
      rw [if_pos wrong, if_pos wrong']
      rfl
    · by_cases negative : 2 ^ 63 ≤ Octets.beNat (arrived.take octets)
      · rw [if_neg wrong, if_neg whole, if_pos negative, if_pos (.inr (.inr (.inr negative)))]
        rfl
      · have right : ¬ (octets = 0 ∨ 8 < octets ∨ arrived.length < octets ∨
            2 ^ 63 ≤ Octets.beNat (arrived.take octets)) := by
          simp only [whole, negative, or_false]
          exact wrong
        have size_eq : toSizeT (Octets.beNat (arrived.take octets) + 2 + octets : Nat) =
            Octets.beNat (arrived.take octets) + 2 + octets := toSizeT_eq_self (by omega)
        rw [if_neg wrong, if_neg whole, if_neg negative, if_neg right]
        simp only [Outcome.bind_ok, outcome_pure, size_eq]

end Long

theorem beNat_large_iff {octets : List Byte} (width : octets.length ≤ 8) :
    2 ^ 63 ≤ Octets.beNat octets ↔
      octets.length = 8 ∧ ∃ first ∈ octets.head?, 128 ≤ first.toNat := by
  cases octets with
  | nil => simp
  | cons first rest =>
      have top := Octets.topBit_iff first rest
      rw [Octets.topBit, decide_eq_true_eq] at top
      simp only [List.head?_cons, Option.mem_def, Option.some.injEq, exists_eq_left', top,
        List.length_cons] at width ⊢
      by_cases eight : rest.length + 1 = 8
      · rw [eight]
        omega
      · have bound := Octets.beNat_lt (first :: rest)
        have bound' : (256 : Nat) ^ (first :: rest).length ≤ 256 ^ 7 := by
          apply Nat.pow_le_pow_right (by decide)
          rw [List.length_cons]
          omega
        omega

theorem exists_packetSize_iff {lengthbyte : Byte} (long : hasBit8 lengthbyte = true)
    (arrived : List Byte) :
    (∃ more size, packetSize (asnSequence :: lengthbyte :: (arrived ++ more)) = some size) ↔
      IsLengthPrefix (lengthbyte &&& 0x7f).toNat arrived := by
  simp only [packetSize_long long]
  generalize (lengthbyte &&& 0x7f).toNat = octets
  have width {more : List Byte} (narrow : octets ≤ 8) :
      ((arrived ++ more).take octets).length ≤ 8 := by
    rw [List.length_take]
    omega
  constructor
  · rintro ⟨more, size, accepted⟩
    split at accepted
    · exact absurd accepted (by simp)
    · rename_i right
      simp only [not_or] at right
      rcases right with ⟨definite, narrow, whole, nonneg⟩
      refine ⟨definite, not_lt.mp narrow, ?_⟩
      intro eight first mem
      by_contra large
      apply nonneg
      apply (beNat_large_iff (width (not_lt.mp narrow))).mpr
      refine ⟨by rw [List.length_take]; omega, first, ?_, not_lt.mp large⟩
      cases arrived with
      | nil => exact absurd mem (by simp)
      | cons first' rest =>
          obtain rfl : first' = first := by simpa using mem
          simp [eight]
  · rintro ⟨definite, narrow, leading⟩
    refine ⟨List.replicate octets 0, _, if_neg ?_⟩
    simp only [not_or]
    refine ⟨definite, not_lt.mpr narrow, by simp, ?_⟩
    intro negative
    rcases (beNat_large_iff (width narrow)).mp negative with ⟨eight, first, mem, large⟩
    have eight' : octets = 8 := by
      rw [List.length_take] at eight
      omega
    subst eight'
    cases arrived with
    | nil =>
        obtain rfl : first = 0 := by simpa [eq_comm] using mem
        exact absurd large (by decide)
    | cons first' rest =>
        obtain rfl : first' = first := by simpa using mem
        have small := leading rfl first' rfl
        omega

theorem answersSize_toCInt_iff {input : List Byte} {size : Nat} (pos : 0 < size)
    (isSize : packetSize input = some size) :
    AnswersSize input (toCInt size) ↔ size < 2 ^ 31 ∨ 2 ^ 31 ≤ size % 2 ^ 32 := by
  have complete : ¬ IsIncomplete input := by
    rintro ⟨none_size, -⟩
    exact absurd (none_size.symm.trans isSize) (by simp)
  constructor
  · intro answers
    by_contra wrong
    rw [not_or] at wrong
    have nonneg := (toCInt_nonneg_iff size).mpr (not_le.mp wrong.2)
    rcases lt_or_eq_of_le nonneg with positive | zero
    · have same := Option.some.inj (isSize.symm.trans (answers.exact positive))
      have small := toCInt_lt (size : Int)
      omega
    · exact complete (answers.incomplete zero.symm)
  · rintro (small | negative)
    · rw [toCInt_eq_self small]
      refine ⟨by omega, ?_, by omega⟩
      intro _
      rw [isSize, Int.toNat_natCast]
    · have isNeg := toCInt_neg negative
      refine ⟨by omega, by omega, ?_⟩
      intro _
      refine ⟨complete, ?_⟩
      intro size' isSize'
      obtain rfl := Option.some.inj (isSize.symm.trans isSize')
      omega

theorem answersSize_long_iff {lengthbyte : Byte} (long : hasBit8 lengthbyte = true)
    (arrived : List Byte) (len : Nat) (len_eq : len = arrived.length + 2) :
    AnswersSize (asnSequence :: lengthbyte :: arrived)
        (if toCInt len < (lengthbyte &&& 0x7f).toNat + 2 then 0
        else match packetSize (asnSequence :: lengthbyte :: arrived) with
          | none => 0
          | some size => toCInt size) ↔
      IsLengthPrefix (lengthbyte &&& 0x7f).toNat arrived ∧
        ((lengthbyte &&& 0x7f).toNat ≤ arrived.length →
          ((lengthbyte &&& 0x7f).toNat : Int) + 2 ≤ toCInt len ∧
            (Octets.beNat (arrived.take (lengthbyte &&& 0x7f).toNat) + 2 +
                (lengthbyte &&& 0x7f).toNat < 2 ^ 31 ∨
              2 ^ 31 ≤ (Octets.beNat (arrived.take (lengthbyte &&& 0x7f).toNat) + 2 +
                (lengthbyte &&& 0x7f).toNat) % 2 ^ 32)) := by
  have extends_iff := exists_packetSize_iff long arrived
  have isSize := packetSize_long long arrived
  generalize (lengthbyte &&& 0x7f).toNat = octets at extends_iff isSize
  by_cases possible : IsLengthPrefix octets arrived
  · rcases possible with ⟨definite, narrow, leading⟩
    by_cases whole : octets ≤ arrived.length
    · -- the header is there
      have nonneg : ¬ 2 ^ 63 ≤ Octets.beNat (arrived.take octets) := by
        intro negative
        have width : (arrived.take octets).length ≤ 8 := by
          rw [List.length_take]
          omega
        rcases (beNat_large_iff width).mp negative with ⟨eight, first, mem, large⟩
        have eight' : octets = 8 := by
          rw [List.length_take] at eight
          omega
        have small := leading eight' first (by
          rwa [List.head?_take, if_neg definite] at mem)
        omega
      rw [if_neg (by omega)] at isSize
      by_cases early : toCInt len < (octets : Int) + 2
      · rw [if_pos early]
        apply iff_of_false
        · intro answers
          exact absurd ((answers.incomplete rfl).1.symm.trans isSize) (by simp)
        · rintro ⟨-, fits⟩
          have enough := (fits whole).1
          omega
      · simp only [if_neg early, isSize, answersSize_toCInt_iff (by omega) isSize]
        constructor
        · intro fits
          exact ⟨⟨definite, narrow, leading⟩, fun _ => ⟨not_lt.mp early, fits⟩⟩
        · rintro ⟨-, fits⟩
          exact (fits whole).2
    · -- some octets are missing
      rw [if_pos (.inr (.inr (.inl (not_le.mp whole))))] at isSize
      have early : toCInt len < (octets : Int) + 2 := by
        rw [toCInt_eq_self (by omega)]
        omega
      rw [if_pos early]
      apply iff_of_true
      · refine ⟨fun _ => ⟨isSize, ?_⟩, by simp, by simp⟩
        exact extends_iff.mpr ⟨definite, narrow, leading⟩
      · exact ⟨⟨definite, narrow, leading⟩, fun all => absurd all whole⟩
  · -- no octets can make it a length field
    have none_size : packetSize (asnSequence :: lengthbyte :: arrived) = none := by
      by_contra some_size
      rcases Option.ne_none_iff_exists'.mp some_size with ⟨size, accepted⟩
      exact possible (extends_iff.mp ⟨[], size, by rwa [List.append_nil]⟩)
    rw [none_size]
    simp only [ite_self]
    apply iff_of_false
    · intro answers
      exact possible (extends_iff.mp (answers.incomplete rfl).2)
    · exact fun fits => possible fits.1

/-- The answer for the bytes that have arrived is right exactly when they fit. -/
theorem asnCheckPacket_answersSize_iff (input : List Byte) :
    ∃ answer, (asnCheckPacket input input.length).outcome = .ok answer ∧
      (AnswersSize input answer ↔ SizeFits input) := by
  match input with
  | [] =>
      refine ⟨0, rfl, iff_of_true ?_ trivial⟩
      refine ⟨fun _ => ⟨rfl, [asnSequence, 0], 2, by decide⟩, by simp, by simp⟩
  | [type] =>
      refine ⟨0, rfl, ?_⟩
      constructor
      · intro answers
        rcases (answers.incomplete rfl).2 with ⟨more, size, accepted⟩
        by_contra other
        have other' : type ≠ asnSequence := other
        simp [packetSize, other'] at accepted
      · intro isSequence
        have isSequence' : type = asnSequence := isSequence
        subst isSequence'
        exact ⟨fun _ => ⟨by decide, [0], 2, by decide⟩, by simp, by simp⟩
  | type :: lengthbyte :: arrived =>
      have enough : ¬ (type :: lengthbyte :: arrived).length < 2 := by simp
      by_cases isSequence : type = asnSequence
      · subst isSequence
        cases long : hasBit8 lengthbyte with
        | false =>
            have size_eq := packetSize_short long arrived
            refine ⟨(lengthbyte.toNat + 2 : Nat), ?_, ?_⟩
            · simp [asnCheckPacket, long]
            · apply iff_of_true
              · refine ⟨by omega, ?_, by omega⟩
                intro _
                rw [size_eq, Int.toNat_natCast]
              · intro _ isLong
                rw [long] at isLong
                exact absurd isLong (by simp)
        | true =>
            refine ⟨_, outcome_asnCheckPacket_long long arrived _ rfl, ?_⟩
            apply (answersSize_long_iff long arrived _ rfl).trans
            exact ⟨fun fits _ _ => fits, fun fits => fits rfl long⟩
      · refine ⟨-1, ?_, ?_⟩
        · simp [asnCheckPacket, isSequence]
        · have none_size (more : List Byte) :
              packetSize (type :: lengthbyte :: (arrived ++ more)) = none := by
            simp [packetSize, isSequence]
          apply iff_of_true
          · refine ⟨by simp, by simp, ?_⟩
            intro _
            constructor
            · rintro ⟨-, more, size, accepted⟩
              exact absurd ((none_size more).symm.trans accepted) (by simp)
            · intro size accepted
              have nothing := none_size []
              rw [List.append_nil] at nothing
              exact absurd (nothing.symm.trans accepted) (by simp)
          · intro isSequence'
            exact absurd isSequence' isSequence

/-- The two octets of an indefinite length are never part of a packet, and are waited for. -/
theorem asnCheckPacket_indefinite :
    (asnCheckPacket [0x30, 0x80] 2).outcome = .ok 0 ∧ ¬ AnswersSize [0x30, 0x80] 0 := by
  refine ⟨by decide +kernel, ?_⟩
  intro answers
  have long : hasBit8 0x80 = true := by decide
  have possible := (exists_packetSize_iff long []).mp (answers.incomplete rfl).2
  exact possible.1 rfl

end NetSnmp
