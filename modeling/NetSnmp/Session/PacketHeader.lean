import NetSnmp.Agentx.Protocol
import NetSnmp.Asn.CheckPacket
import NetSnmp.Framing

/-!
# The length of a packet by its header

The routines that a session on a stream asks for the length of the packet at the
beginning of its buffer.  They look at no more than the header.
-/

namespace NetSnmp

open Reader

/-- `asn_check_packet` on the bytes of a buffer. -/
def asnPacketSize (pkt : List Byte) : Int :=
  match (asnCheckPacket pkt pkt.length).outcome with
  | .ok size => size
  | _ => 0

def agentxFlagsNetworkByteOrder : Byte := 0x10

/-- `agentx_check_packet` on the bytes of a buffer, on a machine that stores numbers as `host`. -/
def agentxCheckPacket (host : ByteOrder) (packet : List Byte) : Int :=
  if packet.length < 20 then 0
  else
    let network : ByteOrder :=
      if packet.getD 2 0 &&& agentxFlagsNetworkByteOrder ≠ 0 then .bigEndian else .littleEndian
    toCInt (agentxParseInt ⟨host, network⟩ (packet.drop 16) + 20)

/-- The frame at the beginning of the input when the checker answers `answer`. -/
def frameOfAnswer (answer : Int) (input : List Byte) : Frame :=
  if snmpMaxPacketLen < toSizeT answer then .broken
  else if input.length < toSizeT answer ∨ toSizeT answer = 0 then .incomplete
  else .whole (toSizeT answer)

/-- An answer that is given by the first 20 bytes at the latest, and stays. -/
structure HeaderCheck where
  answer : List Byte → Int
  answer_nil : answer [] = 0
  answer_append : ∀ {input} (more : List Byte), answer input ≠ 0 ∨ 20 ≤ input.length →
    answer (input ++ more) = answer input

theorem frameOfAnswer_eq_whole {answer : Int} {input : List Byte} {size : Nat} :
    frameOfAnswer answer input = .whole size ↔
      toSizeT answer = size ∧ size ≤ snmpMaxPacketLen ∧ 0 < size ∧ size ≤ input.length := by
  unfold frameOfAnswer
  split
  · simp only [reduceCtorEq, false_iff, not_and]
    omega
  · split
    · simp only [reduceCtorEq, false_iff, not_and]
      omega
    · simp only [Frame.whole.injEq]
      omega

theorem frameOfAnswer_eq_incomplete {answer : Int} {input : List Byte} :
    frameOfAnswer answer input = .incomplete ↔
      toSizeT answer ≤ snmpMaxPacketLen ∧
        (input.length < toSizeT answer ∨ toSizeT answer = 0) := by
  unfold frameOfAnswer
  split
  · simp only [reduceCtorEq, false_iff, not_and]
    omega
  · split
    · rename_i known wait
      exact iff_of_true rfl ⟨not_lt.mp known, wait⟩
    · rename_i known wait
      simp only [reduceCtorEq, false_iff, not_and]
      exact fun _ => wait

theorem frameOfAnswer_zero (input : List Byte) : frameOfAnswer 0 input = .incomplete :=
  frameOfAnswer_eq_incomplete.mpr ⟨by decide, .inr rfl⟩

theorem frameOfAnswer_append {answer : Int} {input : List Byte} (more : List Byte)
    (decided : frameOfAnswer answer input ≠ .incomplete) :
    frameOfAnswer answer (input ++ more) = frameOfAnswer answer input := by
  unfold frameOfAnswer at decided ⊢
  rw [List.length_append]
  split
  · rfl
  · rename_i known
    rw [if_neg known] at decided
    by_cases wait : input.length < toSizeT answer ∨ toSizeT answer = 0
    · exact absurd (if_pos wait) decided
    · rw [if_neg wait, if_neg (by omega)]

def HeaderCheck.framing (check : HeaderCheck) : Framing Byte where
  frame input := frameOfAnswer (check.answer input) input
  pos decided := (frameOfAnswer_eq_whole.mp decided).2.2.1
  le_length decided := (frameOfAnswer_eq_whole.mp decided).2.2.2
  frame_nil := by rw [check.answer_nil, frameOfAnswer_zero]
  frame_append {input} more decided := by
    have known : check.answer input ≠ 0 := by
      intro zero
      rw [zero] at decided
      exact decided (frameOfAnswer_zero input)
    rw [check.answer_append more (.inl known), frameOfAnswer_append more decided]

theorem HeaderCheck.length_rest_lt (check : HeaderCheck) {waiting read : List Byte}
    (wait : check.framing.frame waiting = .incomplete)
    (delivered : (check.framing.cut (waiting ++ read)).frames ≠ []) :
    (check.framing.cut (waiting ++ read)).rest.length < read.length + 20 := by
  cases decided : check.framing.frame (waiting ++ read) with
  | incomplete => exact absurd (by rw [Framing.cut_of_incomplete decided]) delivered
  | broken => exact absurd (by rw [Framing.cut_of_broken decided]) delivered
  | whole size =>
      have rest_le := @Framing.length_rest_le _ check.framing
        ((waiting ++ read).drop size)
      rw [List.length_drop, List.length_append] at rest_le
      rw [Framing.cut_of_whole decided]
      change (check.framing.cut ((waiting ++ read).drop size)).rest.length < _
      rcases frameOfAnswer_eq_whole.mp decided with ⟨size_eq, -, pos, -⟩
      rcases frameOfAnswer_eq_incomplete.mp wait with ⟨-, short⟩
      by_cases header : 20 ≤ waiting.length
      · rw [check.answer_append read (.inr header)] at size_eq
        omega
      · omega

theorem agentxParseInt_append (order : AgentxOrder) {data : List Byte} (more : List Byte)
    (enough : 4 ≤ data.length) :
    agentxParseInt order (data ++ more) = agentxParseInt order data := by
  simp only [agentxParseInt, agentxParseNumber, List.take_append_of_le_length enough]

def agentxHeader (host : ByteOrder) : HeaderCheck where
  answer := agentxCheckPacket host
  answer_nil := rfl
  answer_append {input} more known := by
    have enough : 20 ≤ input.length := by
      rcases known with nonzero | enough
      · by_contra short
        exact nonzero (if_pos (not_le.mp short))
      · exact enough
    have flags : (input ++ more).getD 2 0 = input.getD 2 0 := by
      rw [List.getD_eq_getElem?_getD, List.getElem?_append_left (by omega),
        ← List.getD_eq_getElem?_getD]
    have whole : ¬ input.length < 20 := not_lt.mpr enough
    have whole' : ¬ (input ++ more).length < 20 := by
      rw [List.length_append]
      omega
    rw [agentxCheckPacket, agentxCheckPacket, if_neg whole, if_neg whole', flags,
      List.drop_append_of_le_length (by omega)]
    simp only [agentxParseInt_append _ more
      (show 4 ≤ (input.drop 16).length by rw [List.length_drop]; omega)]

theorem asnPacketSize_nil : asnPacketSize [] = 0 := rfl

theorem asnPacketSize_singleton (type : Byte) : asnPacketSize [type] = 0 := rfl

theorem asnPacketSize_other {type : Byte} (other : type ≠ asnSequence) (lengthbyte : Byte)
    (arrived : List Byte) : asnPacketSize (type :: lengthbyte :: arrived) = -1 := by
  simp [asnPacketSize, asnCheckPacket, other]

theorem asnPacketSize_short {lengthbyte : Byte} (short : hasBit8 lengthbyte = false)
    (arrived : List Byte) :
    asnPacketSize (asnSequence :: lengthbyte :: arrived) = (lengthbyte.toNat + 2 : Nat) := by
  simp [asnPacketSize, asnCheckPacket, short]

def longSize (lengthbyte : Byte) (arrived : List Byte) : Int :=
  let octets := (lengthbyte &&& 0x7f).toNat
  let length := Octets.beNat (arrived.take octets)
  if octets = 0 ∨ 8 < octets ∨ 2 ^ 63 ≤ length then 0 else toCInt (length + 2 + octets : Nat)

theorem asnPacketSize_long {lengthbyte : Byte} (long : hasBit8 lengthbyte = true)
    (arrived : List Byte) :
    asnPacketSize (asnSequence :: lengthbyte :: arrived) =
      if toCInt (arrived.length + 2 : Nat) < (lengthbyte &&& 0x7f).toNat + 2 then 0
      else longSize lengthbyte arrived := by
  have le := toCInt_le_self (arrived.length + 2)
  unfold asnPacketSize longSize
  rw [List.length_cons, List.length_cons, outcome_asnCheckPacket_long long arrived _ rfl,
    packetSize_long long]
  generalize (lengthbyte &&& 0x7f).toNat = octets at le ⊢
  by_cases early : toCInt (arrived.length + 2 : Nat) < (octets : Int) + 2
  · simp only [if_pos early]
  · have whole : ¬ arrived.length < octets := by omega
    simp only [if_neg early, whole, false_or]
    by_cases unknown : octets = 0 ∨ 8 < octets ∨ 2 ^ 63 ≤ Octets.beNat (arrived.take octets)
    · rw [if_pos unknown, if_pos unknown]
    · rw [if_neg unknown, if_neg unknown]

theorem longSize_of_wide {lengthbyte : Byte} (wide : 8 < (lengthbyte &&& 0x7f).toNat)
    (arrived : List Byte) : longSize lengthbyte arrived = 0 := by
  simp only [longSize, wide, true_or, or_true, if_true]

theorem longSize_append (lengthbyte : Byte) {arrived : List Byte} (more : List Byte)
    (enough : (lengthbyte &&& 0x7f).toNat ≤ arrived.length ∨ 8 ≤ arrived.length) :
    longSize lengthbyte (arrived ++ more) = longSize lengthbyte arrived := by
  by_cases wide : 8 < (lengthbyte &&& 0x7f).toNat
  · rw [longSize_of_wide wide, longSize_of_wide wide]
  · have inside : (lengthbyte &&& 0x7f).toNat ≤ arrived.length := by omega
    simp only [longSize, List.take_append_of_le_length inside]

theorem asnPacketSize_append {input : List Byte} (more : List Byte)
    (small : (input ++ more).length < 2 ^ 31)
    (known : asnPacketSize input ≠ 0 ∨ 10 ≤ input.length) :
    asnPacketSize (input ++ more) = asnPacketSize input := by
  match input with
  | [] => exact absurd known (by simp [asnPacketSize_nil])
  | [type] => exact absurd known (by simp [asnPacketSize_singleton])
  | type :: lengthbyte :: arrived =>
      simp only [List.cons_append, List.length_cons, List.length_append] at small known ⊢
      by_cases other : type = asnSequence
      · subst other
        cases long : hasBit8 lengthbyte with
        | false => rw [asnPacketSize_short long, asnPacketSize_short long]
        | true =>
            rw [asnPacketSize_long long] at known
            rw [asnPacketSize_long long, asnPacketSize_long long]
            rw [toCInt_eq_self (by omega)] at known
            rw [toCInt_eq_self (by rw [List.length_append]; omega), toCInt_eq_self (by omega)]
            by_cases early : ((arrived.length + 2 : Nat) : Int) < (lengthbyte &&& 0x7f).toNat + 2
            · have wide : 8 < (lengthbyte &&& 0x7f).toNat := by
                rw [if_pos early] at known
                simp only [ne_eq, not_true_eq_false, false_or] at known
                omega
              rw [longSize_of_wide wide, longSize_of_wide wide, ite_self, ite_self]
            · rw [if_neg early, if_neg (by rw [List.length_append]; omega)]
              exact longSize_append lengthbyte more (.inl (by omega))
      · rw [asnPacketSize_other other, asnPacketSize_other other]

def asnHeader : HeaderCheck where
  answer input := asnPacketSize (input.take 10)
  answer_nil := rfl
  answer_append {input} more known := by
    by_cases enough : 10 ≤ input.length
    · rw [List.take_append_of_le_length enough]
    · rw [List.take_of_length_le (l := input) (by omega)] at known ⊢
      rw [List.take_append, List.take_of_length_le (l := input) (by omega)]
      apply asnPacketSize_append
      · rw [List.length_append, List.length_take]
        omega
      · exact known.imp_right fun _ => by omega

theorem asnPacketSize_eq_header {input : List Byte} (small : input.length < 2 ^ 31) :
    asnPacketSize input = asnHeader.answer input := by
  by_cases short : input.length ≤ 10
  · change asnPacketSize input = asnPacketSize (input.take 10)
    rw [List.take_of_length_le short]
  · have whole := @asnPacketSize_append (input.take 10) (input.drop 10)
      (by rwa [List.take_append_drop]) (.inr (by rw [List.length_take]; omega))
    rwa [List.take_append_drop] at whole

theorem asnPacketSize_of_header_eq_zero {input : List Byte} (zero : asnHeader.answer input = 0) :
    asnPacketSize input = 0 := by
  by_cases short : input.length < 10
  · rw [asnPacketSize_eq_header (by omega), zero]
  · match input with
    | [] => rfl
    | [type] => rfl
    | type :: lengthbyte :: arrived =>
        simp only [List.length_cons] at short
        change asnPacketSize (type :: lengthbyte :: arrived.take 8) = 0 at zero
        by_cases other : type = asnSequence
        · subst other
          cases long : hasBit8 lengthbyte with
          | false =>
              rw [asnPacketSize_short long] at zero
              omega
          | true =>
              have length_eq : (arrived.take 8).length = 8 := by
                rw [List.length_take]
                omega
              rw [asnPacketSize_long long, length_eq, toCInt_eq_self (by omega)] at zero
              have unknown : longSize lengthbyte arrived = 0 := by
                by_cases early : ((8 + 2 : Nat) : Int) < (lengthbyte &&& 0x7f).toNat + 2
                · exact longSize_of_wide (by omega) arrived
                · rw [if_neg early] at zero
                  have same := longSize_append lengthbyte (arrived.drop 8) (.inr length_eq.ge)
                  rwa [List.take_append_drop, zero] at same
              rw [asnPacketSize_long long, unknown, ite_self]
        · rw [asnPacketSize_other other] at zero
          exact absurd zero (by decide)

end NetSnmp
