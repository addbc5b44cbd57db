import NetSnmp.Agentx.RoundTrip
import NetSnmp.Session.PacketHeader

/-!
# The length of an AgentX packet

The header declares the number of bytes behind it.  `agentx_check_packet` adds the
size of the header to it as an `int`, which wraps around for the greatest numbers.
-/

namespace NetSnmp

def headerOrder (packet : List Byte) : ByteOrder :=
  if packet.getD 2 0 &&& agentxFlagsNetworkByteOrder ≠ 0 then .bigEndian else .littleEndian

def payloadLength (packet : List Byte) : Nat :=
  (headerOrder packet).load ((packet.drop 16).take 4)

/-- The answer is zero for an incomplete header only, and for a complete one it is the length of the
packet or negative. -/
structure AnswersLength (packet : List Byte) (answer : Int) : Prop where
  incomplete : answer = 0 → packet.length < 20
  complete : 20 ≤ packet.length →
    (answer = 20 + payloadLength packet ∧ 20 ≤ answer) ∨ answer < 0

theorem payloadLength_lt (packet : List Byte) : payloadLength packet < 2 ^ 32 := by
  have width : ((packet.drop 16).take 4).length ≤ 4 := List.length_take_le _ _
  have bound := ByteOrder.load_lt (headerOrder packet) ((packet.drop 16).take 4)
  have scale : 256 ^ ((packet.drop 16).take 4).length ≤ 256 ^ 4 :=
    Nat.pow_le_pow_right (by decide) width
  unfold payloadLength
  omega

theorem agentxCheckPacket_eq (host : ByteOrder) {packet : List Byte}
    (complete : 20 ≤ packet.length) :
    agentxCheckPacket host packet = toCInt (payloadLength packet + 20 : Nat) := by
  have enough : 4 ≤ (packet.drop 16).length := by
    rw [List.length_drop]
    omega
  have parsed := agentxParseNumber_eq ⟨host, headerOrder packet⟩ enough
  have bound := payloadLength_lt packet
  rw [agentxCheckPacket, if_neg (not_lt.mpr complete)]
  change toCInt (agentxParseInt ⟨host, headerOrder packet⟩ (packet.drop 16) + 20) = _
  rw [agentxParseInt, parsed]
  change toCInt (toCInt (payloadLength packet : Nat) + 20) = _
  unfold toCInt signedOfBits
  split <;> split <;> split <;> omega

/-- The answer is right unless the length is within twenty of 2 ^ 32. -/
theorem agentxCheckPacket_answersLength_iff (host : ByteOrder) (packet : List Byte) :
    AnswersLength packet (agentxCheckPacket host packet) ↔
      packet.length < 20 ∨ payloadLength packet < 2 ^ 32 - 20 := by
  by_cases complete : 20 ≤ packet.length
  · have answer_eq := agentxCheckPacket_eq host complete
    have bound := payloadLength_lt packet
    have value : agentxCheckPacket host packet =
        if payloadLength packet + 20 < 2 ^ 31 then (payloadLength packet + 20 : Int)
        else (payloadLength packet + 20 : Int) - 2 ^ 32 := by
      rw [answer_eq]
      unfold toCInt signedOfBits
      split <;> split <;> omega
    constructor
    · intro answers
      right
      by_contra large
      rcases answers.complete complete with ⟨exact, -⟩ | negative
      · split at value <;> omega
      · split at value <;> omega
    · rintro (short | small)
      · omega
      · constructor
        · intro zero
          split at value <;> omega
        · intro _
          split at value
          · left
            omega
          · right
            omega
  · have incomplete : packet.length < 20 := not_le.mp complete
    have answer_eq : agentxCheckPacket host packet = 0 := if_pos incomplete
    refine iff_of_true ⟨fun _ => incomplete, fun enough => absurd enough complete⟩ (.inl incomplete)

/-- A header with the length 2 ^ 32 - 20: zero, and the stream waits for more. -/
theorem not_agentxCheckPacket_answersLength :
    ¬ ∀ (host : ByteOrder) (packet : List Byte),
      AnswersLength packet (agentxCheckPacket host packet) := by
  intro answers
  have answer := (answers .littleEndian
    [1, 5, 0x10, 0, 0, 0, 0, 0, 0, 0, 0, 0, 0, 0, 0, 0, 0xff, 0xff, 0xff, 0xec]).incomplete
      (by decide +kernel)
  exact absurd answer (by decide)

end NetSnmp
