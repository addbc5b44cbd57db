import NetSnmp.Session.PacketHeader

/-!
# Reading from a stream

The part of `__sess_read` for a stream transport: what arrives goes behind what
is left from the last time, and every packet that is complete is processed.
-/

namespace NetSnmp

def snmpMaxRcvMsgSize : Nat := 65536

/-- A session on a stream.  A buffer that is not allocated has the size zero. -/
structure StreamSession where
  checkPacket : Option (List Byte → Int)
  /-- The first `packet_len` bytes of the buffer. -/
  packet : List Byte
  packetSize : Nat
  /-- The packets handed to `_sess_process_packet`. -/
  processed : List (List Byte)
  closed : Bool

namespace StreamSession

def bufferSize (isp : StreamSession) : Nat :=
  if isp.packetSize < isp.packet.length + snmpMaxRcvMsgSize then
    isp.packet.length + snmpMaxRcvMsgSize
  else isp.packetSize

/-- The room for the next bytes, `rxbuf_len`. -/
def rxbufLen (isp : StreamSession) : Nat := isp.bufferSize - isp.packet.length

/-- The length that is expected of the packet at `pptr`, as a `size_t`. -/
def pdulen (isp : StreamSession) (pptr : List Byte) : Nat :=
  match isp.checkPacket with
  | some check => toSizeT (check pptr)
  | none => toSizeT (asnPacketSize pptr)

def readLoop (isp : StreamSession) (pptr : List Byte) : Cut Byte :=
  if pptr.length = 0 then ⟨[], pptr, false⟩
  else if snmpMaxPacketLen < isp.pdulen pptr then ⟨[], pptr, true⟩
  else if isp.pdulen pptr > pptr.length ∨ isp.pdulen pptr = 0 then ⟨[], pptr, false⟩
  else
    let later := readLoop isp (pptr.drop (isp.pdulen pptr))
    { later with frames := pptr.take (isp.pdulen pptr) :: later.frames }
termination_by pptr.length
decreasing_by
  rw [List.length_drop]
  omega

/-- `__sess_read` of the bytes `received`, at least one. -/
def sessRead (isp : StreamSession) (received : List Byte) : StreamSession :=
  if isp.closed then isp
  else
    let loop := isp.readLoop (isp.packet ++ received)
    let processed := isp.processed ++ loop.frames
    if loop.broken then { isp with processed := processed, closed := true }
    else if loop.frames = [] ∧ loop.rest ≠ [] then
      -- the packet stays where it is
      { isp with packet := loop.rest, packetSize := isp.bufferSize }
    else if loop.rest.length ≥ snmpMaxPacketLen then
      { isp with processed := processed, closed := true }
    else
      { isp with processed := processed, packet := loop.rest, packetSize := loop.rest.length }

def opened (checkPacket : Option (List Byte → Int)) : StreamSession :=
  ⟨checkPacket, [], 0, [], false⟩

/-- What a stream transport can receive: not nothing, and no more than there is room for. -/
def Receives (isp : StreamSession) (received : List Byte) : Prop :=
  isp.closed = false → received ≠ [] ∧ received.length ≤ isp.rxbufLen

def EachRead (property : StreamSession → List Byte → Prop) : StreamSession → List (List Byte) → Prop
  | _, [] => True
  | isp, received :: reads =>
      property isp received ∧ EachRead property (isp.sessRead received) reads

/-- Two runs end alike: the same packets were processed, and either both are closed or the same
bytes are left in both. -/
def SameOutcome (isp isp' : StreamSession) : Prop :=
  isp.processed = isp'.processed ∧ isp.closed = isp'.closed ∧
    (isp.closed = false → isp.packet = isp'.packet)

/-- The number of bytes in the buffer fits an `int`, or the header of the packet is not one that
`asn_check_packet` answers; other checkers have no such limit. -/
def CountFits (isp : StreamSession) (received : List Byte) : Prop :=
  isp.checkPacket = none → isp.closed = false →
    (isp.packet ++ received).length < 2 ^ 31 ∨
      asnPacketSize ((isp.packet ++ received).take 10) = 0

@[simp]
theorem checkPacket_sessRead (isp : StreamSession) (received : List Byte) :
    (isp.sessRead received).checkPacket = isp.checkPacket := by
  simp only [sessRead]
  split_ifs <;> rfl

theorem pdulen_of_default {isp : StreamSession} (default : isp.checkPacket = none)
    (pptr : List Byte) : isp.pdulen pptr = toSizeT (asnPacketSize pptr) := by
  rw [pdulen, default]

section Check

variable {check : HeaderCheck}

theorem readLoop_eq_cut {isp : StreamSession} {pptr : List Byte}
    (agrees : ∀ count, isp.pdulen (pptr.drop count) =
      toSizeT (check.answer (pptr.drop count))) :
    isp.readLoop pptr = check.framing.cut pptr := by
  induction length_eq : pptr.length using Nat.strongRecOn generalizing pptr with
  | _ length ih =>
      have here := agrees 0
      rw [List.drop_zero] at here
      rw [readLoop]
      split_ifs with empty broken wait
      · rw [List.length_eq_zero_iff.mp empty, Framing.cut_nil]
      · rw [Framing.cut_of_broken]
        rw [here] at broken
        exact if_pos broken
      · rw [Framing.cut_of_incomplete]
        rw [here] at broken wait
        exact frameOfAnswer_eq_incomplete.mpr ⟨not_lt.mp broken, wait⟩
      · have decided : check.framing.frame pptr = .whole (isp.pdulen pptr) := by
          apply frameOfAnswer_eq_whole.mpr
          omega
        have later := ih (pptr.drop (isp.pdulen pptr)).length
          (by rw [List.length_drop]; omega)
          (fun count => by rw [List.drop_drop]; exact agrees _) rfl
        rw [Framing.cut_of_whole decided, later]

theorem readLoop_of_zero {isp : StreamSession} {pptr : List Byte} (zero : isp.pdulen pptr = 0) :
    isp.readLoop pptr = ⟨[], pptr, false⟩ := by
  rw [readLoop, zero]
  simp

structure Reassembled (check : HeaderCheck) (isp : StreamSession) (input : List Byte) : Prop where
  processed : isp.processed = (check.framing.cut input).frames
  closed : isp.closed = (check.framing.cut input).broken
  packet : isp.closed = false → isp.packet = (check.framing.cut input).rest
  room : isp.closed = false → isp.packetSize ≤ isp.packet.length + snmpMaxRcvMsgSize

theorem reassembled_opened (checkPacket : Option (List Byte → Int)) :
    Reassembled check (opened checkPacket) [] := by
  refine ⟨?_, ?_, ?_, ?_⟩ <;> simp [opened, Framing.cut_nil]

theorem rxbufLen_eq {isp : StreamSession}
    (room : isp.packetSize ≤ isp.packet.length + snmpMaxRcvMsgSize) :
    isp.rxbufLen = snmpMaxRcvMsgSize := by
  unfold rxbufLen bufferSize
  split <;> omega

theorem Reassembled.sessRead {isp : StreamSession} {input received : List Byte}
    (before : Reassembled check isp input) (receives : isp.Receives received)
    (loop : isp.closed = false → isp.readLoop (isp.packet ++ received) =
      check.framing.cut (isp.packet ++ received)) :
    Reassembled check (isp.sessRead received) (input ++ received) := by
  have feed := @Framing.cut_append _ check.framing input received
  unfold Framing.feed at feed
  cases closed : isp.closed with
  | true =>
      have broken := before.closed.symm.trans closed
      rw [if_pos broken] at feed
      have same : isp.sessRead received = isp := if_pos closed
      rw [same]
      refine ⟨?_, ?_, ?_, ?_⟩
      · rw [feed, before.processed]
      · rw [feed, before.closed]
      · intro opened
        exact absurd (closed.symm.trans opened) (by simp)
      · exact before.room
  | false =>
      have whole := before.closed.symm.trans closed
      have packet_eq := before.packet closed
      have room := before.room closed
      have wait : check.framing.frame isp.packet = .incomplete := by
        rw [packet_eq]
        exact Framing.frame_rest whole
      have limited := (receives closed).2
      rw [rxbufLen_eq room] at limited
      rw [whole, ← packet_eq, ← before.processed] at feed
      have short (delivered : (check.framing.cut (isp.packet ++ received)).frames ≠ []) :=
        check.length_rest_lt wait delivered
      have stays (none : (check.framing.cut (isp.packet ++ received)).frames = []) :=
        Framing.rest_of_frames_eq_nil none
      unfold StreamSession.sessRead
      rw [closed, loop closed]
      generalize check.framing.cut (isp.packet ++ received) = later at feed short stays
      simp only [Bool.false_eq_true, if_false] at feed ⊢
      split_ifs with broken waits large
      · exact ⟨by rw [feed], by rw [feed, broken], by simp, by simp⟩
      · refine ⟨?_, ?_, ?_, ?_⟩
        · rw [feed, waits.1, List.append_nil]
        · rw [feed]
          exact (Bool.eq_false_iff.mpr broken).symm
        · intro _
          rw [feed]
        · intro _
          have size_le : isp.bufferSize ≤ isp.packet.length + snmpMaxRcvMsgSize := by
            unfold bufferSize
            split
            · exact le_rfl
            · exact room
          rw [stays waits.1, List.length_append]
          change isp.bufferSize ≤ _
          omega
      · -- a remainder of this size is never left
        unfold snmpMaxPacketLen at large
        unfold snmpMaxRcvMsgSize at limited
        by_cases none : later.frames = []
        · have rest_eq : later.rest = [] := by
            by_contra some
            exact waits ⟨none, some⟩
          rw [rest_eq, List.length_nil] at large
          omega
        · have small := short none
          omega
      · refine ⟨?_, ?_, ?_, ?_⟩
        · rw [feed]
        · rw [feed]
          exact (Bool.eq_false_iff.mpr broken).symm
        · intro _
          rw [feed]
        · intro _
          exact Nat.le_add_right _ _

def CheckedBy (check : HeaderCheck) (isp : StreamSession) : Prop :=
  ∀ received, isp.CountFits received → isp.closed = false →
    isp.readLoop (isp.packet ++ received) = check.framing.cut (isp.packet ++ received)

theorem reassembled_run {checkPacket : Option (List Byte → Int)}
    (checked : ∀ isp : StreamSession, isp.checkPacket = checkPacket → CheckedBy check isp)
    {isp : StreamSession} (same : isp.checkPacket = checkPacket) {input : List Byte}
    (before : Reassembled check isp input) {reads : List (List Byte)}
    (receives : EachRead Receives isp reads) (fits : EachRead CountFits isp reads) :
    Reassembled check (reads.foldl StreamSession.sessRead isp) (input ++ reads.flatten) := by
  induction reads generalizing isp input with
  | nil =>
      rw [List.flatten_nil, List.append_nil]
      exact before
  | cons received reads ih =>
      have next := before.sessRead receives.1 (checked isp same received fits.1)
      have after := ih (by rw [checkPacket_sessRead, same]) next receives.2 fits.2
      rwa [List.append_assoc] at after

end Check

theorem checkedBy_asnHeader {isp : StreamSession} (default : isp.checkPacket = none) :
    CheckedBy asnHeader isp := by
  intro received fits opened
  rcases fits default opened with small | unknown
  · apply readLoop_eq_cut
    intro count
    rw [pdulen_of_default default, asnPacketSize_eq_header]
    rw [List.length_drop]
    omega
  · have zero : asnHeader.answer (isp.packet ++ received) = 0 := unknown
    rw [readLoop_of_zero, Framing.cut_of_incomplete]
    · change frameOfAnswer (asnHeader.answer _) _ = _
      rw [zero, frameOfAnswer_zero]
    · rw [pdulen_of_default default, asnPacketSize_of_header_eq_zero zero]
      rfl

theorem checkedBy_agentxHeader {isp : StreamSession} {host : ByteOrder}
    (agentx : isp.checkPacket = some (agentxCheckPacket host)) :
    CheckedBy (agentxHeader host) isp := by
  intro received _ _
  apply readLoop_eq_cut
  intro count
  unfold pdulen
  rw [agentx]
  rfl

theorem sameOutcome_of_reassembled {check : HeaderCheck} {isp isp' : StreamSession}
    {input : List Byte} (cut : Reassembled check isp input) (cut' : Reassembled check isp' input) :
    SameOutcome isp isp' := by
  have closed_eq : isp.closed = isp'.closed := cut.closed.trans cut'.closed.symm
  refine ⟨cut.processed.trans cut'.processed.symm, closed_eq, ?_⟩
  intro opened
  rw [cut.packet opened, cut'.packet (closed_eq.symm.trans opened)]

/-- The pieces in which the bytes arrive make no difference as long as the number of bytes in the
buffer fits an `int` whenever `asn_check_packet` knows the size of the packet. -/
theorem sessRead_sameOutcome {checkPacket : Option (List Byte → Int)}
    (checks : checkPacket = none ∨ ∃ host, checkPacket = some (agentxCheckPacket host))
    {reads reads' : List (List Byte)} (same : reads.flatten = reads'.flatten)
    (receives : EachRead Receives (opened checkPacket) reads)
    (receives' : EachRead Receives (opened checkPacket) reads')
    (fits : EachRead CountFits (opened checkPacket) reads)
    (fits' : EachRead CountFits (opened checkPacket) reads') :
    SameOutcome (reads.foldl sessRead (opened checkPacket))
      (reads'.foldl sessRead (opened checkPacket)) := by
  have runs {check : HeaderCheck}
      (checked : ∀ isp : StreamSession, isp.checkPacket = checkPacket → CheckedBy check isp) :
      SameOutcome (reads.foldl sessRead (opened checkPacket))
        (reads'.foldl sessRead (opened checkPacket)) := by
    have cut := reassembled_run checked rfl (reassembled_opened checkPacket) receives fits
    have cut' := reassembled_run checked rfl (reassembled_opened checkPacket) receives' fits'
    rw [← same] at cut'
    exact sameOutcome_of_reassembled cut cut'
  rcases checks with rfl | ⟨host, rfl⟩
  · exact runs fun isp default => checkedBy_asnHeader default
  · exact runs fun isp agentx => checkedBy_agentxHeader agentx

theorem length_rest_readLoop_le (isp : StreamSession) (pptr : List Byte) :
    (isp.readLoop pptr).rest.length ≤ pptr.length := by
  induction length_eq : pptr.length using Nat.strongRecOn generalizing pptr with
  | _ length ih =>
      rw [readLoop]
      split_ifs
      · exact length_eq.le
      · exact length_eq.le
      · exact length_eq.le
      · have shorter : (pptr.drop (isp.pdulen pptr)).length < length := by
          rw [List.length_drop]
          omega
        exact (ih _ shorter _ rfl).trans shorter.le

theorem length_packet_sessRead_le (isp : StreamSession) (received : List Byte) :
    (isp.sessRead received).packet.length ≤ isp.packet.length + received.length := by
  have rest_le := length_rest_readLoop_le isp (isp.packet ++ received)
  rw [List.length_append] at rest_le
  simp only [sessRead]
  split_ifs
  · exact Nat.le_add_right _ _
  · exact Nat.le_add_right _ _
  · exact rest_le
  · exact Nat.le_add_right _ _
  · exact rest_le

theorem receives_of_short (isp : StreamSession) {received : List Byte} (nonempty : received ≠ [])
    (short : received.length ≤ snmpMaxRcvMsgSize) : isp.Receives received := by
  intro _
  refine ⟨nonempty, ?_⟩
  unfold rxbufLen bufferSize
  split <;> omega

theorem eachRead_of_forall {property : StreamSession → List Byte → Prop}
    {reads : List (List Byte)} (holds : ∀ received ∈ reads, ∀ isp, property isp received)
    (isp : StreamSession) : EachRead property isp reads := by
  induction reads generalizing isp with
  | nil => trivial
  | cons received reads ih =>
      refine ⟨holds received List.mem_cons_self isp, ?_⟩
      exact ih (fun later mem => holds later (List.mem_cons_of_mem _ mem)) _

theorem eachRead_countFits {reads : List (List Byte)} (isp : StreamSession)
    (small : isp.packet.length + reads.flatten.length < 2 ^ 31) :
    EachRead CountFits isp reads := by
  induction reads generalizing isp with
  | nil => trivial
  | cons received reads ih =>
      rw [List.flatten_cons, List.length_append] at small
      have after := length_packet_sessRead_le isp received
      refine ⟨fun _ _ => .inl ?_, ih _ (by omega)⟩
      rw [List.length_append]
      omega

theorem sessRead_sameOutcome_twoPackets :
    SameOutcome ([[0x30], [0x01, 0x05, 0x30], [0x00]].foldl sessRead (opened none))
      ([[0x30, 0x01, 0x05], [0x30, 0x00]].foldl sessRead (opened none)) := by
  have same : ([[0x30], [0x01, 0x05, 0x30], [0x00]] : List (List Byte)).flatten =
      [[0x30, 0x01, 0x05], [0x30, 0x00]].flatten := rfl
  apply sessRead_sameOutcome (.inl rfl) same
  · refine eachRead_of_forall (fun received mem isp => receives_of_short isp ?_ ?_) _
    · exact (by decide : ∀ received ∈ ([[0x30], [0x01, 0x05, 0x30], [0x00]] : List (List Byte)),
        received ≠ []) received mem
    · exact (by decide : ∀ received ∈ ([[0x30], [0x01, 0x05, 0x30], [0x00]] : List (List Byte)),
        received.length ≤ snmpMaxRcvMsgSize) received mem
  · refine eachRead_of_forall (fun received mem isp => receives_of_short isp ?_ ?_) _
    · exact (by decide : ∀ received ∈ ([[0x30, 0x01, 0x05], [0x30, 0x00]] : List (List Byte)),
        received ≠ []) received mem
    · exact (by decide : ∀ received ∈ ([[0x30, 0x01, 0x05], [0x30, 0x00]] : List (List Byte)),
        received.length ≤ snmpMaxRcvMsgSize) received mem
  · exact eachRead_countFits _ (by decide)
  · exact eachRead_countFits _ (by decide)

/-- The header of a packet of `SNMP_MAX_PACKET_LEN` bytes. -/
def longestHeader : List Byte := [0x30, 0x84, 0x7f, 0xff, 0xff, 0xf9]

theorem asnHeader_longestHeader (contents : List Byte) :
    asnHeader.answer (longestHeader ++ contents) = 2147483647 := by
  have header : asnHeader.answer longestHeader = 2147483647 := by decide +kernel
  rw [asnHeader.answer_append contents (.inl (by rw [header]; decide)), header]

theorem pdulen_longestHeader {contents : List Byte} (small : contents.length + 6 < 2 ^ 31)
    {isp : StreamSession} (default : isp.checkPacket = none) :
    isp.pdulen (longestHeader ++ contents) = 2147483647 := by
  rw [pdulen_of_default default, asnPacketSize_eq_header, asnHeader_longestHeader]
  · rfl
  · simp only [longestHeader, List.length_append, List.length_cons, List.length_nil]
    omega

theorem pdulen_overflow {contents : List Byte} (large : contents.length + 6 = 2 ^ 31)
    {isp : StreamSession} (default : isp.checkPacket = none) :
    isp.pdulen (longestHeader ++ contents) = 0 := by
  have header : longestHeader ++ contents =
      asnSequence :: 0x84 :: ([0x7f, 0xff, 0xff, 0xf9] ++ contents) := rfl
  have long : hasBit8 0x84 = true := by decide
  have negative : toCInt (([0x7f, 0xff, 0xff, 0xf9] ++ contents).length + 2 : Nat) < 0 := by
    apply toCInt_neg
    simp only [List.length_append, List.length_cons, List.length_nil]
    omega
  rw [pdulen_of_default default, header, asnPacketSize_long long, if_pos (by omega)]
  rfl

theorem sessRead_of_wait {isp : StreamSession} {received : List Byte}
    (opened : isp.closed = false) (nonempty : received ≠ [])
    (known : isp.pdulen (isp.packet ++ received) ≤ snmpMaxPacketLen)
    (wait : (isp.packet ++ received).length < isp.pdulen (isp.packet ++ received) ∨
      isp.pdulen (isp.packet ++ received) = 0) :
    isp.sessRead received =
      { isp with packet := isp.packet ++ received, packetSize := isp.bufferSize } := by
  have some : isp.packet ++ received ≠ [] := by simp [nonempty]
  have loop : isp.readLoop (isp.packet ++ received) = ⟨[], isp.packet ++ received, false⟩ := by
    rw [readLoop, if_neg (by rwa [List.length_eq_zero_iff]), if_neg (not_lt.mpr known),
      if_pos wait]
  unfold sessRead
  simp [opened, loop, nonempty]

theorem processed_sessRead (isp : StreamSession) (received : List Byte) :
    isp.processed <+: (isp.sessRead received).processed := by
  simp only [sessRead]
  split_ifs
  · exact List.prefix_rfl
  · exact List.prefix_append _ _
  · exact List.prefix_rfl
  · exact List.prefix_append _ _
  · exact List.prefix_append _ _

def singleReads (count : Nat) : List (List Byte) := longestHeader :: List.replicate count [0]

theorem foldl_singleReads {count : Nat} (small : count + 7 < 2 ^ 31) :
    ∃ size, (singleReads count).foldl sessRead (opened none) =
      ⟨none, longestHeader ++ List.replicate count 0, size, [], false⟩ := by
  induction count with
  | zero =>
      have size_eq : (opened none).pdulen ([] ++ longestHeader) = 2147483647 :=
        pdulen_longestHeader (show ([] : List Byte).length + 6 < 2 ^ 31 by decide) rfl
      have wait : (opened none).sessRead longestHeader =
          { opened none with
            packet := [] ++ longestHeader, packetSize := (opened none).bufferSize } := by
        apply sessRead_of_wait rfl (by decide)
        · change (opened none).pdulen ([] ++ longestHeader) ≤ _
          rw [size_eq]
          exact le_rfl
        · change _ < (opened none).pdulen ([] ++ longestHeader) ∨ _
          rw [size_eq]
          exact .inl (by decide)
      exact ⟨_, wait⟩
  | succ count ih =>
      rcases ih (by omega) with ⟨size, before⟩
      have reads_eq : singleReads (count + 1) = singleReads count ++ [[0]] := by
        rw [singleReads, singleReads, List.replicate_succ', List.cons_append]
      have buffer : (longestHeader ++ List.replicate count 0) ++ [0] =
          longestHeader ++ List.replicate (count + 1) 0 := by
        rw [List.replicate_succ', List.append_assoc]
      rw [reads_eq, List.foldl_append, before]
      generalize start_eq : (⟨none, longestHeader ++ List.replicate count 0, size, [], false⟩ :
        StreamSession) = start
      have default : start.checkPacket = none := by rw [← start_eq]
      have opened : start.closed = false := by rw [← start_eq]
      have processed : start.processed = [] := by rw [← start_eq]
      have packet : start.packet ++ [0] = longestHeader ++ List.replicate (count + 1) 0 := by
        rw [← buffer, ← start_eq]
      have size_eq : start.pdulen (start.packet ++ [0]) = 2147483647 := by
        rw [packet]
        exact pdulen_longestHeader (by rw [List.length_replicate]; omega) default
      have wait : start.sessRead [0] =
          { start with packet := start.packet ++ [0], packetSize := start.bufferSize } := by
        apply sessRead_of_wait opened (by simp)
        · rw [size_eq]
          exact le_rfl
        · rw [size_eq, packet]
          simp only [longestHeader, List.length_append, List.length_cons, List.length_nil,
            List.length_replicate]
          omega
      refine ⟨start.bufferSize, wait.trans ?_⟩
      rw [packet, default, processed, opened]

theorem processed_sessRead_of_ne_nil {isp : StreamSession} {received : List Byte}
    (opened : isp.closed = false) (found : (isp.readLoop (isp.packet ++ received)).frames ≠ []) :
    (isp.sessRead received).processed =
      isp.processed ++ (isp.readLoop (isp.packet ++ received)).frames := by
  simp only [sessRead, opened, Bool.false_eq_true, found, false_and, if_false]
  split_ifs <;> rfl

/-- The last byte of the longest packet arrives with the next byte, or alone. -/
theorem not_sessRead_sameOutcome :
    ¬ ∀ reads reads' : List (List Byte), reads.flatten = reads'.flatten →
      EachRead Receives (opened none) reads → EachRead Receives (opened none) reads' →
      SameOutcome (reads.foldl sessRead (opened none)) (reads'.foldl sessRead (opened none)) := by
  intro same
  rcases (⟨2147483640, rfl⟩ : ∃ count, count + 8 = 2 ^ 31) with ⟨count, count_eq⟩
  have receives (last : List (List Byte)) (singles : ∀ received ∈ last, received ≠ [] ∧
      received.length ≤ 2) : EachRead Receives (opened none) (singleReads count ++ last) := by
    apply eachRead_of_forall
    intro received mem isp
    rcases List.mem_append.mp mem with early | late
    · rcases List.mem_cons.mp early with rfl | zero
      · exact receives_of_short isp (by decide) (by decide)
      · rw [List.eq_of_mem_replicate zero]
        exact receives_of_short isp (by decide) (by decide)
    · apply receives_of_short isp (singles received late).1
      exact (singles received late).2.trans (by decide)
  have outcome := (same (singleReads count ++ [[0, 0]]) (singleReads count ++ [[0], [0]])
    (by rw [List.flatten_append, List.flatten_append]; rfl)
    (receives _ (by decide)) (receives _ (by decide))).1
  rcases @foldl_singleReads count (by omega) with ⟨size, before⟩
  rw [List.foldl_append, List.foldl_append, before] at outcome
  have pairs : (longestHeader ++ List.replicate count 0) ++ [0, 0] =
      longestHeader ++ List.replicate (count + 2) 0 := by
    rw [List.replicate_add, List.append_assoc]
    rfl
  have buffer : (longestHeader ++ List.replicate count 0) ++ [0] =
      longestHeader ++ List.replicate (count + 1) 0 := by
    rw [List.replicate_succ', List.append_assoc]
  generalize start_eq :
    (⟨none, longestHeader ++ List.replicate count 0, size, [], false⟩ : StreamSession) = start
    at outcome
  have default : start.checkPacket = none := by rw [← start_eq]
  have opened : start.closed = false := by rw [← start_eq]
  have processed : start.processed = [] := by rw [← start_eq]
  have packet : start.packet = longestHeader ++ List.replicate count 0 := by rw [← start_eq]
  -- both bytes at once: the buffer is too large
  have overflow : start.pdulen (start.packet ++ [0, 0]) = 0 := by
    rw [packet, pairs]
    exact pdulen_overflow (by rw [List.length_replicate]; omega) default
  have waits := sessRead_of_wait opened (by simp) (by rw [overflow]; exact Nat.zero_le _)
    (.inr overflow)
  -- the last byte alone: the packet is complete
  have complete : start.pdulen (start.packet ++ [0]) = 2147483647 := by
    rw [packet, buffer]
    exact pdulen_longestHeader (by rw [List.length_replicate]; omega) default
  have length_eq : (start.packet ++ [0]).length = 2147483647 := by
    rw [packet, buffer]
    simp only [longestHeader, List.length_append, List.length_cons, List.length_nil,
      List.length_replicate]
    omega
  have found : (start.readLoop (start.packet ++ [0])).frames ≠ [] := by
    rw [readLoop, if_neg (by omega), complete, if_neg (by decide), if_neg (by omega)]
    simp
  have delivered := processed_sessRead_of_ne_nil opened found
  have kept := processed_sessRead (start.sessRead [0]) [0]
  simp only [List.foldl_cons, List.foldl_nil] at outcome
  rw [← outcome, waits, delivered, processed, List.nil_append] at kept
  exact found (List.prefix_nil.mp kept)

end StreamSession

end NetSnmp
