import NetSnmp.Passes
import NetSnmp.Snmp.MessageBuilds

/-!
# The size of a packet

`_build_initial_pdu_packet` builds a message and, if it is a bulk response that is
too big, builds it again with less.  For the versions with a community the second
message is built into a buffer of the size that it may have.  An SNMPv3 message is
built into a buffer of its own, of a fixed size.
-/

namespace NetSnmp

/-- The variables of the loop of `_build_initial_pdu_packet`. -/
structure PacketBuild where
  session : NetsnmpSession
  pdu : MessagePdu
  pktbufLen : Nat

/-- `netsnmp_build_packet` without hooks of the session: what it leaves and the packet, of
`*len_p` bytes. -/
def netsnmpBuildPacket (library : Library) (call : Nat) (state : PacketBuild) :
    Except Int (PacketBuild × List Byte) :=
  match snmpBuild library call state.session state.pdu state.pktbufLen with
  | .error errno => .error errno
  | .ok built =>
      if state.pdu.flags &&& ucdMsgFlagForwardEncode = 0 then
        .ok (⟨built.session, built.pdu, built.pktLen⟩, built.atEnd)
      else .ok (⟨built.session, built.pdu, state.pktbufLen⟩, built.atStart)

def truncateBulk (pdu : MessagePdu) : MessagePdu :=
  { pdu with flags := pdu.flags ||| (ucdMsgFlagForwardEncode ||| ucdMsgFlagBulkToobig) }

variable {library : Library} {session : NetsnmpSession} {pdu pdu' : MessagePdu}

/-- A message that `netsnmp_build_packet` has built. -/
structure BuildsPacket (library : Library) (state built : PacketBuild) (packet : List Byte) :
    Prop where
  keeps : KeepsPdu state.pdu built.pdu
  enabled : runtimeProtocolSkip library state.pdu.version = false
  filled : state.pdu.version = snmpVersion3 → Filled built.session built.pdu
  fits : state.pdu.version ≠ snmpVersion3 →
    state.pdu.flags &&& ucdMsgFlagForwardEncode ≠ 0 → packet.length ≤ state.pktbufLen

theorem netsnmpBuildPacket_builds {call : Nat} {state built : PacketBuild} {packet : List Byte}
    (success : netsnmpBuildPacket library call state = .ok (built, packet)) :
    BuildsPacket library state built packet := by
  rw [netsnmpBuildPacket] at success
  split at success
  · nomatch success
  · rename_i message messageBuilt
    have builds := snmpBuild_builds messageBuilt
    split at success
    · rename_i reverse
      rcases Prod.mk.inj (Except.ok.inj success) with ⟨rfl, rfl⟩
      exact ⟨builds.keeps, builds.enabled, builds.filled, fun _ forward => absurd reverse forward⟩
    · rcases Prod.mk.inj (Except.ok.inj success) with ⟨rfl, rfl⟩
      exact ⟨builds.keeps, builds.enabled, builds.filled, fun other _ => builds.fits other⟩

/-- A pass that goes on has built a bulk response that is too big. -/
structure GoesOn (library : Library) (bulk : Bool) (call : Nat) (state next : PacketBuild) :
    Prop where
  isBulk : bulk = true
  tooBig : ∃ built packet, netsnmpBuildPacket library call state = .ok (built, packet) ∧
    built.pdu.msgMaxSize < packet.length ∧
      next = ⟨built.session, truncateBulk built.pdu, built.pdu.msgMaxSize⟩

theorem GoesOn.keepsPdu {bulk : Bool} {call : Nat} {state next : PacketBuild}
    (goesOn : GoesOn library bulk call state next) : KeepsPdu state.pdu next.pdu := by
  rcases goesOn.tooBig with ⟨built, packet, packetBuilt, -, rfl⟩
  exact (netsnmpBuildPacket_builds packetBuilt).keeps.trans ⟨rfl, rfl, .inl rfl⟩

end NetSnmp
