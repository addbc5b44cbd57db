import NetSnmp.Snmp.BuildLimits
import NetSnmp.Snmp.Message

/-!
# What building a message does

An SNMPv3 PDU that is filled from its session stays as it is when it is filled once
more.  A message keeps the version and the limit of its PDU and the front of its
variables; a message with a community fits into its buffer, and what the security
module is given for an SNMPv3 message is the same again for the PDU that is left.
-/

namespace NetSnmp

theorem exists_of_bind_ok {ε α β : Type} {first : Except ε α} {next : α → Except ε β} {result : β}
    (bound : (first >>= next) = .ok result) :
    ∃ value, first = .ok value ∧ next value = .ok result := by
  cases first with
  | error error => nomatch bound
  | ok value => exact ⟨value, rfl, bound⟩

/-- A command that `snmpv3_build` takes, with its two numbers set. -/
def ReadyCommand (command errstat errindex : Int) : Prop :=
  command ∈ [snmpMsgResponse, snmpMsgTrap2, snmpMsgReport, snmpMsgInform, snmpMsgGet,
      snmpMsgGetnext, snmpMsgSet] ∧ errstat ≠ snmpDefaultErrstat ∧ errindex ≠ snmpDefaultErrindex ∨
    command = snmpMsgGetbulk ∧ 0 ≤ errstat ∧ 0 ≤ errindex

/-- A PDU that `snmpv3_build` has filled from its session. -/
structure Filled (session : NetsnmpSession) (pdu : MessagePdu) : Prop where
  command : ReadyCommand pdu.command pdu.errstat pdu.errindex
  securityEngineID : pdu.securityEngineID = [] → session.securityEngineID = []
  contextEngineID : pdu.contextEngineID = [] →
    session.contextEngineID = [] ∧ pdu.securityEngineID = []
  context : pdu.context ≠ none
  securityModel : pdu.securityModel ≠ snmpDefaultSecmodel
  securityName : pdu.securityName ≠ none
  securityLevel : pdu.securityLevel ≠ 0

variable {library : Library} {session session' : NetsnmpSession} {pdu pdu' : MessagePdu}

theorem Filled.withVariables (filled : Filled session pdu) (flags : UInt64)
    (variableList : List VariableList) : Filled session { pdu with flags, variableList } where
  command := filled.command
  securityEngineID := filled.securityEngineID
  contextEngineID := filled.contextEngineID
  context := filled.context
  securityModel := filled.securityModel
  securityName := filled.securityName
  securityLevel := filled.securityLevel

theorem checkBulk_ok (checked : checkBulk pdu = .ok pdu') :
    pdu' = pdu ∧ 0 ≤ pdu.errstat ∧ 0 ≤ pdu.errindex := by
  rw [checkBulk] at checked
  split at checked
  · nomatch checked
  · split at checked
    · nomatch checked
    · exact ⟨(Except.ok.inj checked).symm, not_lt.mp ‹_›, not_lt.mp ‹_›⟩

theorem checkCommandV3_ok (checked : checkCommandV3 pdu = .ok pdu') :
    ∃ errstat errindex, pdu' = { pdu with errstat, errindex } ∧
      ReadyCommand pdu.command errstat errindex := by
  rw [checkCommandV3] at checked
  split at checked
  · rename_i listed
    refine ⟨_, _, (Except.ok.inj checked).symm, .inl ⟨listed, ?_, ?_⟩⟩
    · split
      · decide
      · assumption
    · split
      · decide
      · assumption
  · split at checked
    · rename_i isBulk
      rcases checkBulk_ok checked with ⟨rfl, errstat, errindex⟩
      exact ⟨_, _, rfl, .inr ⟨isBulk, errstat, errindex⟩⟩
    · split at checked <;> nomatch checked

theorem fillEngineIDs_spec (session : NetsnmpSession) (pdu : MessagePdu) :
    ∃ securityEngineID contextEngineID,
      fillEngineIDs session pdu = { pdu with securityEngineID, contextEngineID } ∧
        (securityEngineID = [] → session.securityEngineID = []) ∧
        (contextEngineID = [] → session.contextEngineID = [] ∧ securityEngineID = []) := by
  refine ⟨_, _, rfl, ?_, ?_⟩
  · intro empty
    split at empty
    · exact empty
    · contradiction
  · intro empty
    split at empty
    · contradiction
    · split at empty
      · contradiction
      · exact ⟨not_not.mp ‹_›, empty⟩

theorem fillContext_ok (filled : fillContext session pdu = .ok pdu') :
    ∃ context, pdu' = { pdu with context := some context } := by
  rw [fillContext] at filled
  cases context_eq : pdu.context with
  | some context =>
      rw [context_eq] at filled
      refine ⟨context, ?_⟩
      rw [← context_eq]
      exact (Except.ok.inj filled).symm
  | none =>
      rw [context_eq] at filled
      cases name_eq : session.contextName with
      | some contextName =>
          rw [name_eq] at filled
          exact ⟨contextName, (Except.ok.inj filled).symm⟩
      | none =>
          rw [name_eq] at filled
          nomatch filled

theorem fillSecurityModel_spec (library : Library) (session : NetsnmpSession) (pdu : MessagePdu) :
    ∃ securityModel, fillSecurityModel library session pdu = { pdu with securityModel } ∧
      securityModel ≠ snmpDefaultSecmodel := by
  rw [fillSecurityModel]
  split
  · exact ⟨pdu.securityModel, rfl, ‹_›⟩
  · split
    · exact ⟨session.securityModel, rfl, ‹_›⟩
    · refine ⟨_, rfl, ?_⟩
      split
      · decide
      · rename_i positive
        intro same
        exact positive (same ▸ by decide)

theorem fillSecurityName_ok (filled : fillSecurityName session pdu = .ok (session', pdu')) :
    ∃ sessionName securityName, session' = { session with securityName := sessionName } ∧
      pdu' = { pdu with securityName := some securityName } := by
  rw [fillSecurityName] at filled
  cases pduName : pdu.securityName with
  | some securityName =>
      rw [pduName] at filled
      rcases Prod.mk.inj (Except.ok.inj filled) with ⟨rfl, rfl⟩
      refine ⟨session.securityName, securityName, rfl, ?_⟩
      rw [← pduName]
  | none =>
      rw [pduName] at filled
      simp only at filled
      split at filled
      · nomatch filled
      · cases sessionName : session.securityName with
        | some securityName =>
            rw [sessionName] at filled
            rcases Prod.mk.inj (Except.ok.inj filled) with ⟨rfl, rfl⟩
            exact ⟨session.securityName, securityName, rfl, rfl⟩
        | none =>
            rw [sessionName] at filled
            rcases Prod.mk.inj (Except.ok.inj filled) with ⟨rfl, rfl⟩
            exact ⟨some [], [], rfl, rfl⟩

theorem fillSecurityLevel_ok (filled : fillSecurityLevel session pdu = .ok pdu') :
    ∃ securityLevel, pdu' = { pdu with securityLevel } ∧ securityLevel ≠ 0 := by
  rw [fillSecurityLevel] at filled
  split at filled
  · exact ⟨pdu.securityLevel, (Except.ok.inj filled).symm, ‹_›⟩
  · split at filled
    · nomatch filled
    · exact ⟨session.securityLevel, (Except.ok.inj filled).symm, ‹_›⟩

/-- The version, the limit and the variables are not touched when defaults are set. -/
structure SameMessage (pdu pdu' : MessagePdu) : Prop where
  version_eq : pdu'.version = pdu.version
  msgMaxSize_eq : pdu'.msgMaxSize = pdu.msgMaxSize
  variableList_eq : pdu'.variableList = pdu.variableList

theorem fillV3_ok (filled : fillV3 library session pdu = .ok (session', pdu')) :
    Filled session' pdu' ∧ SameMessage pdu pdu' := by
  rcases exists_of_bind_ok filled with ⟨checked, checked_eq, filled⟩
  rcases exists_of_bind_ok filled with ⟨contextual, contextual_eq, filled⟩
  rcases exists_of_bind_ok filled with ⟨⟨named, namedPdu⟩, named_eq, filled⟩
  rcases exists_of_bind_ok filled with ⟨levelled, levelled_eq, filled⟩
  rcases checkCommandV3_ok checked_eq with ⟨errstat, errindex, rfl, ready⟩
  rcases fillEngineIDs_spec session { pdu with errstat, errindex } with
    ⟨securityEngineID, contextEngineID, engineIDs_eq, security, contextOf⟩
  rw [engineIDs_eq] at contextual_eq
  rcases fillContext_ok contextual_eq with ⟨context, rfl⟩
  rcases fillSecurityModel_spec library session _ with ⟨securityModel, model_eq, model⟩
  rw [model_eq] at named_eq
  rcases fillSecurityName_ok named_eq with ⟨sessionName, securityName, rfl, rfl⟩
  rcases fillSecurityLevel_ok levelled_eq with ⟨securityLevel, rfl, level⟩
  rcases Prod.mk.inj (Except.ok.inj filled) with ⟨rfl, rfl⟩
  exact ⟨⟨ready, security, contextOf, by simp, model, by simp, level⟩, rfl, rfl, rfl⟩

theorem KeepsFront.refl (vars : List VariableList) : KeepsFront vars vars := .inl rfl

theorem KeepsFront.trans {original middle left : List VariableList}
    (first : KeepsFront original middle) (second : KeepsFront middle left) :
    KeepsFront original left := by
  rcases second with rfl | ⟨nonempty, isPrefix⟩
  · exact first
  · rcases first with rfl | ⟨-, isPrefix'⟩
    · exact .inr ⟨nonempty, isPrefix⟩
    · exact .inr ⟨nonempty, isPrefix.trans isPrefix'⟩

structure KeepsPdu (pdu pdu' : MessagePdu) : Prop where
  version_eq : pdu'.version = pdu.version
  msgMaxSize_eq : pdu'.msgMaxSize = pdu.msgMaxSize
  front : KeepsFront pdu.variableList pdu'.variableList

theorem SameMessage.keepsPdu (same : SameMessage pdu pdu') : KeepsPdu pdu pdu' :=
  ⟨same.version_eq, same.msgMaxSize_eq, .inl same.variableList_eq⟩

theorem KeepsPdu.trans {pdu'' : MessagePdu} (first : KeepsPdu pdu pdu')
    (second : KeepsPdu pdu' pdu'') : KeepsPdu pdu pdu'' where
  version_eq := second.version_eq.trans first.version_eq
  msgMaxSize_eq := second.msgMaxSize_eq.trans first.msgMaxSize_eq
  front := first.front.trans second.front

theorem checkCommand_ok (checked : checkCommand pdu = .ok pdu') : SameMessage pdu pdu' := by
  rw [checkCommand] at checked
  split at checked
  · rw [← Except.ok.inj checked]
    exact ⟨rfl, rfl, rfl⟩
  · split at checked
    · split at checked
      · nomatch checked
      · rw [← Except.ok.inj checked]
        exact ⟨rfl, rfl, rfl⟩
    · split at checked
      · split at checked
        · nomatch checked
        · rw [(checkBulk_ok checked).1]
          exact ⟨rfl, rfl, rfl⟩
      · split at checked
        · split at checked
          · nomatch checked
          · rw [← Except.ok.inj checked]
            exact ⟨rfl, rfl, rfl⟩
        · nomatch checked

theorem sameMessage_fillCommunity (session : NetsnmpSession) (pdu : MessagePdu) :
    SameMessage pdu (fillCommunity session pdu) := by
  rw [fillCommunity]
  split
  · exact ⟨rfl, rfl, rfl⟩
  · exact ⟨rfl, rfl, rfl⟩

theorem sameMessage_chooseDirection (library : Library) (pdu : MessagePdu) :
    SameMessage pdu (chooseDirection library pdu) := by
  rw [chooseDirection]
  split
  · exact ⟨rfl, rfl, rfl⟩
  · exact ⟨rfl, rfl, rfl⟩

theorem communityBuild_builds {pkt : WBuf} {built : PduBuilt}
    (success : communityBuild pdu pkt = some built) :
    built.buf.written.length ≤ pkt.written.length + pkt.datalength ∧
      KeepsFront pdu.variableList built.variableList := by
  simp only [communityBuild, Option.bind_eq_bind, Option.bind_eq_some_iff] at success
  rcases success with ⟨cp₁, headed, cp₂, versioned, cp₃, named, inner, pduBuilt, result_eq⟩
  have head := usesRoom_asnBuildSequence _ _ _ _ headed
  have version := usesRoom_values.int _ _ _ _ versioned
  have community := usesRoom_values.string _ _ _ _ named
  have builds := snmpPduBuild_builds pduBuilt
  have grows := builds.grows
  have room := builds.room
  have sized := @length_asnBuildSequenceAt inner.buf pkt.written.length (by omega) pkt.datalength
    asnSequence (inner.buf.written.length - cp₁.written.length)
  obtain rfl := Option.some.inj result_eq
  refine ⟨?_, builds.front⟩
  change (asnBuildSequenceAt _ _ _ _ _).written.length ≤ _
  rw [sized.1]
  omega

theorem snmpCommunityBuild_builds {pktLen : Nat} {built : MessageBuilt}
    (success : snmpCommunityBuild session pdu pktLen = .ok built) :
    KeepsPdu pdu built.pdu ∧ built.atStart.length ≤ pktLen := by
  rcases exists_of_bind_ok success with ⟨checked, checked_eq, success⟩
  have same := (checkCommand_ok checked_eq).keepsPdu.trans
    (sameMessage_fillCommunity session checked).keepsPdu
  split at success
  · nomatch success
  · simp only at success
    split at success
    · split at success
      · nomatch success
      · rw [← Except.ok.inj success]
        exact ⟨same, Nat.zero_le _⟩
    · split at success
      · nomatch success
      · rename_i message communityBuilt
        rcases communityBuild_builds communityBuilt with ⟨fits, front⟩
        rw [← Except.ok.inj success]
        refine ⟨same.trans ⟨rfl, rfl, front⟩, ?_⟩
        simpa [WBuf.fresh, WBuf.datalength] using fits

/-- What is handed to the security module, and that it is the same again for the PDU that is
left. -/
structure Hands (library : Library) (session : NetsnmpSession) (pdu : MessagePdu) (pktLen : Nat)
    (parms : OutgoingParams) : Prop where
  secModel_eq : parms.secModel = pdu.securityModel
  wholeMsgLen_eq : parms.wholeMsgLen = snmpMaxMsgSize
  pdu_eq : parms.pdu = { pdu with variableList := parms.pdu.variableList }
  front : KeepsFront pdu.variableList parms.pdu.variableList
  again : forwardParams library session parms.pdu pktLen = some parms

theorem scopedPduBuild_builds {spdu : List Byte}
    (success : scopedPduBuild pdu = some (pdu', spdu)) :
    pdu' = { pdu with variableList := pdu'.variableList } ∧
      KeepsFront pdu.variableList pdu'.variableList ∧
        scopedPduBuild pdu' = some (pdu', spdu) := by
  simp only [scopedPduBuild, Option.bind_eq_bind, Option.bind_eq_some_iff] at success
  rcases success with ⟨cp, headed, built, pduBuilt, result_eq⟩
  have builds := snmpPduBuild_builds pduBuilt
  rcases Prod.mk.inj (Option.some.inj result_eq) with ⟨rfl, rfl⟩
  refine ⟨rfl, builds.front, ?_⟩
  have headed' : snmpv3ScopedPduHeaderBuild { pdu with variableList := built.variableList }
      (.fresh snmpMaxMsgSize) = some cp := headed
  simp only [scopedPduBuild, headed', builds.again, Option.bind_eq_bind, Option.bind_some]

theorem forwardParams_hands {pktLen : Nat} {parms : OutgoingParams}
    (success : forwardParams library session pdu pktLen = some parms) :
    Hands library session pdu pktLen parms := by
  simp only [forwardParams, Option.bind_eq_bind, Option.bind_eq_some_iff] at success
  rcases success with ⟨⟨header, secParamsLen⟩, headed, ⟨pdu', spdu⟩, scopedBuilt, result_eq⟩
  rcases scopedPduBuild_builds scopedBuilt with ⟨pdu_eq, front, again⟩
  have headed' : snmpv3HeaderBuild library session pdu' (.fresh pktLen) =
      some (header, secParamsLen) := by
    rw [pdu_eq]
    exact headed
  have whole : forwardParams library session pdu' pktLen = some parms := by
    simp only [forwardParams, headed', again, Option.bind_eq_bind, Option.bind_some]
    exact result_eq
  obtain rfl := Option.some.inj result_eq
  exact ⟨by rw [pdu_eq], rfl, pdu_eq, front, whole⟩

/-- What a message that is built is to its PDU and to the buffer. -/
structure BuildsMessage (library : Library) (pdu : MessagePdu) (pktLen : Nat)
    (built : MessageBuilt) : Prop where
  keeps : KeepsPdu pdu built.pdu
  enabled : runtimeProtocolSkip library pdu.version = false
  filled : pdu.version = snmpVersion3 → Filled built.session built.pdu
  fits : pdu.version ≠ snmpVersion3 → built.atStart.length ≤ pktLen

theorem snmpv3Build_builds {call pktLen : Nat} {built : MessageBuilt}
    (success : snmpv3Build library call session pdu pktLen = .ok built) :
    KeepsPdu pdu built.pdu ∧ Filled built.session built.pdu := by
  rcases exists_of_bind_ok success with ⟨⟨session', pdu'⟩, fill_eq, success⟩
  rcases fillV3_ok fill_eq with ⟨filled, same⟩
  simp only at success
  split at success
  · rw [snmpv3PacketReallocRbuild] at success
    split at success
    · nomatch success
    · split at success
      · nomatch success
      · simp only at success
        split at success
        · rw [← Except.ok.inj success]
          exact ⟨same.keepsPdu, filled⟩
        · nomatch success
  · rw [snmpv3PacketBuild] at success
    split at success
    · nomatch success
    · rename_i parms params_eq
      have hands := forwardParams_hands params_eq
      split at success
      · nomatch success
      · simp only at success
        split at success
        · rw [← Except.ok.inj success]
          change KeepsPdu pdu parms.pdu ∧ Filled session' parms.pdu
          have front := hands.front
          rw [hands.pdu_eq]
          exact ⟨same.keepsPdu.trans ⟨rfl, rfl, front⟩, filled.withVariables ..⟩
        · nomatch success

theorem snmpBuild_builds {call pktLen : Nat} {built : MessageBuilt}
    (success : snmpBuild library call session pdu pktLen = .ok built) :
    BuildsMessage library pdu pktLen built := by
  rw [snmpBuild] at success
  split at success
  · nomatch success
  · rename_i message messageBuilt
    obtain rfl := Except.ok.inj success
    have direction := sameMessage_chooseDirection library pdu
    rw [snmpBuildMessage] at messageBuilt
    split at messageBuilt
    · nomatch messageBuilt
    · rename_i enabled
      simp only [direction.version_eq] at messageBuilt
      split at messageBuilt
      · rename_i isV3
        rcases snmpv3Build_builds messageBuilt with ⟨keeps, filled⟩
        exact ⟨direction.keepsPdu.trans keeps, Bool.eq_false_iff.mpr enabled, fun _ => filled,
          fun other => absurd isV3 other⟩
      · rename_i other
        rcases snmpCommunityBuild_builds messageBuilt with ⟨keeps, fits⟩
        exact ⟨direction.keepsPdu.trans keeps, Bool.eq_false_iff.mpr enabled,
          fun isV3 => absurd isV3 other, fun _ => fits⟩

end NetSnmp
