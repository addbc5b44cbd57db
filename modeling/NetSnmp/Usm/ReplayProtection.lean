import NetSnmp.Usm.Timeliness

/-!
# Replay protection

The recorded boots and time of an engine never go back once they come from an
authenticated message, whatever messages arrive and however the local clock goes
on between them.
-/

namespace NetSnmp

variable {hashEngineID : List Byte → Option Nat} {engine : LocalEngine} {etimelist : Etimelist}
  {engineID : List Byte} {e : Enginetime}

theorem getEnginetimeEx_of_known {now : Nat}
    (known : searchEnginetimeList hashEngineID etimelist engineID = some e)
    (authenticated : e.authenticatedFlag = true) (time_le : e.engineTime ≤ engineTimeMax)
    (last_le : e.lastReceivedEngineTime ≤ now) (now_le : now ≤ engineTimeMax) :
    ∃ their, getEnginetimeEx hashEngineID etimelist engineID true now = some their ∧
      their.lastEngineTime = e.engineTime ∧ e.engineBoot ≤ their.engineboot ∧
      (their.engineboot = e.engineBoot →
        their.engineTime = e.engineTime + (now - e.lastReceivedEngineTime) ∨
          e.engineBoot ≥ engineBootMax) := by
  unfold engineTimeMax at time_le now_le
  have timediff_eq : toCInt ((now : Int) - e.lastReceivedEngineTime) =
      ((now - e.lastReceivedEngineTime : Nat) : Int) := by
    rw [← toCInt_eq_self (show now - e.lastReceivedEngineTime < 2 ^ 31 by omega)]
    congr 1
    omega
  have room_eq : ((engineTimeMax : Int) - e.engineTime) % 2 ^ 32 =
      ((engineTimeMax - e.engineTime : Nat) : Int) := by
    unfold engineTimeMax
    omega
  have room_small : toCInt ((engineTimeMax - e.engineTime : Nat) : Int) =
      ((engineTimeMax - e.engineTime : Nat) : Int) := by
    apply toCInt_eq_self
    unfold engineTimeMax
    omega
  simp only [getEnginetimeEx, known, authenticated, not_true_eq_false, or_true,
    decide_true, if_true,
    timediff_eq, room_eq, room_small]
  split
  · -- the time runs over
    refine ⟨_, rfl, rfl, ?_, ?_⟩
    · dsimp only
      split
      · exact Nat.le_succ _
      · exact le_rfl
    · dsimp only
      split
      · intro same
        exact absurd same (Nat.succ_ne_self _)
      · rename_i locked
        intro _
        exact .inr (not_lt.mp locked)
  · rename_i room
    refine ⟨_, rfl, rfl, le_rfl, fun _ => .inl ?_⟩
    unfold engineTimeMax at room
    dsimp only
    omega

def Enginetime.NotAfter (e : Enginetime) (boots time : Nat) : Prop :=
  toLex (e.engineBoot, e.engineTime) ≤ toLex (boots, time)

/-- What the window asks of an accepted message: the boots do not go back, and a time that goes back
is near to what the time of the engine is by the local clock. -/
def Enginetime.InWindow (e : Enginetime) (boots time now : Nat) : Prop :=
  e.engineBoot ≤ boots ∧ (boots = e.engineBoot → time < e.engineTime →
    |(time : Int) - (e.engineTime + (now - e.lastReceivedEngineTime) : Int)| ≤ usmTimeWindow)

/-- The values of a record fit into 31 bits and were received before the clock's present value. -/
structure Enginetime.Bounded (e : Enginetime) (now : Nat) : Prop where
  time_le : e.engineTime ≤ engineTimeMax
  boot_le : e.engineBoot ≤ engineBootMax
  last_le : e.lastReceivedEngineTime ≤ now

theorem Enginetime.Bounded.mono {now now' : Nat} (bounded : e.Bounded now) (le : now ≤ now') :
    e.Bounded now' :=
  ⟨bounded.time_le, bounded.boot_le, le_trans bounded.last_le le⟩

theorem eq_of_isLocal {secEngineID myID : List Byte}
    (isLocal : secEngineID.length = myID.length ∧ memcmp secEngineID myID myID.length = 0) :
    secEngineID = myID := by
  have take_eq := memcmp_eq_zero_iff.mp isLocal.2
  rw [List.take_of_length_le (le_of_eq isLocal.1), List.take_length] at take_eq
  exact take_eq

theorem usmCheckAndUpdateTimeliness_known (boots time : Nat) {clock : ClockReadings}
    (known : searchEnginetimeList hashEngineID etimelist engineID = some e)
    (authenticated : e.authenticatedFlag = true) (bounded : e.Bounded clock.estimate)
    (clock_le : clock.estimate ≤ engineTimeMax) (remote : engineID ≠ engine.engineID) :
    let result := usmCheckAndUpdateTimeliness hashEngineID engine etimelist engineID
      boots time clock
    (result.1 = etimelist ∨ (e.NotAfter boots time ∧
      result.1 = (setEnginetime hashEngineID etimelist engineID boots time true clock.record).1)) ∧
      (result.2 = .ok () → e.InWindow boots time clock.estimate) := by
  intro result
  rcases getEnginetimeEx_of_known known authenticated bounded.time_le bounded.last_le clock_le with
    ⟨their, estimate_eq, last_eq, boot_le, time_eq⟩
  have result_eq : result =
      usmCheckAndUpdateTimeliness hashEngineID engine etimelist engineID boots time clock := rfl
  unfold usmCheckAndUpdateTimeliness at result_eq
  simp only [estimate_eq] at result_eq
  split at result_eq
  · rw [result_eq]
    exact ⟨.inl rfl, by simp⟩
  · rename_i hasID
    split at result_eq
    · -- the local engine is another one
      rename_i isLocal
      have same := eq_of_isLocal isLocal
      rw [not_or] at hasID
      unfold snmpv3GetEngineID at same hasID
      split at same
      · rename_i tooLong
        rw [if_pos tooLong] at hasID
        exact absurd rfl hasID.2
      · exact absurd same remote
    · split at result_eq
      · rw [result_eq]
        exact ⟨.inl rfl, by simp⟩
      · rename_i notRejected
        rw [not_or, not_lt] at notRejected
        have boots_le : e.engineBoot ≤ boots := le_trans boot_le notRejected.2
        have sameBoot : boots = e.engineBoot → their.engineboot = e.engineBoot := by
          intro same
          exact le_antisymm (same ▸ notRejected.2) boot_le
        split at result_eq
        · rename_i goesBack
          split at result_eq
          · rw [result_eq]
            exact ⟨.inl rfl, by simp⟩
          · rename_i inWindow
            rw [result_eq]
            refine ⟨.inl rfl, fun _ => ⟨boots_le, ?_⟩⟩
            intro same _
            have their_eq := sameBoot same
            rcases time_eq their_eq with time_eq | locked
            · have last_le := bounded.last_le
              have close := timeDifference_le_iff.mp (not_lt.mp inWindow)
              rw [time_eq] at close
              push_cast [Nat.cast_sub last_le] at close
              exact close
            · exact absurd (le_antisymm (their_eq ▸ bounded.boot_le)
                (their_eq ▸ locked)) notRejected.1
        · rename_i notBack
          have advanced : e.NotAfter boots time := by
            apply Prod.Lex.toLex_le_toLex.mpr
            rcases lt_or_eq_of_le boots_le with less | same
            · exact .inl less
            · refine .inr ⟨same, ?_⟩
              rw [not_and, not_lt, last_eq] at notBack
              exact notBack ((sameBoot same.symm).trans same)
          have window : e.InWindow boots time clock.estimate := by
            refine ⟨boots_le, ?_⟩
            intro same back
            rw [not_and, not_lt, last_eq] at notBack
            exact absurd back (not_lt.mpr (notBack ((sameBoot same).trans same.symm)))
          refine ⟨.inr ⟨advanced, ?_⟩, fun _ => window⟩
          rw [result_eq]
          rcases setEnginetime hashEngineID etimelist engineID boots time true clock.record with
            ⟨list, _ | _⟩ <;> rfl

theorem usmCheckAndUpdateTimeliness_list (hashEngineID : List Byte → Option Nat)
    (engine : LocalEngine) (etimelist : Etimelist) (secEngineID : List Byte) (boots time : Nat)
      (clock : ClockReadings) :
    let result :=
      usmCheckAndUpdateTimeliness hashEngineID engine etimelist secEngineID boots time clock
    result.1 = etimelist ∨
      result.1 = (setEnginetime hashEngineID etimelist secEngineID boots time true
        clock.record).1 := by
  intro result
  have result_eq : result =
      usmCheckAndUpdateTimeliness hashEngineID engine etimelist secEngineID boots time clock := rfl
  unfold usmCheckAndUpdateTimeliness at result_eq
  dsimp only at result_eq
  split at result_eq
  · exact .inl (congrArg Prod.fst result_eq)
  · split at result_eq
    · split at result_eq <;> exact .inl (congrArg Prod.fst result_eq)
    · split at result_eq
      · exact .inl (congrArg Prod.fst result_eq)
      · split at result_eq
        · exact .inl (congrArg Prod.fst result_eq)
        · split at result_eq
          · split at result_eq <;> exact .inl (congrArg Prod.fst result_eq)
          · right
            rw [result_eq]
            rcases setEnginetime hashEngineID etimelist secEngineID boots time true
              clock.record with
              ⟨list, _ | _⟩ <;> rfl

theorem search_setEnginetime_guess {other : List Byte} {boots time now : Nat}
    (known : searchEnginetimeList hashEngineID etimelist engineID = some e)
    (authenticated : e.authenticatedFlag = true) :
    searchEnginetimeList hashEngineID
        (setEnginetime hashEngineID etimelist other boots time false now).1 engineID = some e := by
  by_cases same : engineID = other
  · subst same
    rw [search_setEnginetime_of_known known]
    simp [storeEnginetime, authenticated]
  · rw [search_setEnginetime_of_ne same]
    exact known

theorem locateEngine_list (msg : UsmInMsg) (clock : ClockReadings) :
    (locateEngine hashEngineID etimelist msg clock).1 = etimelist ∨
      (locateEngine hashEngineID etimelist msg clock).1 =
        (setEnginetime hashEngineID etimelist msg.secEngineID 0 0 false clock.ensure).1 := by
  unfold locateEngine
  split
  · split <;> exact .inl rfl
  · right
    rcases setEnginetime hashEngineID etimelist msg.secEngineID 0 0 false clock.ensure with
      ⟨list, _ | _⟩ <;> rfl

theorem search_locateEngine (msg : UsmInMsg) (clock : ClockReadings)
    (known : searchEnginetimeList hashEngineID etimelist engineID = some e)
    (authenticated : e.authenticatedFlag = true) :
    searchEnginetimeList hashEngineID (locateEngine hashEngineID etimelist msg clock).1 engineID =
      some e := by
  rcases locateEngine_list msg clock with list_eq | list_eq
  · rw [list_eq]
    exact known
  · rw [list_eq]
    exact search_setEnginetime_guess known authenticated

theorem usmProcessInMsg_known (msg : UsmInMsg) {clock : ClockReadings}
    (known : searchEnginetimeList hashEngineID etimelist engineID = some e)
    (authenticated : e.authenticatedFlag = true) (bounded : e.Bounded clock.estimate)
    (clock_le : clock.estimate ≤ engineTimeMax) (remote : engineID ≠ engine.engineID) :
    let result := usmProcessInMsg hashEngineID engine etimelist msg clock
    (∃ e', searchEnginetimeList hashEngineID result.1 engineID = some e' ∧
      e'.authenticatedFlag = true ∧
      (e' = e ∨ (msg.secEngineID = engineID ∧ msg.authenticated ∧
        e.NotAfter e'.engineBoot e'.engineTime))) ∧
      (msg.secEngineID = engineID → msg.authenticated → result.2 = .ok () →
        e.InWindow msg.boots msg.time clock.estimate) := by
  intro result
  have result_eq : result = usmProcessInMsg hashEngineID engine etimelist msg clock := rfl
  have located := search_locateEngine msg clock known authenticated
  unfold usmProcessInMsg at result_eq
  rcases located_eq : locateEngine hashEngineID etimelist msg clock with ⟨list, _ | error⟩ <;>
    rw [located_eq] at located result_eq
  · cases userError : msg.userError with
    | some error =>
        simp only [userError] at result_eq
        rw [result_eq]
        exact ⟨⟨e, located, authenticated, .inl rfl⟩, by simp⟩
    | none =>
        simp only [userError] at result_eq
        split at result_eq
        · rename_i secLevel
          by_cases same : msg.secEngineID = engineID
          · rw [same] at result_eq
            have checked := usmCheckAndUpdateTimeliness_known msg.boots msg.time
              located authenticated bounded clock_le remote
            rw [result_eq]
            refine ⟨?_, fun _ _ accepted => checked.2 accepted⟩
            rcases checked.1 with list_eq | ⟨notAfter, list_eq⟩
            · rw [list_eq]
              exact ⟨e, located, authenticated, .inl rfl⟩
            · rw [list_eq, search_setEnginetime_of_known located]
              exact ⟨_, rfl, by simp [storeEnginetime], .inr ⟨same, ⟨secLevel, userError⟩,
                by simpa [storeEnginetime] using notAfter⟩⟩
          · refine ⟨⟨e, ?_, authenticated, .inl rfl⟩, fun isEngine => absurd isEngine same⟩
            rw [result_eq]
            rcases usmCheckAndUpdateTimeliness_list hashEngineID engine list msg.secEngineID
              msg.boots msg.time clock with list_eq | list_eq
            · rw [list_eq]
              exact located
            · rw [list_eq, search_setEnginetime_of_ne (Ne.symm same)]
              exact located
        · rename_i secLevel
          rw [result_eq]
          refine ⟨⟨e, search_setEnginetime_guess located authenticated, authenticated,
            .inl rfl⟩, ?_⟩
          intro _ isAuthenticated
          exact absurd isAuthenticated.1 secLevel
  · rw [result_eq]
    exact ⟨⟨e, located, authenticated, .inl rfl⟩, by simp⟩

/-- The list of engine times and the local engine time. -/
structure TimeState where
  etimelist : Etimelist
  clock : Nat

/-- The local clock does not go back while a message is processed, and has 31 bits. -/
structure ClockReadings.Follows (clock : ClockReadings) (now : Nat) : Prop where
  ensure_ge : now ≤ clock.ensure
  check_ge : clock.ensure ≤ clock.check
  estimate_ge : clock.check ≤ clock.estimate
  record_ge : clock.estimate ≤ clock.record
  record_le : clock.record ≤ engineTimeMax

section Runs

variable (hashEngineID : List Byte → Option Nat) (engine : LocalEngine)

inductive TimeStep : TimeState → TimeState → Prop where
  | message {state : TimeState} (msg : UsmInMsg) {clock : ClockReadings}
      (follows : clock.Follows state.clock) :
      TimeStep state ⟨(usmProcessInMsg hashEngineID engine state.etimelist msg
        clock).1, clock.record⟩

abbrev TimeRun : TimeState → TimeState → Prop :=
  Relation.ReflTransGen (TimeStep hashEngineID engine)

/-- All records fit into 31 bits and were received before now. -/
def AllBounded (etimelist : Etimelist) (now : Nat) : Prop :=
  ∀ engineID e, searchEnginetimeList hashEngineID etimelist engineID = some e → e.Bounded now

variable {hashEngineID} {engine} {now : Nat}

theorem AllBounded.mono {now' : Nat} (bounded : AllBounded hashEngineID etimelist now)
    (le : now ≤ now') : AllBounded hashEngineID etimelist now' :=
  fun engineID e known => (bounded engineID e known).mono le

theorem AllBounded.set {now' boots time : Nat} {authenticated : Bool}
    (bounded : AllBounded hashEngineID etimelist now) (le : now ≤ now')
    (boots_le : boots ≤ engineBootMax) (time_le : time ≤ engineTimeMax) (secEngineID : List Byte) :
    AllBounded hashEngineID
      (setEnginetime hashEngineID etimelist secEngineID boots time authenticated now').1 now' := by
  intro engineID e found
  rcases search_setEnginetime_cases found with known | ⟨time_eq, boot_eq, last_eq⟩
  · exact (bounded engineID e known).mono le
  · exact ⟨time_eq ▸ time_le, boot_eq ▸ boots_le, le_of_eq last_eq⟩

theorem AllBounded.process {msg : UsmInMsg} {clock : ClockReadings}
    (bounded : AllBounded hashEngineID etimelist now) (follows : clock.Follows now) :
    AllBounded hashEngineID (usmProcessInMsg hashEngineID engine etimelist msg clock).1
      clock.record := by
  have ensure_le : clock.ensure ≤ clock.record :=
    le_trans follows.check_ge (le_trans follows.estimate_ge follows.record_ge)
  have located : AllBounded hashEngineID (locateEngine hashEngineID etimelist msg clock).1
      clock.ensure := by
    rcases locateEngine_list msg clock with list_eq | list_eq
    · rw [list_eq]
      exact bounded.mono follows.ensure_ge
    · rw [list_eq]
      exact bounded.set follows.ensure_ge (Nat.zero_le _) (Nat.zero_le _) msg.secEngineID
  unfold usmProcessInMsg
  rcases located_eq : locateEngine hashEngineID etimelist msg clock with ⟨list, _ | error⟩ <;>
    rw [located_eq] at located
  · cases msg.userError with
    | some error => exact located.mono ensure_le
    | none =>
        dsimp only
        split
        · rcases usmCheckAndUpdateTimeliness_list hashEngineID engine list msg.secEngineID msg.boots
            msg.time clock with list_eq | list_eq
          · rw [list_eq]
            exact located.mono ensure_le
          · rw [list_eq]
            exact located.set ensure_le msg.boots_le msg.time_le msg.secEngineID
        · exact located.set ensure_le msg.boots_le msg.time_le msg.secEngineID
  · exact located.mono ensure_le

theorem TimeStep.bounded {state state' : TimeState}
    (step : TimeStep hashEngineID engine state state')
    (bounded : AllBounded hashEngineID state.etimelist state.clock) :
    AllBounded hashEngineID state'.etimelist state'.clock := by
  cases step with
  | message msg follows => exact bounded.process follows

theorem TimeStep.known {state state' : TimeState} (step : TimeStep hashEngineID engine state state')
    (bounded : AllBounded hashEngineID state.etimelist state.clock)
    (remote : engineID ≠ engine.engineID)
    (known : searchEnginetimeList hashEngineID state.etimelist engineID = some e)
    (authenticated : e.authenticatedFlag = true) :
    ∃ e', searchEnginetimeList hashEngineID state'.etimelist engineID = some e' ∧
      e'.authenticatedFlag = true ∧ e.NotAfter e'.engineBoot e'.engineTime := by
  cases step with
  | @message msg clock follows =>
      have estimate_ge : state.clock ≤ clock.estimate :=
        le_trans follows.ensure_ge (le_trans follows.check_ge follows.estimate_ge)
      rcases (usmProcessInMsg_known msg known authenticated
        ((bounded engineID e known).mono estimate_ge)
        (le_trans follows.record_ge follows.record_le) remote).1 with
        ⟨e', found, authenticated', same | ⟨-, -, notAfter⟩⟩
      · exact ⟨e', found, authenticated', same ▸ le_rfl⟩
      · exact ⟨e', found, authenticated', notAfter⟩

theorem TimeRun.bounded {state state' : TimeState} (run : TimeRun hashEngineID engine state state')
    (bounded : AllBounded hashEngineID state.etimelist state.clock) :
    AllBounded hashEngineID state'.etimelist state'.clock := by
  induction run with
  | refl => exact bounded
  | tail _ step ih => exact step.bounded ih

theorem TimeRun.known {state state' : TimeState} (run : TimeRun hashEngineID engine state state')
    (bounded : AllBounded hashEngineID state.etimelist state.clock)
    (remote : engineID ≠ engine.engineID)
    (known : searchEnginetimeList hashEngineID state.etimelist engineID = some e)
    (authenticated : e.authenticatedFlag = true) :
    ∃ e', searchEnginetimeList hashEngineID state'.etimelist engineID = some e' ∧
      e'.authenticatedFlag = true ∧ e.NotAfter e'.engineBoot e'.engineTime := by
  induction run with
  | refl => exact ⟨e, known, authenticated, le_rfl⟩
  | tail before step ih =>
      rcases ih with ⟨middle, found, authenticated', notAfter⟩
      rcases step.known (TimeRun.bounded before bounded) remote found authenticated' with
        ⟨e', found', authenticated'', notAfter'⟩
      exact ⟨e', found', authenticated'', le_trans notAfter notAfter'⟩

/-- Once the record of a remote engine is authenticated, in every later state it is there with boots
and a time that did not go back; a message without authentication, or from another engine, leaves it
as it is, and an authenticated message is accepted only inside the window. -/
theorem usmReplayProtection {state state' : TimeState}
    (bounded : AllBounded hashEngineID state.etimelist state.clock)
    (run : TimeRun hashEngineID engine state state') (remote : engineID ≠ engine.engineID)
    (known : searchEnginetimeList hashEngineID state.etimelist engineID = some e)
    (authenticated : e.authenticatedFlag = true) :
    ∃ e', searchEnginetimeList hashEngineID state'.etimelist engineID = some e' ∧
      e'.authenticatedFlag = true ∧ e.NotAfter e'.engineBoot e'.engineTime ∧
      ∀ (msg : UsmInMsg) (clock : ClockReadings), clock.Follows state'.clock →
        let result := usmProcessInMsg hashEngineID engine state'.etimelist msg clock
        (¬ (msg.authenticated ∧ msg.secEngineID = engineID) →
          searchEnginetimeList hashEngineID result.1 engineID = some e') ∧
        (msg.authenticated → msg.secEngineID = engineID → result.2 = .ok () →
          e'.InWindow msg.boots msg.time clock.estimate) := by
  rcases run.known bounded remote known authenticated with ⟨e', found, authenticated', notAfter⟩
  refine ⟨e', found, authenticated', notAfter, ?_⟩
  intro msg clock follows
  have estimate_ge : state'.clock ≤ clock.estimate :=
    le_trans follows.ensure_ge (le_trans follows.check_ge follows.estimate_ge)
  have one := usmProcessInMsg_known msg found authenticated'
    ((run.bounded bounded engineID e' found).mono estimate_ge)
    (le_trans follows.record_ge follows.record_le) remote
  refine ⟨?_, fun isAuthenticated same accepted => one.2 same isAuthenticated accepted⟩
  intro other
  rcases one.1 with ⟨e'', found', -, same | ⟨same, isAuthenticated, -⟩⟩
  · exact same ▸ found'
  · exact absurd ⟨isAuthenticated, same⟩ other

theorem usmReplayProtection_oneMessage :
    let e : Enginetime := ⟨[9], 100, 1, 50, true⟩
    let msg : UsmInMsg := ⟨[9], 1, 130, .authNoPriv, none, false, none, by decide, by decide⟩
    ∃ e', searchEnginetimeList (fun _ => some 0)
        (usmProcessInMsg (fun _ => some 0) ⟨[1], 1⟩ (fun _ => [e]) msg ⟨60, 60, 60, 60⟩).1
          [9] = some e' ∧
      e'.authenticatedFlag = true ∧ e.NotAfter e'.engineBoot e'.engineTime := by
  intro e msg
  have bounded : AllBounded (fun _ => some 0) (fun _ => [e]) 50 := by
    intro engineID e' known
    have found : [e].find? (isRecordOf engineID) = some e' := by
      rcases hash_of_search known with ⟨nonempty, -⟩
      rw [searchEnginetimeList, if_neg nonempty] at known
      exact known
    rw [List.mem_singleton.mp (List.mem_of_find?_eq_some found)]
    exact ⟨by decide, by decide, by decide⟩
  have follows : (⟨60, 60, 60, 60⟩ : ClockReadings).Follows 50 :=
    ⟨by decide, by decide, by decide, by decide, by decide⟩
  have run : TimeRun (fun _ => some 0) ⟨[1], 1⟩ ⟨fun _ => [e], 50⟩ _ :=
    .single (.message msg follows)
  have known : searchEnginetimeList (fun _ => some 0) (fun _ => [e]) [9] = some e := by decide
  rcases usmReplayProtection bounded run (by decide) known rfl with
    ⟨e', found, authenticated, notAfter, -⟩
  exact ⟨e', found, authenticated, notAfter⟩

end Runs

end NetSnmp
