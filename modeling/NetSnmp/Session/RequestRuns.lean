import NetSnmp.Session.RequestList

/-!
# Runs of a session

Sends, messages, timeouts and the close of a session in any order, pass by pass.
-/

namespace NetSnmp

/-- A loop stands in front of a cell of the list, with the cell in front of it. -/
def Between (cells : List Addr) (orp rp : Option Addr) : Prop :=
  ∃ front back, cells = front ++ back ∧ orp = front.getLast? ∧ rp = back.head?

def At (state : SessionState) (cells : List Addr) : Prop :=
  match state.control with
  | .idle => True
  | .handling _ orp rp => Between cells orp rp
  | .timing _ orp rp => Between cells orp rp
  | .closing rp => state.internal = false ∧ rp = cells.head?
  | .closed => cells = []

section Passes

variable {state state' : SessionState} {cells front back : List Addr}
  {busy orp : Option Addr} {rp : Addr}
  {pdu : SessionPdu} {run : PassRun}

theorem Pending.congr (pending : Pending state cells busy) (request_eq : state'.request =
    state.request)
    (queue_eq : state'.queue = state.queue) (fresh_eq : state'.fresh = state.fresh)
    (retries_eq : state'.retries = state.retries) (log_eq : state'.log = state.log) :
    Pending state' cells busy := by
  refine ⟨?_, ?_, ?_, ?_, ?_, ?_, ?_, ?_⟩
  · rw [queue_eq]
    exact pending.isQueue
  · rw [log_eq, fresh_eq]
    exact pending.below
  · rw [log_eq]
    exact pending.mem_iff
  · rw [log_eq]
    exact pending.quiet
  · rw [log_eq, request_eq]
    exact pending.sent_le
  · rw [log_eq, request_eq, retries_eq]
    exact pending.retries_le
  · rw [log_eq, retries_eq]
    exact pending.total_le
  · rw [log_eq]
    exact pending.terminal_le

theorem Pending.setControl (pending : Pending state cells busy) (control : Control) :
    Pending { state with control := control } cells busy :=
  pending.congr rfl rfl rfl rfl rfl

structure PassTo (rp : Addr) (state state' : SessionState) : Prop where
  reached : ∃ cells, Pending state' cells none ∧ At state' cells
  removesOnly : RemovesOnly rp state state'

theorem PassTo.after {state'' : SessionState} (removes : RemovesOnly rp state state')
    (passTo : PassTo rp state' state'') : PassTo rp state state'' :=
  ⟨passTo.reached, removes.trans passTo.removesOnly⟩

theorem passTo_idle (pending : Pending state' cells none) (removes : RemovesOnly rp state state') :
    PassTo rp state { state' with control := .idle } :=
  ⟨⟨cells, pending.setControl .idle, trivial⟩, removes⟩

theorem between_next (pending : Pending state (front ++ rp :: back) busy) :
    Between (front ++ rp :: back) (some rp) (state.queue.next rp) := by
  refine ⟨front ++ [rp], back, ?_, ?_, pending.isQueue.next_eq⟩
  · rw [List.append_assoc]
    rfl
  · rw [List.getLast?_concat]

theorem passTo_deliver (pending : Pending state (front ++ rp :: back) none) :
    PassTo rp state (state.deliver pdu front.getLast? rp run) := by
  have mem : rp ∈ front ++ rp :: back := List.mem_append_right _ List.mem_cons_self
  have same : ∀ other, some rp = some other → other = rp :=
    fun other same => (Option.some.inj same).symm
  have calls := (extends_call state rp .receivedMessage run.onMessage).removesOnly rp
  unfold SessionState.deliver
  split
  · dsimp only
    split
    · rcases pending.call (some rp) .receivedMessage run.onMessage mem same (.inl rfl) with
        ⟨more, called⟩
      rw [List.append_assoc, List.cons_append] at called
      exact passTo_idle (called.removed same) (calls.trans (removesOnly_removeRequest _ _ rp))
    · rename_i kept
      rcases pending.call none .receivedMessage run.onMessage mem (by simp)
        (.inr (.inr (.inl ⟨rfl, kept⟩))) with ⟨more, called⟩
      rw [List.append_assoc, List.cons_append] at called
      exact ⟨⟨_, called.setControl _, between_next called⟩, calls⟩
  · exact passTo_idle (pending.removed (by simp)) (removesOnly_removeRequest _ _ rp)

theorem discoverEngineID_congr (state : SessionState) (pdu : SessionPdu) (run : PassRun) :
    (state.discoverEngineID pdu run).1.request = state.request ∧
      (state.discoverEngineID pdu run).1.queue = state.queue ∧
      (state.discoverEngineID pdu run).1.fresh = state.fresh ∧
      (state.discoverEngineID pdu run).1.retries = state.retries ∧
      (state.discoverEngineID pdu run).1.log = state.log := by
  unfold SessionState.discoverEngineID
  dsimp only
  repeat' split
  all_goals exact ⟨rfl, rfl, rfl, rfl, rfl⟩

theorem passTo_deliverReport (pending : Pending state (front ++ rp :: back) none) :
    PassTo rp state (state.deliverReport pdu front.getLast? rp run) := by
  have mem : rp ∈ front ++ rp :: back := List.mem_append_right _ List.mem_cons_self
  have marked := pending.marked (.inr rfl) (pending.lt_fresh mem)
  have marks : RemovesOnly rp state (state.logged (.reported rp)) :=
    (Extends.logged (by simp)).removesOnly rp
  have told : ∃ more, Pending
      (if (state.logged (.reported rp)).hasCallback rp then
        (state.logged (.reported rp)).call rp .secError run.onError else state.logged
          (.reported rp))
      (front ++ rp :: (back ++ more)) none ∧
        RemovesOnly rp state (if (state.logged (.reported rp)).hasCallback rp then
          (state.logged (.reported rp)).call rp .secError run.onError else
            state.logged (.reported rp)) := by
    split
    · rcases marked.call none .secError run.onError mem (by simp)
        (.inr (.inr (.inr List.mem_cons_self))) with ⟨more, called⟩
      rw [List.append_assoc, List.cons_append] at called
      exact ⟨more, called, marks.trans ((extends_call _ rp .secError run.onError).removesOnly rp)⟩
    · exact ⟨[], by simpa using marked, marks⟩
  unfold SessionState.deliverReport
  dsimp only
  rcases told with ⟨more, told, tells⟩
  generalize (if (state.logged (.reported rp)).hasCallback rp then
    (state.logged (.reported rp)).call rp .secError run.onError else
      state.logged (.reported rp)) = state' at told tells ⊢
  have discovered := discoverEngineID_congr state' pdu run
  rcases result_eq : state'.discoverEngineID pdu run with ⟨state'', failed⟩
  rw [result_eq] at discovered
  rcases discovered with ⟨request_eq, queue_eq, fresh_eq, retries_eq, log_eq⟩
  have pending'' : Pending state'' (front ++ rp :: (back ++ more)) none :=
    told.congr request_eq queue_eq fresh_eq retries_eq log_eq
  have removes : RemovesOnly rp state state'' := by
    intro id removed
    exact tells id (log_eq ▸ removed)
  cases failed with
  | true => exact passTo_idle pending'' removes
  | false => exact .after removes (passTo_deliver pending'')

/-- The ids by which a message is matched with a request. -/
def Matches (request : Request) (pdu : SessionPdu) : Prop :=
  if pdu.version = snmpVersion3 then
    request.messageId = pdu.msgid ∧ snmpv3VerifyMsg request pdu = true
  else request.requestId = pdu.reqid

theorem passTo_handlePass (pending : Pending state (front ++ rp :: back) none) :
    PassTo rp state (state.handlePass pdu front.getLast? rp run) ∧
      (¬ Matches (state.request rp) pdu →
        (state.handlePass pdu front.getLast? rp run).log = state.log) := by
  have mem : rp ∈ front ++ rp :: back := List.mem_append_right _ List.mem_cons_self
  have stays : PassTo rp state
      { state with control := .handling pdu (some rp) (state.queue.next rp) } :=
    ⟨⟨_, pending.setControl _, between_next pending⟩, (Extends.refl state).removesOnly rp⟩
  have process : PassTo rp state
      (if pdu.command = snmpMsgReport then
        if run.errnoNotInTimeWindow ∨ pdu.reportType = .notInTimeWindow then
          if ((state.request rp).retries : Int) ≤ state.retries then
            { ((state.logged (.resentForReport rp)).resendRequest front.getLast? rp
              run.resend).1 with
              control := .idle }
          else state.deliverReport pdu front.getLast? rp run
        else state.deliverReport pdu front.getLast? rp run
      else state.deliver pdu front.getLast? rp run) := by
    split
    · split
      · split
        · rename_i retries_le
          have marked := pending.marked (.inl rfl) (pending.lt_fresh mem)
          have marks : RemovesOnly rp state (state.logged (.resentForReport rp)) :=
            (Extends.logged (by simp)).removesOnly rp
          have room : ((state.logged (.resentForReport rp)).request rp).retries + 1 ≤
              (state.logged (.resentForReport rp)).retries.toNat +
                reportAllowance rp (state.logged (.resentForReport rp)).log := by
            simp only [SessionState.logged, reportAllowance, List.mem_cons_self, if_true]
            omega
          rcases marked.resendRequest run.resend room with ⟨removes, more, stayed | ⟨gone, -⟩⟩
          · exact passTo_idle stayed (marks.trans removes)
          · exact passTo_idle gone (marks.trans removes)
        · exact passTo_deliverReport pending
      · exact passTo_deliverReport pending
    · exact passTo_deliver pending
  unfold SessionState.handlePass Matches
  dsimp only
  split
  · split
    · exact ⟨stays, fun _ => rfl⟩
    · rename_i msgid
      split
      · exact ⟨passTo_idle pending ((Extends.refl state).removesOnly rp), fun _ => rfl⟩
      · rename_i verified
        exact ⟨process, fun unmatched =>
          absurd ⟨not_not.mp msgid, not_not.mp verified⟩ unmatched⟩
  · split
    · exact ⟨stays, fun _ => rfl⟩
    · rename_i reqid
      exact ⟨process, fun unmatched => absurd (not_not.mp reqid) unmatched⟩

theorem passTo_removed {now : Int} (pending : Pending state' (front ++ rp :: back) busy)
    (isBusy : ∀ other, busy = some other → other = rp) (removes : RemovesOnly rp state state') :
    PassTo rp state
      { state'.removeRequest front.getLast? rp with
        control := .timing now front.getLast?
          ((state'.removeRequest front.getLast? rp).queue.next rp) } := by
  refine ⟨⟨front ++ back, (pending.removed isBusy).setControl _, front, back, rfl, rfl, ?_⟩,
    removes.trans (removesOnly_removeRequest state' front.getLast? rp)⟩
  have gone := (List.nodup_cons.mp (List.nodup_middle.mp pending.isQueue.nodup)).1
  have ne : front.getLast? ≠ some rp := fun same =>
    gone (List.mem_append_left _ (List.mem_of_getLast? same))
  exact (TailQueue.remove_next ne).trans pending.isQueue.next_eq

theorem passTo_timeoutPass {now : Int} (pending : Pending state (front ++ rp :: back) none) :
    PassTo rp state (state.timeoutPass now front.getLast? rp run) := by
  have mem : rp ∈ front ++ rp :: back := List.mem_append_right _ List.mem_cons_self
  have same : ∀ other, some rp = some other → other = rp :=
    fun other same => (Option.some.inj same).symm
  have unchanged : RemovesOnly rp state state := (Extends.refl state).removesOnly rp
  unfold SessionState.timeoutPass
  split
  · split
    · by_cases hasCallback : state.hasCallback rp = true
      · rw [if_pos hasCallback]
        rcases pending.call (some rp) .timedOut run.onError mem same (.inl rfl) with ⟨more, called⟩
        rw [List.append_assoc, List.cons_append] at called
        exact passTo_removed called same
          ((extends_call state rp .timedOut run.onError).removesOnly rp)
      · rw [if_neg hasCallback]
        exact passTo_removed pending (by simp) unchanged
    · rename_i retries_lt
      have room : (state.request rp).retries + 1 ≤
          state.retries.toNat + reportAllowance rp state.log := by omega
      dsimp only
      rcases pending.resendRequest run.resend room with ⟨removes, more, stayed | ⟨gone, failed⟩⟩
      · split
        · exact passTo_idle stayed removes
        · exact ⟨⟨_, stayed.setControl _, between_next stayed⟩, removes⟩
      · rw [if_pos failed]
        exact passTo_idle gone removes
  · exact ⟨⟨_, pending.setControl _, between_next pending⟩, unchanged⟩

theorem passTo_closePass (pending : Pending state (rp :: back) none)
    (closed : state.internal = false) :
    PassTo rp state (state.closePass rp run) := by
  have same : ∀ other, some rp = some other → other = rp :=
    fun other same => (Option.some.inj same).symm
  have next_eq : state.queue.next rp = back.head? :=
    TailQueue.IsQueue.next_eq (show state.queue.IsQueue ([] ++ rp :: back) from pending.isQueue)
  have removed (state' : SessionState) (busy : Option Addr)
    (pending' : Pending state' (rp :: back) busy)
      (isBusy : ∀ other, busy = some other → other = rp) (closed' : state'.internal = false)
      (removes : RemovesOnly rp state state') :
      PassTo rp state { state'.removeRequest none rp with control := .closing back.head? } := by
    have gone : Pending (state'.removeRequest none rp) back none :=
      Pending.removed (show Pending state' ([] ++ rp :: back) busy from pending') isBusy
    exact ⟨⟨back, gone.setControl _, closed', rfl⟩,
      removes.trans (removesOnly_removeRequest state' none rp)⟩
  unfold SessionState.closePass
  dsimp only
  rw [next_eq]
  split
  · rw [call_closed rp .timedOut run.onError closed]
    exact removed _ (some rp)
      (pending.told (some rp) .timedOut run.onError.result List.mem_cons_self
      same (.inl rfl)) same closed ((Extends.logged (by simp)).removesOnly rp)
  · exact removed state none pending (by simp) closed ((Extends.refl state).removesOnly rp)

end Passes

theorem asyncSend_control (state : SessionState) (call : SendCall) :
    (state.asyncSend call).control = state.control := by
  unfold SessionState.asyncSend
  dsimp only
  repeat' split
  all_goals rfl

theorem runCallback_control (state : SessionState) (run : CallbackRun) :
    (state.runCallback run).control = state.control := by
  unfold SessionState.runCallback
  induction run.sends generalizing state with
  | nil => rfl
  | cons send sends ih =>
      rw [List.foldl_cons]
      exact (ih _).trans (asyncSend_control state send)

def WellFormed (state : SessionState) : Prop :=
  ∃ cells, Pending state cells none ∧ At state cells

section Steps

variable {state state' : SessionState} {cells : List Addr}

theorem wellFormed_idle (pending : Pending state cells none) (idle : state.control = .idle) :
    WellFormed state := by
  refine ⟨cells, pending, ?_⟩
  unfold At
  rw [idle]
  trivial

theorem between_first (pending : Pending state cells none) :
    Between cells none state.queue.first :=
  ⟨[], cells, rfl, rfl, pending.isQueue.first_eq⟩

theorem Between.exists_cons {orp : Option Addr} {rp : Addr}
    (between : Between cells orp (some rp)) :
    ∃ front back, cells = front ++ rp :: back ∧ orp = front.getLast? := by
  rcases between with ⟨front, back, cells_eq, orp_eq, rp_eq⟩
  rcases List.head?_eq_some_iff.mp rp_eq.symm with ⟨rest, rfl⟩
  exact ⟨front, rest, cells_eq, orp_eq⟩

theorem WellFormed.step (wellFormed : WellFormed state) {move : SessionState.Move}
    (stepped : state.step move = some state') : WellFormed state' := by
  rcases wellFormed with ⟨cells, pending, isAt⟩
  unfold At at isAt
  cases move with
  | send call =>
      cases control : state.control with
      | idle =>
          simp only [SessionState.step, control, Option.some.injEq] at stepped
          rcases pending.asyncSend call with ⟨more, sent⟩
          rw [← stepped]
          exact wellFormed_idle sent ((asyncSend_control state call).trans control)
      | _ => simp [SessionState.step, control] at stepped
  | receive pdu onMessage =>
      cases control : state.control with
      | idle =>
          simp only [SessionState.step, control] at stepped
          split at stepped
          · rw [← Option.some.inj stepped]
            exact ⟨cells, pending.setControl _, between_first pending⟩
          · split at stepped
            · rcases pending.runCallback onMessage with ⟨more, sent⟩
              rw [← Option.some.inj stepped]
              exact wellFormed_idle sent ((runCallback_control state onMessage).trans control)
            · rw [← Option.some.inj stepped]
              exact wellFormed_idle pending control
      | _ => simp [SessionState.step, control] at stepped
  | timeout now =>
      cases control : state.control with
      | idle =>
          simp only [SessionState.step, control, Option.some.injEq] at stepped
          rw [← stepped]
          exact ⟨cells, pending.setControl _, between_first pending⟩
      | _ => simp [SessionState.step, control] at stepped
  | close =>
      cases control : state.control with
      | idle =>
          simp only [SessionState.step, control, Option.some.injEq] at stepped
          rw [← stepped]
          exact ⟨cells, pending.congr rfl rfl rfl rfl rfl, rfl, pending.isQueue.first_eq⟩
      | _ => simp [SessionState.step, control] at stepped
  | pass run =>
      cases control : state.control with
      | idle => simp [SessionState.step, control] at stepped
      | closed => simp [SessionState.step, control] at stepped
      | handling pdu orp rp =>
          rw [control] at isAt
          cases rp with
          | none =>
              simp only [SessionState.step, control, Option.some.injEq] at stepped
              rw [← stepped]
              exact ⟨cells, pending.setControl _, trivial⟩
          | some rp =>
              simp only [SessionState.step, control, Option.some.injEq] at stepped
              rcases isAt.exists_cons with ⟨front, back, rfl, rfl⟩
              rw [← stepped]
              exact (passTo_handlePass pending).1.reached
      | timing now orp rp =>
          rw [control] at isAt
          cases rp with
          | none =>
              simp only [SessionState.step, control, Option.some.injEq] at stepped
              rw [← stepped]
              exact ⟨cells, pending.setControl _, trivial⟩
          | some rp =>
              simp only [SessionState.step, control, Option.some.injEq] at stepped
              rcases isAt.exists_cons with ⟨front, back, rfl, rfl⟩
              rw [← stepped]
              exact (passTo_timeoutPass pending).reached
      | closing rp =>
          rw [control] at isAt
          rcases isAt with ⟨closed, rp_eq⟩
          cases rp with
          | none =>
              simp only [SessionState.step, control, Option.some.injEq] at stepped
              rw [← stepped]
              exact ⟨cells, pending.setControl _, List.head?_eq_none_iff.mp rp_eq.symm⟩
          | some rp =>
              simp only [SessionState.step, control, Option.some.injEq] at stepped
              rcases List.head?_eq_some_iff.mp rp_eq.symm with ⟨back, rfl⟩
              rw [← stepped]
              exact (passTo_closePass pending closed).reached

theorem WellFormed.matches (wellFormed : WellFormed state) {move : SessionState.Move}
    (stepped : state.step move = some state') {pdu : SessionPdu} {orp rp : Option Addr}
    (control : state.control = .handling pdu orp rp) {id : Addr}
    (removed : .removed id ∈ state'.log) (pendingBefore : .removed id ∉ state.log) :
    Matches (state.request id) pdu := by
  rcases wellFormed with ⟨cells, pending, isAt⟩
  unfold At at isAt
  rw [control] at isAt
  cases move with
  | pass run =>
      cases rp with
      | none =>
          simp only [SessionState.step, control, Option.some.injEq] at stepped
          rw [← stepped] at removed
          exact absurd removed pendingBefore
      | some rp =>
          simp only [SessionState.step, control, Option.some.injEq] at stepped
          rcases isAt.exists_cons with ⟨front, back, rfl, rfl⟩
          rw [← stepped] at removed
          have passed : PassTo rp state (state.handlePass pdu front.getLast? rp run) ∧
              (¬ Matches (state.request rp) pdu →
                (state.handlePass pdu front.getLast? rp run).log = state.log) :=
            passTo_handlePass pending
          rcases passed.1.removesOnly id removed with old | rfl
          · exact absurd old pendingBefore
          · by_contra unmatched
            rw [passed.2 unmatched] at removed
            exact pendingBefore removed
  | _ => simp [SessionState.step, control] at stepped

end Steps

section Runs

variable {memory : Addr → Request} {callback : Bool} {retries timeout : Int}
  {securityEngineID contextEngineID : List Byte} {moves : List SessionState.Move}
    {state : SessionState}

theorem wellFormed_opened :
    WellFormed (.opened memory callback retries timeout securityEngineID contextEngineID) := by
  refine ⟨[], ⟨⟨rfl, rfl, List.nodup_nil⟩, ?_, ?_, List.Pairwise.nil, ?_, ?_, ?_, ?_⟩, trivial⟩
  · simp [SessionState.opened]
  · simp [SessionState.opened]
  · simp
  · simp
  · simp [SessionState.opened, sentCount]
  · simp [SessionState.opened, terminalCount]

theorem WellFormed.runMoves {start : SessionState} (wellFormed : WellFormed start)
    (run : start.runMoves moves = some state) : WellFormed state := by
  induction moves generalizing start with
  | nil => exact Option.some.inj run ▸ wellFormed
  | cons move moves ih =>
      rw [SessionState.runMoves] at run
      cases stepped : start.step move with
      | none =>
          rw [stepped] at run
          exact absurd run (by simp)
      | some next =>
          rw [stepped] at run
          exact ih (wellFormed.step stepped) run

/-- In every state of a session the list of requests is linked up to its last cell and holds each
accepted request once until it is removed; no request is transmitted more than once and once for
each retry, and once more after a report; and a message removes only requests that match it. -/
theorem requestList_of_run
    (run : (SessionState.opened memory callback retries timeout securityEngineID
      contextEngineID).runMoves moves = some state) :
    (∃ cells, state.queue.IsQueue cells ∧
      ∀ id, id ∈ cells ↔ .accepted id ∈ state.log ∧ .removed id ∉ state.log) ∧
    (∀ id, sentCount id state.log ≤ 1 + state.retries.toNat + reportAllowance id state.log) ∧
    ∀ move state', state.step move = some state' → ∀ pdu orp rp,
      state.control = .handling pdu orp rp → ∀ id, .removed id ∈ state'.log →
        .removed id ∉ state.log → Matches (state.request id) pdu := by
  have wellFormed := wellFormed_opened.runMoves run
  refine ⟨?_, ?_, ?_⟩
  · rcases wellFormed with ⟨cells, pending, -⟩
    exact ⟨cells, pending.isQueue, pending.mem_iff⟩
  · rcases wellFormed with ⟨cells, pending, -⟩
    exact pending.total_le
  · intro move state' stepped pdu orp rp control id removed pendingBefore
    exact wellFormed.matches stepped control removed pendingBefore

/-- No callback is called after its request was removed, and it is called at most once with a
terminal operation if it returned 1 for every message and no report arrived after which the request
is not sent again. -/
theorem concluded_of_run
    (run : (SessionState.opened memory callback retries timeout securityEngineID
      contextEngineID).runMoves moves = some state) :
    Quiet state.log ∧
    ∀ id, .reported id ∉ state.log →
      (∀ result, .called id .receivedMessage result ∈ state.log → result = 1) →
        terminalCount id state.log ≤ 1 := by
  rcases wellFormed_opened.runMoves run with ⟨cells, pending, -⟩
  refine ⟨pending.quiet, ?_⟩
  intro id notReported handled
  have kept_eq : keptCount id state.log = 0 := by
    refine List.countP_eq_zero.mpr ?_
    intro event mem isKept
    cases event with
    | called other op result =>
        cases op with
        | receivedMessage =>
            simp only [SessionEvent.isKept, Bool.and_eq_true, decide_eq_true_eq] at isKept
            rcases isKept with ⟨rfl, kept⟩
            exact kept (handled result mem)
        | _ => exact absurd isKept (by simp [SessionEvent.isKept])
    | _ => exact absurd isKept (by simp [SessionEvent.isKept])
  have bound := pending.terminal_le id notReported
  rw [kept_eq] at bound
  refine le_trans bound ?_
  split <;> omega

def getRequest : SessionPdu where
  version := 1
  command := 0xa0
  reqid := 7
  msgid := 7
  responsePdu := false
  expectResponse := true
  pduTimeout := false
  time := 0
  securityModel := 2
  securityLevel := 1
  contextEngineID := []
  contextName := []
  securityEngineID := []
  securityName := []
  reportType := .other

def getResponse : SessionPdu := { getRequest with command := 0xa2, responsePdu := true }

/-- A pass in which the callback returns `result` and sends nothing. -/
def quietPass (result : Int) : PassRun where
  errnoNotInTimeWindow := false
  securityAllocated := true
  contextAllocated := true
  onError := ⟨[], 1⟩
  onMessage := ⟨[], result⟩
  resend := ⟨true, 8, true, true, 0, ⟨[], 1⟩⟩

def oneRequest (result : Int) : List SessionState.Move :=
  [.send ⟨getRequest, true, none, true, true, 0, 1⟩, .receive getResponse ⟨[], 1⟩,
    .pass (quietPass result)]

def oneSession : SessionState :=
  .opened (fun _ => ⟨0, 0, false, 0, 0, 0, getRequest⟩) false 0 1000000 [] []

theorem requestList_of_run_oneRequest :
    ∃ state, oneSession.runMoves (oneRequest 1) = some state ∧
      sentCount 0 state.log ≤ 1 + state.retries.toNat + reportAllowance 0 state.log :=
  ⟨_, rfl, (requestList_of_run (show oneSession.runMoves (oneRequest 1) = some _ from rfl)).2.1 0⟩

theorem concluded_of_run_oneRequest :
    ∃ state, oneSession.runMoves (oneRequest 1) = some state ∧ terminalCount 0 state.log ≤ 1 := by
  refine ⟨_, rfl, ?_⟩
  apply (concluded_of_run (show oneSession.runMoves (oneRequest 1) =
    some _ from rfl)).2 0 (by decide)
  intro result mem
  have mem' : .called 0 .receivedMessage result ∈ [SessionEvent.removed 0,
    .called 0 .receivedMessage 1, .accepted 0, .transmitted 0] := mem
  simpa using mem'

/-- A callback that does not return 1 for the response is told of the timeout as well. -/
theorem not_concluded_keptRequest :
    ¬ ∀ moves state, oneSession.runMoves moves = some state →
      ∀ id, terminalCount id state.log ≤ 1 := by
  intro always
  have bound := always
    (oneRequest 0 ++ [.pass (quietPass 1), .timeout 2000000, .pass (quietPass 1)])
    _ rfl 0
  exact absurd bound (by decide)

end Runs

end NetSnmp
