import NetSnmp.Session.Requests

/-!
# The invariant of the pending requests

What holds of the list of requests and of the events so far in every state of a
session, also in the middle of a loop and whatever callbacks send.
-/

namespace NetSnmp

def CallbackOp.terminal : CallbackOp → Bool
  | .receivedMessage | .timedOut | .sendFailed | .disconnect | .secError => true
  | .connect | .resend => false

namespace SessionEvent

def isTerminal (id : Addr) : SessionEvent → Bool
  | called other op _ => other = id && op.terminal
  | _ => false

/-- The callback of the request gets a message, and does not return 1: the request is kept. -/
def isKept (id : Addr) : SessionEvent → Bool
  | called other .receivedMessage result => other = id && result ≠ 1
  | _ => false

end SessionEvent

/-- The terminal calls of the callback of a request. -/
def terminalCount (id : Addr) (log : List SessionEvent) : Nat :=
  log.countP (SessionEvent.isTerminal id)

def keptCount (id : Addr) (log : List SessionEvent) : Nat :=
  log.countP (SessionEvent.isKept id)

def sentCount (id : Addr) (log : List SessionEvent) : Nat :=
  log.count (.transmitted id)

def reportAllowance (id : Addr) (log : List SessionEvent) : Nat :=
  if .resentForReport id ∈ log then 1 else 0

/-- No callback is called after its request was removed. -/
def Quiet (log : List SessionEvent) : Prop :=
  log.Pairwise fun later earlier =>
    ∀ id, earlier = .removed id → ∀ op result, later ≠ .called id op result

/-- The queue holds the pending requests, and the events agree with it.  The callback of the request
`busy` was told that it is about to be removed. -/
structure Pending (state : SessionState) (cells : List Addr) (busy : Option Addr) : Prop where
  isQueue : state.queue.IsQueue cells
  below : ∀ event ∈ state.log, event.id < state.fresh
  mem_iff : ∀ id, id ∈ cells ↔ .accepted id ∈ state.log ∧ .removed id ∉ state.log
  quiet : Quiet state.log
  sent_le : ∀ id ∈ cells, sentCount id state.log ≤ 1 + (state.request id).retries
  retries_le : ∀ id ∈ cells,
    (state.request id).retries ≤ state.retries.toNat + reportAllowance id state.log
  total_le : ∀ id, sentCount id state.log ≤ 1 + state.retries.toNat + reportAllowance id state.log
  terminal_le : ∀ id, .reported id ∉ state.log →
    terminalCount id state.log ≤
      keptCount id state.log + if id ∈ cells ∧ busy ≠ some id then 0 else 1

section Events

variable {state : SessionState} {cells : List Addr} {busy : Option Addr} {id : Addr}

theorem Pending.lt_fresh (pending : Pending state cells busy) (mem : id ∈ cells) :
    id < state.fresh :=
  pending.below _ ((pending.mem_iff id).mp mem).1

theorem Pending.not_mem_of_fresh (pending : Pending state cells busy) {event : SessionEvent}
    (new : event.id = state.fresh) : event ∉ state.log := by
  intro mem
  have lt := pending.below event mem
  rw [new] at lt
  exact lt_irrefl _ lt

theorem Pending.sentCount_of_fresh (pending : Pending state cells busy) :
    sentCount state.fresh state.log = 0 :=
  List.count_eq_zero.mpr (pending.not_mem_of_fresh rfl)

theorem Pending.terminalCount_of_fresh (pending : Pending state cells busy) :
    terminalCount state.fresh state.log = 0 := by
  refine List.countP_eq_zero.mpr ?_
  intro event mem isTerminal
  cases event with
  | called other op result =>
      have new : (SessionEvent.called other op result).id = state.fresh := by
        simp only [SessionEvent.isTerminal, Bool.and_eq_true, decide_eq_true_eq] at isTerminal
        exact isTerminal.1
      exact pending.not_mem_of_fresh new mem
  | _ => exact absurd isTerminal (by simp [SessionEvent.isTerminal])

theorem isTerminal_called_of_ne {other : Addr} (ne : other ≠ id) (op : CallbackOp) (result : Int) :
    SessionEvent.isTerminal other (.called id op result) = false := by
  simp [SessionEvent.isTerminal, Ne.symm ne]

theorem isKept_called_of_ne {other : Addr} (ne : other ≠ id) (op : CallbackOp) (result : Int) :
    SessionEvent.isKept other (.called id op result) = false := by
  cases op <;> simp [SessionEvent.isKept, Ne.symm ne]

theorem reportAllowance_mono {event : SessionEvent} {log : List SessionEvent} :
    reportAllowance id log ≤ reportAllowance id (event :: log) := by
  unfold reportAllowance
  by_cases mem : .resentForReport id ∈ log
  · simp [mem]
  · simp [mem]

theorem Pending.called {busy' : Option Addr} {op : CallbackOp} {result : Int}
    (pending : Pending state cells busy) (lt : id < state.fresh) (live : .removed id ∉ state.log)
    (keeps : ∀ other, other ≠ id → busy' = some other → busy = some other)
    (keeps' : ∀ other, other ≠ id → busy = some other → busy' = some other)
    (bound : .reported id ∉ state.log →
      terminalCount id (.called id op result :: state.log) ≤
        keptCount id (.called id op result :: state.log) +
          if id ∈ cells ∧ busy' ≠ some id then 0 else 1) :
    Pending (state.logged (.called id op result)) cells busy' := by
  refine ⟨pending.isQueue, ?_, ?_, ?_, ?_, ?_, ?_, ?_⟩
  · intro event mem
    rcases List.mem_cons.mp mem with rfl | mem
    · exact lt
    · exact pending.below event mem
  · intro other
    simpa [SessionState.logged] using pending.mem_iff other
  · refine List.pairwise_cons.mpr ⟨?_, pending.quiet⟩
    intro earlier mem other earlier_eq op' result' same
    injection same with id_eq
    subst id_eq
    exact live (earlier_eq ▸ mem)
  · intro other mem
    simpa [SessionState.logged, sentCount] using pending.sent_le other mem
  · intro other mem
    simpa [SessionState.logged, reportAllowance] using pending.retries_le other mem
  · intro other
    simpa [SessionState.logged, sentCount, reportAllowance] using pending.total_le other
  · intro other notReported
    have notReported' : .reported other ∉ state.log := fun mem =>
      notReported (List.mem_cons_of_mem _ mem)
    by_cases same : other = id
    · subst same
      exact bound notReported'
    · have old := pending.terminal_le other notReported'
      have busy_iff : busy' ≠ some other ↔ busy ≠ some other :=
        not_congr ⟨keeps other same, keeps' other same⟩
      simp only [SessionState.logged, terminalCount, keptCount] at old ⊢
      rw [List.countP_cons_of_neg (by simp [isTerminal_called_of_ne same]),
        List.countP_cons_of_neg (by simp [isKept_called_of_ne same])]
      simp only [busy_iff]
      exact old

theorem Pending.marked {event : SessionEvent} (pending : Pending state cells busy)
    (isMark : event = .resentForReport id ∨ event = .reported id) (lt : id < state.fresh) :
    Pending (state.logged event) cells busy := by
  have notAccepted : ∀ other, SessionEvent.accepted other ≠ event := by
    rcases isMark with rfl | rfl <;> simp
  have notRemoved : ∀ other, SessionEvent.removed other ≠ event := by
    rcases isMark with rfl | rfl <;> simp
  have notSent : ∀ other, event ≠ SessionEvent.transmitted other := by
    rcases isMark with rfl | rfl <;> simp
  have notTerminal : ∀ other, SessionEvent.isTerminal other event = false := by
    rcases isMark with rfl | rfl <;> simp [SessionEvent.isTerminal]
  have notKept : ∀ other, SessionEvent.isKept other event = false := by
    rcases isMark with rfl | rfl <;> simp [SessionEvent.isKept]
  have sent_eq : ∀ other, sentCount other (event :: state.log) = sentCount other state.log :=
    fun other => List.count_cons_of_ne (notSent other)
  refine ⟨pending.isQueue, ?_, ?_, ?_, ?_, ?_, ?_, ?_⟩
  · intro other mem
    rcases List.mem_cons.mp mem with rfl | mem
    · rcases isMark with rfl | rfl <;> exact lt
    · exact pending.below other mem
  · intro other
    rw [pending.mem_iff]
    simp [SessionState.logged, notAccepted, notRemoved]
  · refine List.pairwise_cons.mpr ⟨?_, pending.quiet⟩
    intro earlier _ other _ op result same
    rcases isMark with rfl | rfl <;> exact absurd same (by simp)
  · intro other mem
    rw [SessionState.logged, sent_eq]
    exact pending.sent_le other mem
  · intro other mem
    exact le_trans (pending.retries_le other mem) (Nat.add_le_add_left reportAllowance_mono _)
  · intro other
    rw [SessionState.logged, sent_eq]
    exact le_trans (pending.total_le other) (Nat.add_le_add_left reportAllowance_mono _)
  · intro other notReported
    have old := pending.terminal_le other fun mem => notReported (List.mem_cons_of_mem _ mem)
    simpa [SessionState.logged, terminalCount, keptCount, notTerminal, notKept] using old

theorem Pending.transmitted (pending : Pending state cells busy) (lt : id < state.fresh)
    (room : id ∈ cells → sentCount id state.log ≤ (state.request id).retries)
    (total : sentCount id state.log ≤ state.retries.toNat + reportAllowance id state.log) :
    Pending (state.logged (.transmitted id)) cells busy := by
  have sent_self : sentCount id (.transmitted id :: state.log) = sentCount id state.log + 1 :=
    List.count_cons_self
  have sent_of_ne : ∀ other, other ≠ id →
      sentCount other (.transmitted id :: state.log) = sentCount other state.log := by
    intro other ne
    exact List.count_cons_of_ne (by simpa using Ne.symm ne)
  refine ⟨pending.isQueue, ?_, ?_, ?_, ?_, ?_, ?_, ?_⟩
  · intro event eventMem
    rcases List.mem_cons.mp eventMem with rfl | eventMem
    · exact lt
    · exact pending.below event eventMem
  · intro other
    simpa [SessionState.logged] using pending.mem_iff other
  · refine List.pairwise_cons.mpr ⟨?_, pending.quiet⟩
    intro earlier _ other _ op result same
    exact absurd same (by simp)
  · intro other otherMem
    by_cases same : other = id
    · subst same
      have sent_le := room otherMem
      simp only [SessionState.logged, sent_self]
      omega
    · rw [SessionState.logged, sent_of_ne other same]
      exact pending.sent_le other otherMem
  · intro other otherMem
    simpa [SessionState.logged, reportAllowance] using pending.retries_le other otherMem
  · intro other
    have allowance_eq : reportAllowance other (.transmitted id :: state.log) =
        reportAllowance other state.log := by simp [reportAllowance]
    by_cases same : other = id
    · subst same
      simp only [SessionState.logged, sent_self, allowance_eq]
      omega
    · rw [SessionState.logged, sent_of_ne other same, allowance_eq]
      exact pending.total_le other
  · intro other notReported
    have old := pending.terminal_le other fun mem => notReported (List.mem_cons_of_mem _ mem)
    simpa [SessionState.logged, terminalCount, keptCount, SessionEvent.isTerminal,
      SessionEvent.isKept] using old

theorem Pending.removed {front back : List Addr} {rp : Addr}
    (pending : Pending state (front ++ rp :: back) busy) (isBusy : ∀ other, busy =
      some other → other = rp) :
    Pending (state.removeRequest front.getLast? rp) (front ++ back) none := by
  have mem : rp ∈ front ++ rp :: back := List.mem_append_right _ List.mem_cons_self
  have gone : rp ∉ front ++ back :=
    (List.nodup_cons.mp (List.nodup_middle.mp pending.isQueue.nodup)).1
  have mem_iff : ∀ other, other ∈ front ++ back ↔ other ∈ front ++ rp :: back ∧ other ≠ rp := by
    intro other
    constructor
    · intro otherMem
      refine ⟨?_, ne_of_mem_of_not_mem otherMem gone⟩
      rcases List.mem_append.mp otherMem with inFront | inBack
      · exact List.mem_append_left _ inFront
      · exact List.mem_append_right _ (List.mem_cons_of_mem _ inBack)
    · rintro ⟨otherMem, ne⟩
      rcases List.mem_append.mp otherMem with inFront | inRest
      · exact List.mem_append_left _ inFront
      · rcases List.mem_cons.mp inRest with same | inBack
        · exact absurd same ne
        · exact List.mem_append_right _ inBack
  refine ⟨pending.isQueue.remove, ?_, ?_, ?_, ?_, ?_, ?_, ?_⟩
  · intro event eventMem
    rcases List.mem_cons.mp eventMem with rfl | eventMem
    · exact pending.lt_fresh mem
    · exact pending.below event eventMem
  · intro other
    rw [mem_iff, pending.mem_iff]
    simp only [SessionState.removeRequest, List.mem_cons, reduceCtorEq, false_or,
      SessionEvent.removed.injEq, not_or]
    constructor
    · rintro ⟨⟨accepted, live⟩, ne⟩
      exact ⟨accepted, ne, live⟩
    · rintro ⟨accepted, ne, live⟩
      exact ⟨⟨accepted, live⟩, ne⟩
  · refine List.pairwise_cons.mpr ⟨?_, pending.quiet⟩
    intro earlier _ other _ op result same
    exact absurd same (by simp)
  · intro other otherMem
    simpa [SessionState.removeRequest, sentCount] using
      pending.sent_le other ((mem_iff other).mp otherMem).1
  · intro other otherMem
    simpa [SessionState.removeRequest, reportAllowance] using
      pending.retries_le other ((mem_iff other).mp otherMem).1
  · intro other
    simpa [SessionState.removeRequest, sentCount, reportAllowance] using pending.total_le other
  · intro other notReported
    have old := pending.terminal_le other fun mem => notReported (List.mem_cons_of_mem _ mem)
    have terminal_eq : terminalCount other (.removed rp :: state.log) =
        terminalCount other state.log := by simp [terminalCount, SessionEvent.isTerminal]
    have kept_eq : keptCount other (.removed rp :: state.log) = keptCount other state.log := by
      simp [keptCount, SessionEvent.isKept]
    rw [SessionState.removeRequest, terminal_eq, kept_eq]
    refine le_trans old (Nat.add_le_add_left ?_ _)
    by_cases otherMem : other ∈ front ++ back
    · have pendingOther := (mem_iff other).mp otherMem
      have notBusy : busy ≠ some other := fun same => pendingOther.2 (isBusy other same)
      simp [otherMem, notBusy, pendingOther.1]
    · rw [if_neg fun both : other ∈ front ++ back ∧ none ≠ some other => otherMem both.1]
      split
      · exact Nat.zero_le _
      · exact le_rfl

theorem Pending.accepted (pending : Pending state cells busy) (lt : id < state.fresh)
    (notAccepted : .accepted id ∉ state.log) (notRemoved : .removed id ∉ state.log)
    (sent_le : sentCount id state.log ≤ 1) (terminal_eq : terminalCount id state.log = 0)
    {rp : Request} (retries_eq : rp.retries = 0) :
    Pending
      { state with
        request := Function.update state.request id rp
        queue := state.queue.append id
        log := .accepted id :: state.log } (cells ++ [id]) busy := by
  have notMem : id ∉ cells := fun mem => notAccepted ((pending.mem_iff id).mp mem).1
  have ne_of_mem : ∀ other ∈ cells, other ≠ id := fun other mem => ne_of_mem_of_not_mem mem notMem
  refine ⟨pending.isQueue.append notMem, ?_, ?_, ?_, ?_, ?_, ?_, ?_⟩
  · intro event eventMem
    rcases List.mem_cons.mp eventMem with rfl | eventMem
    · exact lt
    · exact pending.below event eventMem
  · intro other
    rw [List.mem_append, List.mem_singleton, pending.mem_iff]
    by_cases same : other = id
    · subst same
      simp [notRemoved]
    · simp [same]
  · refine List.pairwise_cons.mpr ⟨?_, pending.quiet⟩
    intro earlier _ other _ op result same
    exact absurd same (by simp)
  · intro other otherMem
    have sent_eq : sentCount other (.accepted id :: state.log) = sentCount other state.log :=
      List.count_cons_of_ne (by simp)
    rcases List.mem_append.mp otherMem with old | new
    · simp only [sent_eq, Function.update_of_ne (ne_of_mem other old)]
      exact pending.sent_le other old
    · rw [List.mem_singleton.mp new] at sent_eq ⊢
      simp only [sent_eq]
      exact le_trans sent_le (Nat.le_add_right _ _)
  · intro other otherMem
    have allowance_eq : reportAllowance other (.accepted id :: state.log) =
        reportAllowance other state.log := by simp [reportAllowance]
    rcases List.mem_append.mp otherMem with old | new
    · simp only [allowance_eq, Function.update_of_ne (ne_of_mem other old)]
      exact pending.retries_le other old
    · rw [List.mem_singleton.mp new]
      simp only [Function.update_self, retries_eq]
      exact Nat.zero_le _
  · intro other
    simpa [sentCount, reportAllowance] using pending.total_le other
  · intro other notReported
    have terminal_eq' : terminalCount other (.accepted id :: state.log) =
        terminalCount other state.log := by simp [terminalCount, SessionEvent.isTerminal]
    have kept_eq : keptCount other (.accepted id :: state.log) = keptCount other state.log := by
      simp [keptCount, SessionEvent.isKept]
    simp only [terminal_eq', kept_eq]
    by_cases same : other = id
    · subst same
      rw [terminal_eq]
      exact Nat.zero_le _
    · have old := pending.terminal_le other fun mem => notReported (List.mem_cons_of_mem _ mem)
      simpa [same] using old

end Events

def Extends (state state' : SessionState) : Prop :=
  ∃ events, state'.log = events ++ state.log ∧ ∀ id, .removed id ∉ events

section Sends

variable {state state' state'' : SessionState} {cells : List Addr} {busy : Option Addr}

theorem Extends.refl (state : SessionState) : Extends state state := ⟨[], rfl, by simp⟩

theorem Extends.trans (first : Extends state state') (second : Extends state' state'') :
    Extends state state'' := by
  rcases first with ⟨events, log_eq, notRemoved⟩
  rcases second with ⟨events', log_eq', notRemoved'⟩
  refine ⟨events' ++ events, by rw [log_eq', log_eq, List.append_assoc], ?_⟩
  intro id mem
  rcases List.mem_append.mp mem with mem | mem
  · exact notRemoved' id mem
  · exact notRemoved id mem

theorem Extends.logged {event : SessionEvent} (ne : ∀ id, event ≠ .removed id) :
    Extends state (state.logged event) := by
  refine ⟨[event], rfl, ?_⟩
  intro id mem
  exact ne id (List.mem_singleton.mp mem).symm

theorem Extends.removed {id : Addr} (extends' : Extends state state')
    (mem : .removed id ∈ state'.log) : .removed id ∈ state.log := by
  rcases extends' with ⟨events, log_eq, notRemoved⟩
  rw [log_eq] at mem
  rcases List.mem_append.mp mem with mem | mem
  · exact absurd mem (notRemoved id)
  · exact mem

theorem extends_asyncSend (state : SessionState) (call : SendCall) :
    Extends state (state.asyncSend call) := by
  unfold SessionState.asyncSend
  split
  · exact .refl state
  · cases call.buildError with
    | some errno =>
        dsimp only
        split
        · exact ⟨[_], rfl, by simp⟩
        · exact ⟨[], rfl, by simp⟩
    | none =>
        dsimp only
        split
        · split
          · exact ⟨[_, _], rfl, by simp⟩
          · exact ⟨[_], rfl, by simp⟩
        · split
          · split
            · exact ⟨[_], rfl, by simp⟩
            · exact ⟨[_, _], rfl, by simp⟩
          · exact ⟨[_], rfl, by simp⟩

theorem Pending.asyncSend (pending : Pending state cells busy) (call : SendCall) :
    ∃ more, Pending (state.asyncSend call) (cells ++ more) busy := by
  unfold SessionState.asyncSend
  split
  · exact ⟨[], by simpa using pending⟩
  · have notMem : state.fresh ∉ cells := fun mem => lt_irrefl _ (pending.lt_fresh mem)
    have bumped : Pending { state with fresh := state.fresh + 1 } cells busy :=
      ⟨pending.isQueue, fun event mem => Nat.lt_succ_of_lt (pending.below event mem),
        pending.mem_iff, pending.quiet, pending.sent_le, pending.retries_le, pending.total_le,
        pending.terminal_le⟩
    have notRemoved : .removed state.fresh ∉ state.log := pending.not_mem_of_fresh rfl
    have terminal_eq := pending.terminalCount_of_fresh
    have called : ∀ {state' : SessionState} (op : CallbackOp) (result : Int),
        Pending state' cells busy → state.fresh < state'.fresh → .removed state.fresh ∉ state'.log →
          terminalCount state.fresh state'.log = 0 →
            Pending (state'.logged (.called state.fresh op result)) cells busy := by
      intro state' op result pending' lt live none
      refine pending'.called lt live (fun _ _ same => same) (fun _ _ same => same) fun _ => ?_
      rw [if_neg fun both => notMem both.1]
      have one : terminalCount state.fresh (.called state.fresh op result :: state'.log) ≤ 1 := by
        unfold terminalCount at none ⊢
        rw [List.countP_cons, none]
        split <;> omega
      exact le_trans one (Nat.le_add_left _ _)
    cases call.buildError with
    | some errno =>
        dsimp only
        refine ⟨[], ?_⟩
        rw [List.append_nil]
        split
        · exact called _ _ bumped (Nat.lt_succ_self _) notRemoved terminal_eq
        · exact bumped
    | none =>
        have sent_eq := pending.sentCount_of_fresh
        have sent : Pending
            (SessionState.logged { state with fresh := state.fresh + 1 } (.transmitted state.fresh))
            cells busy := by
          refine bumped.transmitted (Nat.lt_succ_self _) (fun mem => absurd mem notMem) ?_
          dsimp only
          rw [sent_eq]
          exact Nat.zero_le _
        have notRemoved' : .removed state.fresh ∉ SessionEvent.transmitted state.fresh ::
          state.log := by
          simpa using notRemoved
        have terminal_eq' :
            terminalCount state.fresh (.transmitted state.fresh :: state.log) = 0 := by
          simpa [terminalCount, SessionEvent.isTerminal] using terminal_eq
        dsimp only
        split
        · refine ⟨[], ?_⟩
          rw [List.append_nil]
          split
          · exact called _ _ sent (Nat.lt_succ_self _) notRemoved' terminal_eq'
          · exact sent
        · split
          · split
            · exact ⟨[], by simpa using sent⟩
            · refine ⟨[state.fresh], ?_⟩
              have notAccepted : .accepted state.fresh ∉
                  SessionEvent.transmitted state.fresh :: state.log := by
                simpa using pending.not_mem_of_fresh
                  (show (SessionEvent.accepted state.fresh).id = state.fresh from rfl)
              have sent_le : sentCount state.fresh (.transmitted state.fresh :: state.log) ≤ 1 := by
                unfold sentCount at sent_eq ⊢
                rw [List.count_cons_self, sent_eq]
              exact sent.accepted (Nat.lt_succ_self _) notAccepted notRemoved' sent_le
                terminal_eq' rfl
          · exact ⟨[], by simpa using sent⟩

theorem asyncSend_closed (call : SendCall) (closed : state.internal = false) :
    state.asyncSend call = state := by
  simp [SessionState.asyncSend, closed]

theorem Pending.runCallback (pending : Pending state cells busy) (run : CallbackRun) :
    ∃ more, Pending (state.runCallback run) (cells ++ more) busy := by
  unfold SessionState.runCallback
  induction run.sends generalizing state cells with
  | nil => exact ⟨[], by simpa using pending⟩
  | cons send sends ih =>
      rcases pending.asyncSend send with ⟨first, sent⟩
      rcases ih sent with ⟨rest, pending'⟩
      exact ⟨first ++ rest, by simpa using pending'⟩

theorem extends_runCallback (state : SessionState) (run : CallbackRun) :
    Extends state (state.runCallback run) := by
  unfold SessionState.runCallback
  induction run.sends generalizing state with
  | nil => exact .refl state
  | cons send sends ih => exact (extends_asyncSend state send).trans (ih _)

theorem runCallback_closed (run : CallbackRun) (closed : state.internal = false) :
    state.runCallback run = state := by
  unfold SessionState.runCallback
  induction run.sends with
  | nil => rfl
  | cons send sends ih =>
      rw [List.foldl_cons, asyncSend_closed send closed]
      exact ih

theorem extends_call (state : SessionState) (rp : Addr) (op : CallbackOp) (run : CallbackRun) :
    Extends state (state.call rp op run) :=
  (Extends.logged (by simp)).trans (extends_runCallback _ run)

theorem Pending.told {rp : Addr} (busy' : Option Addr) (op : CallbackOp) (result : Int)
    (pending : Pending state cells none) (mem : rp ∈ cells)
    (isBusy : ∀ other, busy' = some other → other = rp)
    (excused : busy' = some rp ∨ op = .resend ∨ (op = .receivedMessage ∧ result ≠ 1) ∨
      .reported rp ∈ state.log) :
    Pending (state.logged (.called rp op result)) cells busy' := by
  have live := ((pending.mem_iff rp).mp mem).2
  refine pending.called (pending.lt_fresh mem) live ?_ ?_ fun notReported => ?_
  · intro other ne same
    exact absurd (isBusy other same) ne
  · intro other _ same
    exact absurd same (by simp)
  · have old := pending.terminal_le rp notReported
    rw [if_pos ⟨mem, by simp⟩] at old
    unfold terminalCount keptCount at old ⊢
    rcases excused with busy_eq | rfl | ⟨rfl, kept⟩ | reported
    · rw [if_neg fun both => both.2 busy_eq, List.countP_cons, List.countP_cons]
      split <;> omega
    · rw [List.countP_cons_of_neg (by simp [SessionEvent.isTerminal, CallbackOp.terminal]),
        List.countP_cons_of_neg (by simp [SessionEvent.isKept])]
      omega
    · rw [List.countP_cons_of_pos (by simp [SessionEvent.isTerminal, CallbackOp.terminal]),
        List.countP_cons_of_pos (by simp [SessionEvent.isKept, kept])]
      omega
    · exact absurd reported notReported

theorem Pending.call {rp : Addr} (busy' : Option Addr) (op : CallbackOp) (run : CallbackRun)
    (pending : Pending state cells none) (mem : rp ∈ cells)
    (isBusy : ∀ other, busy' = some other → other = rp)
    (excused : busy' = some rp ∨ op = .resend ∨ (op = .receivedMessage ∧ run.result ≠ 1) ∨
      .reported rp ∈ state.log) :
    ∃ more, Pending (state.call rp op run) (cells ++ more) busy' :=
  (Pending.told busy' op run.result pending mem isBusy excused).runCallback run

theorem call_closed (rp : Addr) (op : CallbackOp) (run : CallbackRun)
    (closed : state.internal = false) :
    state.call rp op run = state.logged (.called rp op run.result) :=
  runCallback_closed run closed

theorem Pending.updateRequest {rp : Addr} (update : Request → Request)
    (pending : Pending state cells busy)
    (sent_le : sentCount rp state.log ≤ 1 + (update (state.request rp)).retries)
    (retries_le : (update (state.request rp)).retries ≤
      state.retries.toNat + reportAllowance rp state.log) :
    Pending (state.updateRequest rp update) cells busy := by
  refine ⟨pending.isQueue, pending.below, pending.mem_iff, pending.quiet, ?_, ?_, pending.total_le,
    pending.terminal_le⟩
  · intro other mem
    by_cases same : other = rp
    · subst same
      simpa [SessionState.updateRequest] using sent_le
    · simpa [SessionState.updateRequest, same] using pending.sent_le other mem
  · intro other mem
    by_cases same : other = rp
    · subst same
      simpa [SessionState.updateRequest] using retries_le
    · simpa [SessionState.updateRequest, same] using pending.retries_le other mem

/-- Of the requests only `rp` is removed. -/
def RemovesOnly (rp : Addr) (state state' : SessionState) : Prop :=
  ∀ id, .removed id ∈ state'.log → .removed id ∈ state.log ∨ id = rp

theorem Extends.removesOnly (extends' : Extends state state') (rp : Addr) :
    RemovesOnly rp state state' :=
  fun _ mem => .inl (extends'.removed mem)

theorem RemovesOnly.trans {rp : Addr} (first : RemovesOnly rp state state')
    (second : RemovesOnly rp state' state'') : RemovesOnly rp state state'' := by
  intro id mem
  rcases second id mem with old | same
  · exact first id old
  · exact .inr same

theorem removesOnly_removeRequest (state : SessionState) (orp : Option Addr) (rp : Addr) :
    RemovesOnly rp state (state.removeRequest orp rp) := by
  intro id mem
  rcases List.mem_cons.mp mem with same | old
  · exact .inr (SessionEvent.removed.inj same)
  · exact .inl old

theorem Pending.resendRequest {front back : List Addr} {rp : Addr}
    (pending : Pending state (front ++ rp :: back) none) (run : ResendRun)
    (room : (state.request rp).retries + 1 ≤ state.retries.toNat + reportAllowance rp state.log) :
    let result := state.resendRequest front.getLast? rp run
    RemovesOnly rp state result.1 ∧ ∃ more, Pending result.1 (front ++ rp :: (back ++ more)) none ∨
      (Pending result.1 (front ++ (back ++ more)) none ∧ result.2 ≠ 0) := by
  have mem : rp ∈ front ++ rp :: back := List.mem_append_right _ List.mem_cons_self
  have sent_le := pending.sent_le rp mem
  intro result
  have result_eq : result = state.resendRequest front.getLast? rp run := rfl
  unfold SessionState.resendRequest at result_eq
  dsimp only at result_eq
  have unchanged : RemovesOnly rp state state := (Extends.refl state).removesOnly rp
  split at result_eq
  · rw [result_eq]
    exact ⟨unchanged, [], .inl (by simpa using pending)⟩
  · split at result_eq
    · rw [result_eq]
      exact ⟨unchanged, [], .inl (by simpa using pending)⟩
    · have updated : Pending (state.updateRequest rp (Request.retry run.msgid))
          (front ++ rp :: back) none :=
        pending.updateRequest (Request.retry run.msgid)
          (le_trans sent_le (Nat.add_le_add_left (Nat.le_succ _) _)) room
      have unchanged' : RemovesOnly rp state (state.updateRequest rp (Request.retry run.msgid)) :=
        fun _ removed => .inl removed
      split at result_eq
      · rw [result_eq]
        exact ⟨unchanged', [], .inl (by simpa using updated)⟩
      · have retries_eq : ((state.updateRequest rp (Request.retry run.msgid)).request rp).retries =
            (state.request rp).retries + 1 := by
          simp [SessionState.updateRequest, Request.retry]
        have sent : Pending
            ((state.updateRequest rp (Request.retry run.msgid)).logged (.transmitted rp))
            (front ++ rp :: back) none := by
          refine updated.transmitted (updated.lt_fresh mem) (fun _ => ?_) ?_
          · rw [retries_eq]
            exact le_trans sent_le (le_of_eq (Nat.add_comm _ _))
          · exact le_trans (le_trans sent_le (le_of_eq (Nat.add_comm _ _))) room
        have unchanged'' : RemovesOnly rp state
            ((state.updateRequest rp (Request.retry run.msgid)).logged (.transmitted rp)) :=
          unchanged'.trans ((Extends.logged (by simp)).removesOnly rp)
        split at result_eq
        · split at result_eq
          · rw [result_eq]
            rcases sent.call (some rp) .sendFailed run.callback mem
              (fun other same => (Option.some.inj same).symm) (.inl rfl) with ⟨more, called⟩
            rw [List.append_assoc, List.cons_append] at called
            refine ⟨?_, more, .inr ⟨called.removed fun other same => (Option.some.inj same).symm,
              by simp⟩⟩
            exact unchanged''.trans
              (((extends_call _ rp .sendFailed run.callback).removesOnly rp).trans
              (removesOnly_removeRequest _ _ rp))
          · rw [result_eq]
            exact ⟨unchanged'', [], .inl (by simpa using sent)⟩
        · have restarted : Pending
              (((state.updateRequest rp (Request.retry run.msgid)).logged
                (.transmitted rp)).updateRequest rp (Request.restart run.now))
              (front ++ rp :: back) none :=
            sent.updateRequest (Request.restart run.now) (sent.sent_le rp mem)
              (sent.retries_le rp mem)
          have unchangedAfter : RemovesOnly rp state
              (((state.updateRequest rp (Request.retry run.msgid)).logged
                (.transmitted rp)).updateRequest rp (Request.restart run.now)) := unchanged''
          split at result_eq
          · rw [result_eq]
            rcases restarted.call none .resend run.callback mem
              (by simp) (.inr (.inl rfl)) with ⟨more, called⟩
            refine ⟨?_, more, .inl (by simpa using called)⟩
            exact unchangedAfter.trans ((extends_call _ rp .resend run.callback).removesOnly rp)
          · rw [result_eq]
            exact ⟨unchangedAfter, [], .inl (by simpa using restarted)⟩

end Sends

end NetSnmp
