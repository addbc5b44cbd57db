import Mathlib.Data.List.Basic
import Mathlib.Data.List.Nodup
import Mathlib.Order.Basic
import Mathlib.Tactic.Common

/-!
# The queues of the agent

`netsnmp_handle_request` and `netsnmp_check_outstanding_agent_requests`: requests that wait for
subagents are in the delegated list, and those that wait for a SET in the queue. What the handlers
do is a parameter.
-/

namespace NetSnmp

namespace RequestQueues

/-- What happens to a request: it is queued, its handlers are called, and it is answered. -/
inductive Event where
  | queued (asp : Nat)
  | handled (asp : Nat)
  | wrapped (asp : Nat)
  deriving DecidableEq, Repr

/-- Whether requests are delegated after the handlers of a session were called, and whether they
are called again when all those that were delegated are answered. -/
structure Handlers where
  delegates : List Event → Nat → Bool
  continues : List Event → Nat → Bool

/-- The lists of the agent; the sessions are numbered as they arrive. -/
structure AgentState where
  /-- `SNMP_MSG_SET`, for each session. -/
  sets : List Bool := []
  processingSet : Option Nat := none
  delegatedList : List Nat := []
  queuedList : List Nat := []
  /-- `netsnmp_check_for_delegated` -/
  pending : Nat → Bool := fun _ => false
  log : List Event := []
  asserted : Bool := true

namespace AgentState

def isSet (s : AgentState) (asp : Nat) : Bool := s.sets.getD asp false

def emit (s : AgentState) (event : Event) : AgentState := { s with log := s.log ++ [event] }

/-- `netsnmp_add_queued` -/
def addQueued (s : AgentState) (asp : Nat) : AgentState :=
  if asp ∈ s.queuedList then s
  else { s with queuedList := s.queuedList ++ [asp] }.emit (.queued asp)

/-- `netsnmp_wrap_up_request` -/
def wrapUpRequest (s : AgentState) (asp : Nat) : AgentState :=
  let processingSet := if s.processingSet = some asp then none else s.processingSet
  { s with processingSet }.emit (.wrapped asp)

def called (handlers : Handlers) (s : AgentState) (asp : Nat) : AgentState :=
  { s with pending := Function.update s.pending asp (handlers.delegates s.log asp) }.emit
    (.handled asp)

def callHandlers (handlers : Handlers) (s : AgentState) (asp : Nat) : AgentState :=
  let s := s.called handlers asp
  if s.pending asp then
    if asp ∈ s.delegatedList then s else { s with delegatedList := asp :: s.delegatedList }
  else s.wrapUpRequest asp

/-- `netsnmp_handle_request` -/
def handleRequest (handlers : Handlers) (s : AgentState) (asp : Nat) : AgentState :=
  if asp ∉ s.delegatedList ∧ s.processingSet ≠ some asp then
    if s.processingSet ≠ none then s.addQueued asp
    else if s.isSet asp then
      let s := { s with processingSet := some asp }
      if s.delegatedList ≠ [] then s.addQueued asp else s.callHandlers handlers asp
    else s.callHandlers handlers asp
  else s.callHandlers handlers asp

/-- `check_delayed_request` for a session without delegated requests. -/
def checkDelayedRequest (handlers : Handlers) (s : AgentState) (asp : Nat) : AgentState :=
  if handlers.continues s.log asp then s.callHandlers handlers asp else s.wrapUpRequest asp

/-- The session is unlinked: what is behind it is linked to the one in front of it, or is all of
the list if there is none. -/
def unlink (prevAsp : Option Nat) (asp : Nat) (list : List Nat) : List Nat :=
  match prevAsp with
  | none => (list.dropWhile (· ≠ asp)).tail
  | some prevAsp =>
      list.takeWhile (· ≠ prevAsp) ++ prevAsp :: (list.dropWhile (· ≠ asp)).tail

/-- The loop of `netsnmp_check_delegated_requests` from a session on; what is behind it in the list
does not change before the loop is there. -/
def checkDelegatedLoop (handlers : Handlers) :
    (prevAsp : Option Nat) → (asps : List Nat) → AgentState → AgentState
  | _, [], s => s
  | prevAsp, asp :: asps, s =>
      if s.pending asp then checkDelegatedLoop handlers (some asp) asps s
      else
        let s := { s with delegatedList := unlink prevAsp asp s.delegatedList }
        let oldHead := s.delegatedList.head?
        let s := s.checkDelayedRequest handlers asp
        let prevAsp :=
          if prevAsp = none ∧ s.delegatedList.head? ≠ oldHead then s.delegatedList.head?
          else prevAsp
        checkDelegatedLoop handlers prevAsp asps s

/-- `netsnmp_check_delegated_requests` -/
def checkDelegatedRequests (handlers : Handlers) (s : AgentState) : AgentState :=
  checkDelegatedLoop handlers none s.delegatedList s

/-- `netsnmp_assert` -/
def assert (s : AgentState) (holds : Bool) : AgentState :=
  { s with asserted := s.asserted && holds }

/-- The loop of `netsnmp_check_outstanding_agent_requests` over the queue, with a bound on the
number of passes. -/
def queuedLoop (handlers : Handlers) : (passes : Nat) → AgentState → AgentState
  | 0, s => s
  | passes + 1, s =>
      match s.queuedList with
      | [] => s
      | asp :: queuedList =>
          let s := s.assert (s.processingSet = none ∨ s.processingSet = some asp)
          if s.isSet asp ∧ s.delegatedList ≠ [] then
            { s.assert (s.processingSet = none) with processingSet := some asp }
          else
            let s := { s with queuedList }.handleRequest handlers asp
            if s.processingSet ≠ none then s else queuedLoop handlers passes s

/-- `netsnmp_check_outstanding_agent_requests` -/
def checkOutstandingAgentRequests (handlers : Handlers) (s : AgentState) : AgentState :=
  let s := s.checkDelegatedRequests handlers
  if s.processingSet ≠ none ∧ s.delegatedList ≠ [] then s
  else s.queuedLoop handlers s.queuedList.length

end AgentState

/-- What the agent does next: a request arrives, the delegated requests of a session are answered,
the session with some subagent is closed, so that those requests of some sessions fail that it was
to answer, or the queues are checked. -/
inductive Step where
  | arrive (set : Bool)
  | complete (asp : Nat)
  | closeSession (asps : List Nat)
  | check
  deriving DecidableEq, Repr

open AgentState

/-- `netsnmp_remove_delegated_requests_for_session` -/
def removeDelegatedRequests (handlers : Handlers) (asps : List Nat) (s : AgentState) :
    AgentState :=
  let s := { s with pending := fun asp => s.pending asp && decide (asp ∉ asps) }
  if s.delegatedList.any fun asp => decide (asp ∈ asps) then s.checkDelegatedRequests handlers
  else s

def step (handlers : Handlers) (s : AgentState) : Step → AgentState
  | .arrive set => { s with sets := s.sets ++ [set] }.handleRequest handlers s.sets.length
  | .complete asp => { s with pending := Function.update s.pending asp false }
  | .closeSession asps => removeDelegatedRequests handlers asps s
  | .check => s.checkOutstandingAgentRequests handlers

def run (handlers : Handlers) (steps : List Step) : AgentState :=
  steps.foldl (step handlers) {}

/-- No request arrives between the end of a session with a subagent and the next check. -/
def ChecksBehindClose : (closed : Bool) → List Step → Prop
  | _, [] => True
  | closed, .arrive _ :: steps => closed = false ∧ ChecksBehindClose closed steps
  | closed, .complete _ :: steps => ChecksBehindClose closed steps
  | _, .closeSession _ :: steps => ChecksBehindClose true steps
  | _, .check :: steps => ChecksBehindClose false steps

/-- The handlers of a SET are only called while no other request is open, and those of other
requests only while no SET is. Each request is answered once, and is not handled behind that. -/
inductive Serial (isSet : Nat → Bool) : List Event → Prop
  | nil : Serial isSet []
  | queued {log : List Event} {asp : Nat} (before : Serial isSet log)
      (once : .queued asp ∉ log) (fresh : .handled asp ∉ log) :
      Serial isSet (log ++ [.queued asp])
  | handled {log : List Event} {asp : Nat} (before : Serial isSet log)
      (unanswered : .wrapped asp ∉ log)
      (alone : ∀ other, other ≠ asp → isSet other = true ∨ isSet asp = true →
        .handled other ∈ log → .wrapped other ∈ log) :
      Serial isSet (log ++ [.handled asp])
  | wrapped {log : List Event} {asp : Nat} (before : Serial isSet log)
      (unanswered : .wrapped asp ∉ log) (handled : .handled asp ∈ log) :
      Serial isSet (log ++ [.wrapped asp])

/-- The sessions whose handlers may be called: the one that is at hand, and the delegated ones. -/
def active (hand : Option Nat) (s : AgentState) : List Nat := hand.toList ++ s.delegatedList

structure Accounted (hand : Option Nat) (s : AgentState) : Prop where
  nodup : (active hand s).Nodup
  sorted : s.queuedList.Pairwise (· < ·)
  apart : ∀ asp ∈ s.queuedList, asp ∉ active hand s
  known : ∀ asp, asp ∈ active hand s ∨ asp ∈ s.queuedList ∨ .handled asp ∈ s.log ∨
    .queued asp ∈ s.log ∨ .wrapped asp ∈ s.log → asp < s.sets.length
  somewhere : ∀ asp < s.sets.length,
    asp ∈ active hand s ∨ asp ∈ s.queuedList ∨ .wrapped asp ∈ s.log
  unanswered : ∀ asp, asp ∈ active hand s ∨ asp ∈ s.queuedList → .wrapped asp ∉ s.log
  waiting : ∀ asp ∈ s.queuedList, .queued asp ∈ s.log ∧ .handled asp ∉ s.log
  started : ∀ asp, .handled asp ∈ s.log → asp ∈ active hand s ∨ .wrapped asp ∈ s.log
  delegated : ∀ asp ∈ s.delegatedList, .handled asp ∈ s.log
  inOrder : ∀ asp, .queued asp ∈ s.log → asp ∉ s.queuedList → ∀ other ∈ s.queuedList, asp < other
  serial : Serial s.isSet s.log
  asserted : s.asserted = true

/-- A SET is the only active session, and where there is one that is processed it is active or the
first one of the queue. -/
structure Exclusive (sessions : List Nat) (s : AgentState) : Prop where
  alone : ∀ asp ∈ sessions, s.isSet asp = true → s.processingSet = some asp ∧ sessions = [asp]
  processing : ∀ asp, s.processingSet = some asp →
    s.isSet asp = true ∧ (asp ∈ sessions ∨ s.queuedList.head? = some asp)

structure Inv (s : AgentState) : Prop where
  accounted : Accounted none s
  exclusive : Exclusive s.delegatedList s

def Drained (s : AgentState) : Prop := s.processingSet ≠ none ∨ s.queuedList = []

variable {handlers : Handlers} {s : AgentState} {asp : Nat}

@[simp]
theorem mem_emit_log (s : AgentState) (event event' : Event) :
    event' ∈ (s.emit event).log ↔ event' ∈ s.log ∨ event' = event := by
  simp [emit]

theorem Serial.congr {isSet isSet' : Nat → Bool} {log : List Event} (serial : Serial isSet log)
    (same : ∀ asp, .handled asp ∈ log → isSet asp = isSet' asp) : Serial isSet' log := by
  induction serial with
  | nil => exact .nil
  | queued _ once fresh ih =>
      exact .queued (ih fun asp mem => same asp (List.mem_append_left _ mem)) once fresh
  | @handled log asp _ unanswered alone ih =>
      refine .handled (ih fun asp mem => same asp (List.mem_append_left _ mem)) unanswered ?_
      intro other different sets handledOther
      rw [← same other (List.mem_append_left _ handledOther), ← same asp (by simp)] at sets
      exact alone other different sets handledOther
  | wrapped _ unanswered handled ih =>
      exact .wrapped (ih fun asp mem => same asp (List.mem_append_left _ mem)) unanswered handled

theorem Serial.handled_of_wrapped {isSet : Nat → Bool} {log : List Event}
    (serial : Serial isSet log) (wrapped : .wrapped asp ∈ log) : .handled asp ∈ log := by
  induction serial with
  | nil => exact absurd wrapped List.not_mem_nil
  | queued _ _ _ ih =>
      apply List.mem_append_left
      exact ih (by simpa using wrapped)
  | handled _ _ _ ih =>
      apply List.mem_append_left
      exact ih (by simpa using wrapped)
  | @wrapped log other _ _ handled ih =>
      apply List.mem_append_left
      rcases List.mem_append.mp wrapped with before | last
      · exact ih before
      · cases List.mem_singleton.mp last
        exact handled

theorem addQueued_eq (fresh : asp ∉ s.queuedList) : s.addQueued asp =
    { s with queuedList := s.queuedList ++ [asp], log := s.log ++ [.queued asp] } :=
  if_neg fresh

theorem mem_active_hand (asp : Nat) (s : AgentState) : asp ∈ active (some asp) s :=
  List.mem_append_left _ (List.mem_singleton_self asp)

theorem mem_active_some {hand other : Nat} :
    other ∈ active (some hand) s ↔ other = hand ∨ other ∈ s.delegatedList := by
  simp [active]

theorem Accounted.congr {hand : Option Nat} {s' : AgentState} (accounted : Accounted hand s)
    (same : (s'.sets, s'.delegatedList, s'.queuedList, s'.log, s'.asserted) =
      (s.sets, s.delegatedList, s.queuedList, s.log, s.asserted)) : Accounted hand s' := by
  cases s
  cases s'
  simp only [Prod.mk.injEq] at same
  rcases same with ⟨rfl, rfl, rfl, rfl, rfl⟩
  exact ⟨accounted.nodup, accounted.sorted, accounted.apart, accounted.known,
    accounted.somewhere, accounted.unanswered, accounted.waiting, accounted.started,
    accounted.delegated, accounted.inOrder, accounted.serial, accounted.asserted⟩

theorem Accounted.notDelegated (accounted : Accounted (some asp) s) : asp ∉ s.delegatedList :=
  (List.nodup_cons.mp accounted.nodup).1

theorem Accounted.handled (accounted : Accounted (some asp) s)
    (exclusive : Exclusive (active (some asp) s) s) :
    Accounted (some asp) (s.emit (.handled asp)) := by
  have here : asp ∈ active (some asp) s := by simp [active]
  constructor
  · exact accounted.nodup
  · exact accounted.sorted
  · exact accounted.apart
  · intro other mem
    simp only [mem_emit_log, reduceCtorEq, or_false, Event.handled.injEq] at mem
    rcases mem with isActive | queued | (handled | rfl) | queued | wrapped
    · exact accounted.known other (.inl isActive)
    · exact accounted.known other (.inr (.inl queued))
    · exact accounted.known other (.inr (.inr (.inl handled)))
    · exact accounted.known other (.inl here)
    · exact accounted.known other (.inr (.inr (.inr (.inl queued))))
    · exact accounted.known other (.inr (.inr (.inr (.inr wrapped))))
  · intro other small
    simp only [mem_emit_log, reduceCtorEq, or_false]
    exact accounted.somewhere other small
  · intro other open_
    simp only [mem_emit_log, reduceCtorEq, or_false]
    exact accounted.unanswered other open_
  · intro other queued
    have waiting := accounted.waiting other queued
    have different : other ≠ asp := by
      rintro rfl
      exact accounted.apart other queued here
    simpa [different] using waiting
  · intro other handled
    simp only [mem_emit_log, reduceCtorEq, or_false, Event.handled.injEq] at handled ⊢
    rcases handled with handled | rfl
    · exact accounted.started other handled
    · exact .inl here
  · intro other delegated
    exact (mem_emit_log _ _ _).mpr (.inl (accounted.delegated other delegated))
  · intro other queued
    simp only [mem_emit_log, reduceCtorEq, or_false] at queued
    exact accounted.inOrder other queued
  · refine .handled accounted.serial (accounted.unanswered asp (.inl here)) ?_
    intro other different sets handledOther
    rcases accounted.started other handledOther with isActive | wrapped
    · rcases sets with otherSet | aspSet
      · have only := (exclusive.alone other isActive otherSet).2
        rw [only] at here
        exact absurd (List.mem_singleton.mp here).symm different
      · have only := (exclusive.alone asp here aspSet).2
        rw [only] at isActive
        exact absurd (List.mem_singleton.mp isActive) different
    · exact wrapped
  · exact accounted.asserted

theorem Accounted.delegate (accounted : Accounted (some asp) s) (handled : .handled asp ∈ s.log) :
    Accounted none { s with delegatedList := asp :: s.delegatedList } :=
  { nodup := accounted.nodup
    sorted := accounted.sorted
    apart := accounted.apart
    known := accounted.known
    somewhere := accounted.somewhere
    unanswered := accounted.unanswered
    waiting := accounted.waiting
    started := accounted.started
    delegated := List.forall_mem_cons.mpr ⟨handled, accounted.delegated⟩
    inOrder := accounted.inOrder
    serial := accounted.serial
    asserted := accounted.asserted }

theorem Accounted.wrap (accounted : Accounted (some asp) s) (handled : .handled asp ∈ s.log) :
    Accounted none (s.wrapUpRequest asp) := by
  have here := mem_active_hand asp s
  have nodup := List.nodup_cons.mp accounted.nodup
  have active_none (other : Nat) :
      other ∈ active none (s.wrapUpRequest asp) ↔ other ∈ s.delegatedList := by
    simp [active, wrapUpRequest, emit]
  have log_iff (event : Event) :
      event ∈ (s.wrapUpRequest asp).log ↔ event ∈ s.log ∨ event = .wrapped asp := by
    simp [wrapUpRequest, emit]
  constructor
  · exact nodup.2
  · exact accounted.sorted
  · intro other queued mem
    exact accounted.apart other queued (mem_active_some.mpr (.inr ((active_none other).mp mem)))
  · intro other mem
    simp only [active_none, log_iff, reduceCtorEq, or_false, Event.wrapped.injEq] at mem
    rcases mem with delegated | queued | handled | queued | wrapped | rfl
    · exact accounted.known other (.inl (mem_active_some.mpr (.inr delegated)))
    · exact accounted.known other (.inr (.inl queued))
    · exact accounted.known other (.inr (.inr (.inl handled)))
    · exact accounted.known other (.inr (.inr (.inr (.inl queued))))
    · exact accounted.known other (.inr (.inr (.inr (.inr wrapped))))
    · exact accounted.known other (.inl here)
  · intro other small
    simp only [active_none, log_iff, Event.wrapped.injEq]
    rcases accounted.somewhere other small with isActive | queued | wrapped
    · rcases mem_active_some.mp isActive with rfl | delegated
      · exact .inr (.inr (.inr rfl))
      · exact .inl delegated
    · exact .inr (.inl queued)
    · exact .inr (.inr (.inl wrapped))
  · intro other open_
    simp only [active_none] at open_
    simp only [log_iff, Event.wrapped.injEq, not_or]
    rcases open_ with delegated | queued
    · refine ⟨accounted.unanswered other (.inl (mem_active_some.mpr (.inr delegated))), ?_⟩
      rintro rfl
      exact nodup.1 delegated
    · refine ⟨accounted.unanswered other (.inr queued), ?_⟩
      rintro rfl
      exact accounted.apart other queued here
  · intro other queued
    simpa [log_iff] using accounted.waiting other queued
  · intro other handledOther
    simp only [log_iff, reduceCtorEq, or_false] at handledOther
    simp only [active_none, log_iff, Event.wrapped.injEq]
    rcases accounted.started other handledOther with isActive | wrapped
    · rcases mem_active_some.mp isActive with rfl | delegated
      · exact .inr (.inr rfl)
      · exact .inl delegated
    · exact .inr (.inl wrapped)
  · intro other delegated
    exact (log_iff _).mpr (.inl (accounted.delegated other delegated))
  · intro other queued
    simp only [log_iff, reduceCtorEq, or_false] at queued
    exact accounted.inOrder other queued
  · exact .wrapped accounted.serial (accounted.unanswered asp (.inl here)) handled
  · exact accounted.asserted

theorem Exclusive.wrap (exclusive : Exclusive (asp :: s.delegatedList) s)
    (different : asp ∉ s.delegatedList) :
    Exclusive s.delegatedList (s.wrapUpRequest asp) := by
  have isSet_eq (other : Nat) : (s.wrapUpRequest asp).isSet other = s.isSet other := rfl
  constructor
  · intro other delegated otherSet
    have only := (exclusive.alone other (List.mem_cons_of_mem _ delegated) otherSet).2
    rcases List.cons.inj only with ⟨rfl, -⟩
    exact absurd delegated different
  · intro other processing
    have kept : (if s.processingSet = some asp then none else s.processingSet) = some other :=
      processing
    split at kept
    · nomatch kept
    · rename_i notAsp
      rcases exclusive.processing other kept with ⟨otherSet, isActive | first⟩
      · rcases List.mem_cons.mp isActive with rfl | delegated
        · exact absurd kept notAsp
        · exact ⟨otherSet, .inl delegated⟩
      · exact ⟨otherSet, .inr first⟩

theorem callHandlers_inv (handlers : Handlers) (accounted : Accounted (some asp) s)
    (exclusive : Exclusive (asp :: s.delegatedList) s) :
    Inv (s.callHandlers handlers asp) ∧
      (s.callHandlers handlers asp).queuedList = s.queuedList ∧
      ((s.callHandlers handlers asp).delegatedList = asp :: s.delegatedList ∨
        (s.callHandlers handlers asp).delegatedList = s.delegatedList) ∧
      ((s.callHandlers handlers asp).processingSet = s.processingSet ∨
        (s.callHandlers handlers asp).processingSet = none) := by
  have different := accounted.notDelegated
  have handled : Accounted (some asp) (s.called handlers asp) :=
    (accounted.handled exclusive).congr rfl
  have noted : .handled asp ∈ (s.called handlers asp).log := by simp [called]
  have exclusive' : Exclusive (asp :: (s.called handlers asp).delegatedList)
    (s.called handlers asp) := ⟨exclusive.alone, exclusive.processing⟩
  rw [callHandlers]
  split
  · rw [if_neg (show asp ∉ (s.called handlers asp).delegatedList from different)]
    exact ⟨⟨handled.delegate noted, exclusive'.alone, exclusive'.processing⟩, rfl, .inl rfl,
      .inl rfl⟩
  · refine ⟨⟨handled.wrap noted, exclusive'.wrap different⟩, rfl, .inr rfl, ?_⟩
    simp only [wrapUpRequest, emit]
    split
    · exact .inr rfl
    · exact .inl rfl

theorem unlink_eq {front rest : List Nat} (nodup : (front ++ asp :: rest).Nodup) :
    unlink front.getLast? asp (front ++ asp :: rest) = front ++ rest := by
  rw [List.nodup_append] at nodup
  rcases nodup with ⟨frontNodup, -, apart⟩
  have notInFront : ∀ other ∈ front, other ≠ asp := fun other mem =>
    apart other mem asp List.mem_cons_self
  have behind : (front ++ asp :: rest).dropWhile (· ≠ asp) = asp :: rest := by
    rw [List.dropWhile_append_of_pos (by simpa using notInFront)]
    simp
  rcases List.eq_nil_or_concat front with rfl | ⟨others, prevAsp, rfl⟩
  · simp [unlink]
  · rw [List.concat_eq_append] at *
    have last : (others ++ [prevAsp]).getLast? = some prevAsp := by simp
    rw [List.nodup_append] at frontNodup
    have notPrev : ∀ other ∈ others, other ≠ prevAsp := fun other mem =>
      frontNodup.2.2 other mem prevAsp (List.mem_singleton.mpr rfl)
    have upTo : (others ++ [prevAsp] ++ asp :: rest).takeWhile (· ≠ prevAsp) = others := by
      rw [List.append_assoc, List.takeWhile_append_of_pos (by simpa using notPrev)]
      simp
    rw [last, unlink]
    simp only [upTo, behind]
    simp

theorem Inv.take {front rest : List Nat} (inv : Inv s)
    (list_eq : s.delegatedList = front ++ asp :: rest) :
    Accounted (some asp) { s with delegatedList := front ++ rest } ∧
      Exclusive (asp :: (front ++ rest)) { s with delegatedList := front ++ rest } := by
  have perm : (asp :: (front ++ rest)).Perm s.delegatedList := by
    rw [list_eq]
    exact List.perm_middle.symm
  have active_iff (other : Nat) :
      other ∈ active (some asp) { s with delegatedList := front ++ rest } ↔
        other ∈ active none s := by
    simpa [active] using perm.mem_iff (a := other)
  rcases inv with ⟨accounted, exclusive⟩
  refine ⟨?_, ?_⟩
  · constructor
    · have nodup : s.delegatedList.Nodup := by simpa [active] using accounted.nodup
      exact perm.nodup_iff.mpr nodup
    · exact accounted.sorted
    · intro other queued
      rw [active_iff]
      exact accounted.apart other queued
    · intro other
      rw [active_iff]
      exact accounted.known other
    · intro other
      rw [active_iff]
      exact accounted.somewhere other
    · intro other
      rw [active_iff]
      exact accounted.unanswered other
    · exact accounted.waiting
    · intro other
      rw [active_iff]
      exact accounted.started other
    · intro other mem
      apply accounted.delegated other
      exact perm.subset (List.mem_cons_of_mem _ mem)
    · exact accounted.inOrder
    · exact accounted.serial
    · exact accounted.asserted
  · constructor
    · intro other mem otherSet
      rcases exclusive.alone other (perm.mem_iff.mp mem) otherSet with ⟨processing, only⟩
      rw [only] at perm
      exact ⟨processing, List.perm_singleton.mp perm⟩
    · intro other processing
      rcases exclusive.processing other processing with ⟨otherSet, isActive⟩
      exact ⟨otherSet, isActive.imp_left perm.mem_iff.mpr⟩

theorem checkDelayedRequest_inv (handlers : Handlers) (accounted : Accounted (some asp) s)
    (exclusive : Exclusive (asp :: s.delegatedList) s) (handled : .handled asp ∈ s.log) :
    Inv (s.checkDelayedRequest handlers asp) ∧
      (s.checkDelayedRequest handlers asp).queuedList = s.queuedList ∧
      ((s.checkDelayedRequest handlers asp).delegatedList = asp :: s.delegatedList ∨
        (s.checkDelayedRequest handlers asp).delegatedList = s.delegatedList) := by
  have different := accounted.notDelegated
  rw [checkDelayedRequest]
  split
  · have called := callHandlers_inv handlers accounted exclusive
    exact ⟨called.1, called.2.1, called.2.2.1⟩
  · exact ⟨⟨accounted.wrap handled, exclusive.wrap different⟩, rfl, .inr rfl⟩

theorem checkDelegatedLoop_inv (handlers : Handlers) (front asps : List Nat) (inv : Inv s)
    (list_eq : s.delegatedList = front ++ asps) :
    Inv (checkDelegatedLoop handlers front.getLast? asps s) ∧
      (checkDelegatedLoop handlers front.getLast? asps s).queuedList = s.queuedList := by
  induction asps generalizing front s with
  | nil => exact ⟨inv, rfl⟩
  | cons asp asps ih =>
      rw [checkDelegatedLoop]
      by_cases pending : s.pending asp = true
      · rw [if_pos pending]
        have step := ih (front ++ [asp]) inv (by rw [list_eq]; simp)
        rwa [List.getLast?_concat] at step
      · rw [if_neg pending]
        have nodup : (front ++ asp :: asps).Nodup := by
          rw [← list_eq]
          simpa [active] using inv.accounted.nodup
        have handled : .handled asp ∈ s.log :=
          inv.accounted.delegated asp (by rw [list_eq]; simp)
        rcases inv.take list_eq with ⟨accounted, exclusive⟩
        have delayed := checkDelayedRequest_inv handlers accounted exclusive handled
        simp only [list_eq, unlink_eq nodup]
        rcases delayed with ⟨inv', queue_eq, delegated_eq⟩
        have unlinked : asp ∉ front ++ asps := (List.nodup_middle.mp nodup |> List.nodup_cons.mp).1
        rcases delegated_eq with again | gone
        · rw [again]
          by_cases first : front = []
          · subst first
            have changed : (asp :: ([] ++ asps)).head? ≠ ([] ++ asps).head? := by
              intro same
              apply unlinked
              exact List.mem_of_head? same.symm
            rw [if_pos ⟨rfl, changed⟩]
            have step := ih [asp] inv' again
            exact ⟨step.1, step.2.trans queue_eq⟩
          · have notFirst : front.getLast? ≠ none := by simpa using first
            rw [if_neg (fun both => notFirst both.1)]
            have last : (asp :: front).getLast? = front.getLast? := by
              rcases List.exists_cons_of_ne_nil first with ⟨other, others, rfl⟩
              rfl
            have step := ih (asp :: front) inv' again
            rw [last] at step
            exact ⟨step.1, step.2.trans queue_eq⟩
        · rw [gone]
          rw [if_neg (fun both => both.2 rfl)]
          have step := ih front inv' gone
          exact ⟨step.1, step.2.trans queue_eq⟩

theorem checkDelegatedRequests_inv (handlers : Handlers) (inv : Inv s) :
    Inv (s.checkDelegatedRequests handlers) ∧
      (s.checkDelegatedRequests handlers).queuedList = s.queuedList :=
  checkDelegatedLoop_inv handlers [] s.delegatedList inv rfl

theorem Accounted.queue (accounted : Accounted (some asp) s)
    (latest : ∀ other, .queued other ∈ s.log → other < asp) (fresh : .handled asp ∉ s.log) :
    Accounted none (s.addQueued asp) := by
  have here := mem_active_hand asp s
  have nodup := List.nodup_cons.mp accounted.nodup
  have last (other : Nat) (mem : other ∈ s.queuedList) : other < asp :=
    latest other (accounted.waiting other mem).1
  have active_none (t : AgentState) (other : Nat) :
      other ∈ active none t ↔ other ∈ t.delegatedList := by
    simp [active]
  rw [addQueued_eq fun mem => Nat.lt_irrefl _ (last asp mem)]
  constructor
  · exact nodup.2
  · rw [List.pairwise_append]
    refine ⟨accounted.sorted, List.pairwise_singleton _ _, fun other mem new newMem => ?_⟩
    rw [List.mem_singleton.mp newMem]
    exact last other mem
  · intro other queued mem
    rw [active_none] at mem
    rcases List.mem_append.mp queued with queued | new
    · exact accounted.apart other queued (mem_active_some.mpr (.inr mem))
    · rw [List.mem_singleton.mp new] at mem
      exact nodup.1 mem
  · intro other mem
    simp only [active_none, List.mem_append, List.mem_singleton, reduceCtorEq, or_false,
      Event.queued.injEq] at mem
    rcases mem with delegated | (queued | rfl) | handled | (queued | rfl) | wrapped
    · exact accounted.known other (.inl (mem_active_some.mpr (.inr delegated)))
    · exact accounted.known other (.inr (.inl queued))
    · exact accounted.known other (.inl here)
    · exact accounted.known other (.inr (.inr (.inl handled)))
    · exact accounted.known other (.inr (.inr (.inr (.inl queued))))
    · exact accounted.known other (.inl here)
    · exact accounted.known other (.inr (.inr (.inr (.inr wrapped))))
  · intro other small
    simp only [active_none, List.mem_append, List.mem_singleton, reduceCtorEq, or_false]
    rcases accounted.somewhere other small with isActive | queued | wrapped
    · rcases mem_active_some.mp isActive with rfl | delegated
      · exact .inr (.inl (.inr rfl))
      · exact .inl delegated
    · exact .inr (.inl (.inl queued))
    · exact .inr (.inr wrapped)
  · intro other open_
    simp only [active_none, List.mem_append, List.mem_singleton, reduceCtorEq,
      or_false] at open_ ⊢
    rcases open_ with delegated | queued | rfl
    · exact accounted.unanswered other (.inl (mem_active_some.mpr (.inr delegated)))
    · exact accounted.unanswered other (.inr queued)
    · exact accounted.unanswered other (.inl here)
  · intro other queued
    simp only [List.mem_append, List.mem_singleton, reduceCtorEq, or_false,
      Event.queued.injEq] at queued ⊢
    rcases queued with queued | rfl
    · have waiting := accounted.waiting other queued
      exact ⟨.inl waiting.1, waiting.2⟩
    · exact ⟨.inr rfl, fresh⟩
  · intro other handled
    simp only [active_none, List.mem_append, List.mem_singleton, reduceCtorEq,
      or_false] at handled ⊢
    rcases accounted.started other handled with isActive | wrapped
    · rcases mem_active_some.mp isActive with rfl | delegated
      · exact absurd handled fresh
      · exact .inl delegated
    · exact .inr wrapped
  · intro other delegated
    exact List.mem_append_left _ (accounted.delegated other delegated)
  · intro other queued notIn new newMem
    simp only [List.mem_append, List.mem_singleton, Event.queued.injEq,
      not_or] at queued notIn newMem
    rcases queued with queued | rfl
    · rcases newMem with newMem | rfl
      · exact accounted.inOrder other queued notIn.1 new newMem
      · exact latest other queued
    · exact absurd rfl notIn.2
  · exact .queued accounted.serial (fun mem => Nat.lt_irrefl _ (latest asp mem)) fresh
  · exact accounted.asserted

theorem Inv.pop {rest : List Nat} (inv : Inv s) (queue_eq : s.queuedList = asp :: rest) :
    Accounted (some asp) { s with queuedList := rest } := by
  rcases inv with ⟨accounted, -⟩
  have first : asp ∈ s.queuedList := by
    rw [queue_eq]
    exact List.mem_cons_self
  have sorted := accounted.sorted
  rw [queue_eq, List.pairwise_cons] at sorted
  have inQueue (other : Nat) (mem : other ∈ rest) : other ∈ s.queuedList := by
    rw [queue_eq]
    exact List.mem_cons_of_mem _ mem
  have active_iff (other : Nat) :
      other ∈ active (some asp) { s with queuedList := rest } ↔
        other = asp ∨ other ∈ active none s := by
    simp [active]
  have queue_iff (other : Nat) : other ∈ s.queuedList ↔ other = asp ∨ other ∈ rest := by
    rw [queue_eq, List.mem_cons]
  constructor
  · have apart := accounted.apart asp first
    simpa [active] using And.intro apart accounted.nodup
  · exact sorted.2
  · intro other queued mem
    rcases (active_iff other).mp mem with rfl | isActive
    · exact Nat.lt_irrefl _ (sorted.1 other queued)
    · exact accounted.apart other (inQueue other queued) isActive
  · intro other mem
    rw [active_iff] at mem
    rcases mem with (rfl | isActive) | queued | event
    · exact accounted.known other (.inr (.inl first))
    · exact accounted.known other (.inl isActive)
    · exact accounted.known other (.inr (.inl (inQueue other queued)))
    · exact accounted.known other (.inr (.inr event))
  · intro other small
    rw [active_iff]
    rcases accounted.somewhere other small with isActive | queued | wrapped
    · exact .inl (.inr isActive)
    · rcases (queue_iff other).mp queued with rfl | queued
      · exact .inl (.inl rfl)
      · exact .inr (.inl queued)
    · exact .inr (.inr wrapped)
  · intro other open_
    rw [active_iff] at open_
    rcases open_ with (rfl | isActive) | queued
    · exact accounted.unanswered other (.inr first)
    · exact accounted.unanswered other (.inl isActive)
    · exact accounted.unanswered other (.inr (inQueue other queued))
  · intro other queued
    exact accounted.waiting other (inQueue other queued)
  · intro other handled
    rw [active_iff]
    exact (accounted.started other handled).imp_left .inr
  · exact accounted.delegated
  · intro other queued notIn new newMem
    by_cases same : other = asp
    · rw [same]
      exact sorted.1 new newMem
    · refine accounted.inOrder other queued ?_ new (inQueue new newMem)
      rw [queue_iff, not_or]
      exact ⟨same, notIn⟩
  · exact accounted.serial
  · exact accounted.asserted

theorem handleRequest_idle (handlers : Handlers) (accounted : Accounted (some asp) s)
    (exclusive : Exclusive s.delegatedList s) (idle : s.processingSet = none)
    (alone : s.isSet asp = true → s.delegatedList = []) :
    Inv (s.handleRequest handlers asp) ∧
      (s.handleRequest handlers asp).queuedList = s.queuedList ∧
      ((s.handleRequest handlers asp).processingSet ≠ none →
        (s.handleRequest handlers asp).delegatedList ≠ []) := by
  have here : asp ∈ active (some asp) s := by simp [active]
  have nodup := accounted.notDelegated
  have busy (t : AgentState) (inv : Inv t) (queue_eq : t.queuedList = s.queuedList)
      (processing : t.processingSet = some asp ∨ t.processingSet = none) :
      t.processingSet ≠ none → t.delegatedList ≠ [] := by
    intro set
    rcases processing with processing | processing
    · rcases (inv.exclusive.processing asp processing).2 with delegated | first
      · exact List.ne_nil_of_mem delegated
      · rw [queue_eq] at first
        exact absurd here (accounted.apart asp (List.mem_of_head? first))
    · exact absurd processing set
  have noSet (other : Nat) (mem : other ∈ s.delegatedList) : s.isSet other ≠ true := by
    intro otherSet
    have processing := (exclusive.alone other mem otherSet).1
    rw [idle] at processing
    nomatch processing
  have condition : asp ∉ s.delegatedList ∧ s.processingSet ≠ some asp := ⟨nodup, by simp [idle]⟩
  rw [handleRequest, if_pos condition, if_neg (by simp [idle])]
  by_cases set : s.isSet asp = true
  · have empty := alone set
    rw [if_pos set, if_neg (by simpa using empty)]
    have held : Accounted (some asp) { s with processingSet := some asp } := accounted.congr rfl
    have only : Exclusive (asp :: s.delegatedList) { s with processingSet := some asp } := by
      rw [empty]
      constructor
      · intro other mem _
        rw [List.mem_singleton.mp mem]
        exact ⟨rfl, rfl⟩
      · intro other processing
        cases processing
        exact ⟨set, .inl (List.mem_singleton.mpr rfl)⟩
    rcases callHandlers_inv handlers held only with ⟨inv, queue_eq, -, processing⟩
    exact ⟨inv, queue_eq, busy _ inv queue_eq processing⟩
  · rw [if_neg set]
    have only : Exclusive (asp :: s.delegatedList) s := by
      constructor
      · intro other mem otherSet
        rcases List.mem_cons.mp mem with rfl | delegated
        · exact absurd otherSet set
        · exact absurd otherSet (noSet other delegated)
      · intro other processing
        rw [idle] at processing
        nomatch processing
    rcases callHandlers_inv handlers accounted only with ⟨inv, queue_eq, -, processing⟩
    rw [idle, or_self] at processing
    exact ⟨inv, queue_eq, busy _ inv queue_eq (.inr processing)⟩

theorem arrive_inv (handlers : Handlers) (set : Bool) (inv : Inv s) (drained : Drained s) :
    Inv (step handlers s (.arrive set)) ∧ Drained (step handlers s (.arrive set)) := by
  generalize state_eq : ({ s with sets := s.sets ++ [set] } : AgentState) = t
  have isSet_eq (other : Nat) (small : other < s.sets.length) : s.isSet other = t.isSet other := by
    rw [← state_eq]
    simp [isSet, List.getElem?_append_left small]
  have lists : t.delegatedList = s.delegatedList ∧ t.queuedList = s.queuedList ∧
      t.processingSet = s.processingSet ∧ t.log = s.log ∧ t.asserted = s.asserted ∧
      t.sets.length = s.sets.length + 1 := by
    rw [← state_eq]
    simp
  rcases lists with ⟨delegated_eq, queued_eq, processing_eq, log_eq, asserted_eq, length_eq⟩
  rcases inv with ⟨accounted, exclusive⟩
  have known (other : Nat) := accounted.known other
  simp only [active, Option.toList_none, List.nil_append] at known
  have here : s.sets.length ∉ s.delegatedList := fun mem =>
    absurd (known _ (.inl mem)) (Nat.lt_irrefl _)
  have held : Accounted (some s.sets.length) t := by
    constructor
    · simpa [active, delegated_eq, here] using accounted.nodup
    · rw [queued_eq]
      exact accounted.sorted
    · intro other queued mem
      rw [queued_eq] at queued
      have small := known other (.inr (.inl queued))
      simp only [active, Option.toList_some, List.singleton_append, List.mem_cons,
        delegated_eq] at mem
      rcases mem with rfl | delegated
      · exact Nat.lt_irrefl _ small
      · exact accounted.apart other queued (by simpa [active] using delegated)
    · intro other mem
      simp only [active, Option.toList_some, List.singleton_append, List.mem_cons, delegated_eq,
        queued_eq, log_eq, or_assoc] at mem
      rw [length_eq]
      rcases mem with rfl | before
      · exact Nat.lt_succ_self _
      · exact Nat.lt_succ_of_lt (known other before)
    · intro other small
      rw [length_eq] at small
      simp only [active, Option.toList_some, List.singleton_append, List.mem_cons, delegated_eq,
        queued_eq, log_eq, or_assoc]
      rcases Nat.lt_succ_iff_lt_or_eq.mp small with before | rfl
      · right
        simpa [active] using accounted.somewhere other before
      · exact .inl rfl
    · intro other open_ wrapped
      rw [log_eq] at wrapped
      have small := known other (.inr (.inr (.inr (.inr wrapped))))
      simp only [active, Option.toList_some, List.singleton_append, List.mem_cons, delegated_eq,
        queued_eq, or_assoc] at open_
      rcases open_ with rfl | before
      · exact Nat.lt_irrefl _ small
      · exact accounted.unanswered other (by simpa [active] using before) wrapped
    · rw [queued_eq, log_eq]
      exact accounted.waiting
    · intro other handled
      rw [log_eq] at handled ⊢
      simp only [active, Option.toList_some, List.singleton_append, List.mem_cons, delegated_eq,
        or_assoc]
      right
      simpa [active] using accounted.started other handled
    · rw [delegated_eq, log_eq]
      exact accounted.delegated
    · rw [queued_eq, log_eq]
      exact accounted.inOrder
    · rw [log_eq]
      exact accounted.serial.congr fun other handled =>
        isSet_eq other (known other (.inr (.inr (.inl handled))))
    · rw [asserted_eq]
      exact accounted.asserted
  have sameExclusive : Exclusive t.delegatedList t := by
    rw [delegated_eq]
    constructor
    · intro other mem otherSet
      rw [← isSet_eq other (known other (.inl mem))] at otherSet
      rw [processing_eq]
      exact exclusive.alone other mem otherSet
    · intro other processing
      rw [processing_eq] at processing
      rcases exclusive.processing other processing with ⟨otherSet, place⟩
      have small : other < s.sets.length := by
        rcases place with delegated | first
        · exact known other (.inl delegated)
        · exact known other (.inr (.inl (List.mem_of_head? first)))
      rw [← isSet_eq other small, queued_eq]
      exact ⟨otherSet, place⟩
  have drained' : Drained t := by rwa [Drained, processing_eq, queued_eq]
  have notHandled : .handled s.sets.length ∉ t.log := by
    rw [log_eq]
    exact fun mem => Nat.lt_irrefl _ (known _ (.inr (.inr (.inl mem))))
  have before (other : Nat) (mem : .queued other ∈ t.log) : other < s.sets.length := by
    rw [log_eq] at mem
    exact known other (.inr (.inr (.inr (.inl mem))))
  have notProcessed : t.processingSet ≠ some s.sets.length := by
    rw [processing_eq]
    intro processing
    rcases (exclusive.processing _ processing).2 with delegated | first
    · exact here delegated
    · exact Nat.lt_irrefl _ (known _ (.inr (.inl (List.mem_of_head? first))))
  rw [← delegated_eq] at here
  have queueAlone : s.sets.length ∉ t.queuedList := fun mem =>
    Nat.lt_irrefl _ (before _ (held.waiting _ mem).1)
  rw [step, state_eq]
  have condition : s.sets.length ∉ t.delegatedList ∧ t.processingSet ≠ some s.sets.length :=
    ⟨here, notProcessed⟩
  by_cases idle : t.processingSet = none
  · have queue_nil : t.queuedList = [] := drained'.resolve_left (not_not_intro idle)
    by_cases waits : t.isSet s.sets.length = true ∧ t.delegatedList ≠ []
    · -- the SET is the only one in the queue
      rw [handleRequest, if_pos condition, if_neg (by simp [idle]), if_pos waits.1,
        if_pos waits.2]
      have held' : Accounted (some s.sets.length)
          { t with processingSet := some s.sets.length } := held.congr rfl
      have queued := held'.queue before notHandled
      have stillAlone : s.sets.length ∉
        ({ t with processingSet := some s.sets.length } : AgentState).queuedList := queueAlone
      rw [addQueued_eq stillAlone] at queued ⊢
      refine ⟨⟨queued, ?_⟩, .inl nofun⟩
      constructor
      · intro other mem otherSet
        have processing := (sameExclusive.alone other mem otherSet).1
        rw [idle] at processing
        nomatch processing
      · intro other processing
        rcases Option.some.inj processing with rfl
        exact ⟨waits.1, .inr (by rw [queue_nil]; rfl)⟩
    · have alone : t.isSet s.sets.length = true → t.delegatedList = [] := by
        intro set
        by_contra nonempty
        exact waits ⟨set, nonempty⟩
      rcases handleRequest_idle handlers held sameExclusive idle alone with ⟨inv', queue_eq', -⟩
      exact ⟨inv', .inr (queue_eq'.trans queue_nil)⟩
  · rw [handleRequest, if_pos condition, if_pos idle]
    have queued := held.queue before notHandled
    rw [addQueued_eq queueAlone] at queued ⊢
    refine ⟨⟨queued, sameExclusive.alone, ?_⟩, .inl idle⟩
    intro other processing
    rcases sameExclusive.processing other processing with ⟨otherSet, place⟩
    refine ⟨otherSet, place.imp_right fun first => ?_⟩
    rw [List.head?_append, first]
    rfl

theorem queuedLoop_inv (handlers : Handlers) {passes : Nat} (inv : Inv s)
    (enough : s.queuedList.length ≤ passes)
    (idle : s.processingSet ≠ none → s.delegatedList = []) :
    Inv (s.queuedLoop handlers passes) ∧ Drained (s.queuedLoop handlers passes) ∧
      ((s.queuedLoop handlers passes).delegatedList = [] →
        (s.queuedLoop handlers passes).queuedList = []) := by
  induction passes generalizing s with
  | zero =>
      have empty := List.length_eq_zero_iff.mp (Nat.le_zero.mp enough)
      exact ⟨inv, .inr empty, fun _ => empty⟩
  | succ passes ih =>
      rw [queuedLoop]
      cases queue_eq : s.queuedList with
      | nil => exact ⟨inv, .inr queue_eq, fun _ => queue_eq⟩
      | cons asp rest =>
          -- a SET that waits is the first one
          have first : s.processingSet = none ∨ s.processingSet = some asp := by
            cases processing : s.processingSet with
            | none => exact .inl rfl
            | some other =>
                have empty := idle (by simp [processing])
                rcases (inv.exclusive.processing other processing).2 with delegated | head
                · rw [empty] at delegated
                  exact absurd delegated List.not_mem_nil
                · rw [queue_eq] at head
                  exact .inr head.symm
          have asserted : s.assert (s.processingSet = none ∨ s.processingSet = some asp) = s := by
            simp [AgentState.assert, first]
          simp only [asserted]
          have popped := inv.pop queue_eq
          have notIn := popped.notDelegated
          by_cases waits : s.isSet asp = true ∧ s.delegatedList ≠ []
          · rw [if_pos waits]
            have none_eq : s.processingSet = none := by
              rcases first with none_eq | some_eq
              · exact none_eq
              · exact absurd (idle (by simp [some_eq])) waits.2
            rcases inv with ⟨accounted, exclusive⟩
            refine ⟨⟨accounted.congr (by simp [AgentState.assert, none_eq]), ?_⟩, ?_, ?_⟩
            · constructor
              · intro other mem otherSet
                have processing := (exclusive.alone other mem otherSet).1
                rw [none_eq] at processing
                nomatch processing
              · intro other processing
                cases processing
                exact ⟨waits.1, .inr (congrArg List.head? queue_eq)⟩
            · exact .inl (by simp)
            · exact fun empty => absurd empty waits.2
          · rw [if_neg waits]
            have alone : s.isSet asp = true → s.delegatedList = [] := by
              intro set
              by_contra nonempty
              exact waits ⟨set, nonempty⟩
            have handled : Inv ({ s with queuedList := rest }.handleRequest handlers asp) ∧
                ({ s with queuedList := rest }.handleRequest handlers asp).queuedList = rest ∧
                (({ s with queuedList := rest }.handleRequest handlers asp).processingSet ≠ none →
                  ({ s with queuedList := rest }.handleRequest handlers asp).delegatedList ≠
                    []) := by
              rcases first with none_eq | some_eq
              · have exclusive : Exclusive s.delegatedList { s with queuedList := rest } := by
                  constructor
                  · exact inv.exclusive.alone
                  · intro other processing
                    have processing' : s.processingSet = some other := processing
                    rw [none_eq] at processing'
                    nomatch processing'
                exact handleRequest_idle handlers popped exclusive none_eq alone
              · have empty := idle (by simp [some_eq])
                have set := (inv.exclusive.processing asp some_eq).1
                have exclusive : Exclusive (asp :: s.delegatedList)
                    { s with queuedList := rest } := by
                  rw [empty]
                  constructor
                  · intro other mem _
                    rw [List.mem_singleton.mp mem]
                    exact ⟨some_eq, rfl⟩
                  · intro other processing
                    have processing' : s.processingSet = some other := processing
                    rw [some_eq] at processing'
                    cases processing'
                    exact ⟨set, .inl (List.mem_singleton.mpr rfl)⟩
                have notNew : ¬(asp ∉ s.delegatedList ∧ s.processingSet ≠ some asp) := by
                  rintro ⟨-, different⟩
                  exact different some_eq
                rw [handleRequest, if_neg notNew]
                rcases callHandlers_inv handlers popped exclusive with
                  ⟨inv', queue_eq', -, processing⟩
                refine ⟨inv', queue_eq', fun busy => ?_⟩
                rcases processing with same | none_eq
                · rcases (inv'.exclusive.processing asp (same.trans some_eq)).2 with
                    delegated | head
                  · exact List.ne_nil_of_mem delegated
                  · rw [queue_eq'] at head
                    exact absurd (show asp ∈ active (some asp) { s with queuedList := rest } by
                      simp [active]) (popped.apart asp (List.mem_of_head? head))
                · exact absurd none_eq busy
            rcases handled with ⟨inv', queue_eq', busy⟩
            by_cases stops :
                ({ s with queuedList := rest }.handleRequest handlers asp).processingSet ≠ none
            · rw [if_pos stops]
              exact ⟨inv', .inl stops, fun empty => absurd empty (busy stops)⟩
            · rw [if_neg stops]
              apply ih inv'
              · rw [queue_eq']
                rw [queue_eq, List.length_cons] at enough
                omega
              · exact fun set => absurd set stops

theorem check_inv (handlers : Handlers) (inv : Inv s) :
    Inv (s.checkOutstandingAgentRequests handlers) ∧
      Drained (s.checkOutstandingAgentRequests handlers) ∧
      ((s.checkOutstandingAgentRequests handlers).delegatedList = [] →
        (s.checkOutstandingAgentRequests handlers).queuedList = []) := by
  have checked := (checkDelegatedRequests_inv handlers inv).1
  rw [checkOutstandingAgentRequests]
  by_cases waits : (s.checkDelegatedRequests handlers).processingSet ≠ none ∧
      (s.checkDelegatedRequests handlers).delegatedList ≠ []
  · rw [if_pos waits]
    exact ⟨checked, .inl waits.1, fun empty => absurd empty waits.2⟩
  · rw [if_neg waits]
    apply queuedLoop_inv handlers checked (Nat.le_refl _)
    intro set
    by_contra nonempty
    exact waits ⟨set, nonempty⟩

theorem complete_inv {pending : Nat → Bool} (inv : Inv s) : Inv { s with pending } := by
  rcases inv with ⟨accounted, exclusive⟩
  exact ⟨accounted.congr rfl, exclusive.alone, exclusive.processing⟩

theorem inv_nil : Inv {} := by
  refine ⟨?_, ?_⟩
  · constructor <;> simp [active]
    exact .nil
  · constructor <;> simp

theorem step_inv (handlers : Handlers) {closed : Bool} {next : Step} {steps : List Step}
    (inv : Inv s) (drained : closed = false → Drained s)
    (timely : ChecksBehindClose closed (next :: steps)) :
    Inv (step handlers s next) ∧ ∃ closed', (closed' = false → Drained (step handlers s next)) ∧
      ChecksBehindClose closed' steps := by
  cases next with
  | arrive set =>
      rcases timely with ⟨open_, timely⟩
      have arrived := arrive_inv handlers set inv (drained open_)
      exact ⟨arrived.1, closed, fun _ => arrived.2, timely⟩
  | complete asp => exact ⟨complete_inv inv, closed, drained, timely⟩
  | closeSession asps =>
      refine ⟨?_, true, by simp, timely⟩
      rw [step, removeDelegatedRequests]
      split
      · exact (checkDelegatedRequests_inv handlers (complete_inv inv)).1
      · exact complete_inv inv
  | check =>
      have checked := check_inv handlers inv
      exact ⟨checked.1, false, fun _ => checked.2.1, timely⟩

theorem run_inv (handlers : Handlers) {steps : List Step} {closed : Bool} (inv : Inv s)
    (drained : closed = false → Drained s) (timely : ChecksBehindClose closed steps) :
    Inv (steps.foldl (step handlers) s) := by
  induction steps generalizing s closed with
  | nil => exact inv
  | cons next steps ih =>
      rcases step_inv handlers inv drained timely with ⟨inv', closed', drained', timely'⟩
      exact ih inv' drained' timely'

/-- The requests of a run: SETs are handled alone, each request is in one of the lists or answered,
those that were queued are handled in the order of their arrival, and the assertions hold. -/
structure IsSerialised (s : AgentState) : Prop where
  serial : Serial s.isSet s.log
  somewhere : ∀ asp < s.sets.length,
    asp ∈ s.delegatedList ∨ asp ∈ s.queuedList ∨ .wrapped asp ∈ s.log
  unanswered : ∀ asp, asp ∈ s.delegatedList ∨ asp ∈ s.queuedList → .wrapped asp ∉ s.log
  apart : (s.delegatedList ++ s.queuedList).Nodup
  inOrder : ∀ first second, .queued first ∈ s.log → .queued second ∈ s.log → first < second →
    .handled second ∈ s.log → .handled first ∈ s.log
  asserted : s.asserted = true

theorem Inv.isSerialised (inv : Inv s) : IsSerialised s := by
  rcases inv with ⟨accounted, -⟩
  have somewhere := accounted.somewhere
  have unanswered := accounted.unanswered
  have apart := accounted.apart
  have nodup := accounted.nodup
  simp only [active, Option.toList_none, List.nil_append] at somewhere unanswered apart nodup
  refine ⟨accounted.serial, somewhere, unanswered, ?_, ?_, accounted.asserted⟩
  · rw [List.nodup_append]
    refine ⟨nodup, accounted.sorted.imp fun less => Nat.ne_of_lt less, ?_⟩
    rintro asp delegated other queued rfl
    exact apart asp queued delegated
  · intro first second queuedFirst queuedSecond less handled
    by_contra unhandled
    have notWaiting : second ∉ s.queuedList := fun mem => (accounted.waiting second mem).2 handled
    have waits : first ∈ s.queuedList := by
      have small := accounted.known first (.inr (.inr (.inr (.inl queuedFirst))))
      rcases somewhere first small with delegated | queued | wrapped
      · exact absurd (accounted.delegated first delegated) unhandled
      · exact queued
      · exact absurd (accounted.serial.handled_of_wrapped wrapped) unhandled
    exact absurd (accounted.inOrder second queuedSecond notWaiting first waits)
      (Nat.not_lt_of_lt less)

theorem ChecksBehindClose.of_append {closed : Bool} {before steps : List Step}
    (timely : ChecksBehindClose closed (before ++ steps)) : ChecksBehindClose closed before := by
  induction before generalizing closed with
  | nil => exact trivial
  | cons next before ih =>
      cases next with
      | arrive set => exact ⟨timely.1, ih timely.2⟩
      | complete asp => exact @ih closed timely
      | closeSession asps => exact @ih true timely
      | check => exact @ih false timely

/-- In every run in which the queues are checked behind the end of a session before a request
arrives, SETs are handled alone and in order; and when nothing is delegated behind a check, all
requests are answered. -/
theorem run_isSerialised (handlers : Handlers) (steps : List Step)
    (timely : ChecksBehindClose false steps) :
    IsSerialised (run handlers steps) ∧
      (steps.getLast? = some .check → (run handlers steps).delegatedList = [] →
        ∀ asp < (run handlers steps).sets.length, .wrapped asp ∈ (run handlers steps).log) := by
  have drained : Drained {} := .inr rfl
  have inv : Inv (run handlers steps) := run_inv handlers inv_nil (fun _ => drained) timely
  refine ⟨inv.isSerialised, ?_⟩
  intro last none_delegated asp small
  rcases List.eq_nil_or_concat steps with rfl | ⟨before, next, rfl⟩
  · nomatch last
  · rw [List.concat_eq_append] at *
    rw [List.getLast?_concat, Option.some.injEq] at last
    subst last
    have invBefore : Inv (run handlers before) :=
      run_inv handlers inv_nil (fun _ => drained) timely.of_append
    have run_eq : run handlers (before ++ [.check]) =
        (run handlers before).checkOutstandingAgentRequests handlers := by
      simp [run, step]
    rw [run_eq] at none_delegated small ⊢
    have checked := check_inv handlers invBefore
    have queue_nil := checked.2.2 none_delegated
    rcases checked.1.isSerialised.somewhere asp small with delegated | queued | wrapped
    · rw [none_delegated] at delegated
      exact absurd delegated List.not_mem_nil
    · rw [queue_nil] at queued
      exact absurd queued List.not_mem_nil
    · exact wrapped

def delegatesOnce : Handlers where
  delegates log asp := decide (.handled asp ∉ log)
  continues _ _ := false

def closedSteps : List Step :=
  [.arrive true, .arrive false, .closeSession [0], .check, .complete 1, .check]

theorem run_isSerialised_closed : IsSerialised (run delegatesOnce closedSteps) ∧
    .wrapped 1 ∈ (run delegatesOnce closedSteps).log := by
  have timely : ChecksBehindClose false closedSteps := ⟨rfl, rfl, trivial⟩
  have serialised := run_isSerialised delegatesOnce closedSteps timely
  exact ⟨serialised.1, serialised.2 rfl (by decide +kernel) 1 (by decide +kernel)⟩

example : (run delegatesOnce [.arrive true, .arrive false, .closeSession [0], .arrive false,
    .arrive true, .complete 2, .check]).asserted = false := by
  decide +kernel

end RequestQueues

end NetSnmp
