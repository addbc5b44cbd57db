import Mathlib.Data.List.Forall2
import Mathlib.Data.Nat.SuccPred
import Mathlib.Logic.Function.Basic
import Mathlib.Tactic.LinearCombination
import Mathlib.Tactic.NormNum
import Mathlib.Tactic.Ring

/-!
# A byte reader that records what it inspects

A routine of a C program that walks a byte buffer is described here by what it
ends with and by the list of events on the way: the bytes it looks at, the
sizes it hands to its callees, the passes of its loops and the cells it stores
to.  A pointer into the buffer is the list of the bytes from that place to the
end of the memory, so that a step forward is `List.drop` and the difference of
two pointers is the difference of their lengths.

Looking at a byte past the end of the memory is the outcome `fault`; it is
never hidden behind a default value.  The outcome `diverged` is kept for loops
which are given a bound on their number of passes.
-/

namespace NetSnmp

abbrev Byte := UInt8

abbrev Ptr := List Byte

namespace Reader

inductive Outcome (α : Type) where
  | ok (value : α)
  | null
  /-- The routine looked at a byte outside the memory. -/
  | fault
  /-- The routine used up the bound on its number of passes. -/
  | diverged
  deriving DecidableEq, Repr

/-- What a routine does that a caller may want to bound. -/
inductive Event where
  /-- A byte was inspected; `remaining` bytes of memory start there (none outside). -/
  | read (remaining : Nat)
  /-- A routine that was told how many bytes it may use kept to them, or did not. -/
  | window (inside : Bool)
  /-- A counter of remaining bytes went from `given` to `left`. -/
  | count (given left : Nat)
  /-- One pass of a loop took its measure from `before` to `after`. -/
  | iteration (before after : Nat)
  /-- A cell of a buffer of `capacity` cells was written. -/
  | store (index capacity : Nat)
  deriving DecidableEq, Repr

/-- Sequencing of outcomes: only a returned value is passed on. -/
def Outcome.bind {α β : Type} (outcome : Outcome α) (next : α → Outcome β) : Outcome β :=
  match outcome with
  | .ok value => next value
  | .null => .null
  | .fault => .fault
  | .diverged => .diverged

section Outcome

variable {α β : Type} (next : α → Outcome β)

@[simp]
theorem Outcome.bind_ok (value : α) : (Outcome.ok value).bind next = next value := rfl

@[simp]
theorem Outcome.bind_null : (Outcome.null : Outcome α).bind next = .null := rfl

@[simp]
theorem Outcome.bind_fault : (Outcome.fault : Outcome α).bind next = .fault := rfl

@[simp]
theorem Outcome.bind_diverged : (Outcome.diverged : Outcome α).bind next = .diverged := rfl

theorem Outcome.bind_eq_ok {outcome : Outcome α} {next : α → Outcome β} {result : β} :
    outcome.bind next = .ok result ↔
      ∃ value, outcome = .ok value ∧ next value = .ok result := by
  cases outcome <;> simp

end Outcome

end Reader

open Reader in
/-- A routine that reads memory: its outcome and the events in the order they happen. -/
structure Reader (α : Type) where
  ending : Outcome α
  log : List Event

namespace Reader

variable {α β : Type}

/-- How a routine ends.  The rules below are about this function rather than the field, so
that terms are compared by their arguments before anything is evaluated. -/
def outcome (reader : Reader α) : Outcome α := reader.ending

/-- Return a value without touching the memory. -/
protected def pure (value : α) : Reader α := ⟨.ok value, []⟩

/-- Run one routine and hand its value to the next. -/
protected def bind (first : Reader α) (next : α → Reader β) : Reader β :=
  match first.ending with
  | .ok value => ⟨(next value).ending, first.log ++ (next value).log⟩
  | .null => ⟨.null, first.log⟩
  | .fault => ⟨.fault, first.log⟩
  | .diverged => ⟨.diverged, first.log⟩

instance : Monad Reader where
  pure := Reader.pure
  bind := Reader.bind

def null : Reader α := ⟨.null, []⟩

def diverge : Reader α := ⟨.diverged, []⟩

def failIf (condition : Prop) [Decidable condition] : Reader Unit :=
  if condition then null else pure ()

def emit (event : Event) : Reader Unit := ⟨.ok (), [event]⟩

def deref : Ptr → Reader Byte
  | [] => ⟨.fault, [.read 0]⟩
  | byte :: rest => ⟨.ok byte, [.read (rest.length + 1)]⟩

/-- Copy out `length` bytes from a pointer. -/
def readBytes : Nat → Ptr → Reader (List Byte)
  | 0, _ => pure []
  | length + 1, pointer => do
      let byte ← deref pointer
      let bytes ← readBytes length (pointer.drop 1)
      pure (byte :: bytes)

/-- Whether an event looks at one of the first `count` bytes from `data`, if at any. -/
def Event.isWithin (data : Ptr) (count : Nat) : Event → Bool
  | .read remaining => decide (data.length < remaining + count)
  | _ => true

/-- Run a routine that was given `data` and told it may use `count` bytes, and record
whether all the bytes it looked at are among these. -/
def within (data : Ptr) (count : Nat) (body : Reader α) : Reader α :=
  ⟨body.ending, body.log ++ [.window (body.log.all (Event.isWithin data count))]⟩

@[simp]
theorem outcome_mk (ending : Outcome α) (log : List Event) :
    (⟨ending, log⟩ : Reader α).outcome = ending := rfl

@[simp]
theorem outcome_pure (value : α) : (pure value : Reader α).outcome = .ok value := rfl

@[simp]
theorem outcome_bind (first : Reader α) (next : α → Reader β) :
    (first >>= next).outcome = first.outcome.bind (fun value => (next value).outcome) := by
  change (Reader.bind first next).outcome = _
  unfold Reader.bind outcome
  cases first.ending <;> rfl

@[simp]
theorem outcome_null : (null : Reader α).outcome = .null := rfl

@[simp]
theorem outcome_diverge : (diverge : Reader α).outcome = .diverged := rfl

@[simp]
theorem outcome_failIf (condition : Prop) [Decidable condition] :
    (failIf condition).outcome = if condition then .null else .ok () := by
  unfold failIf
  split <;> rfl

@[simp]
theorem outcome_emit (event : Event) : (emit event).outcome = .ok () := rfl

@[simp]
theorem outcome_within (data : Ptr) (count : Nat) (body : Reader α) :
    (within data count body).outcome = body.outcome := rfl

@[simp]
theorem outcome_deref_cons (byte : Byte) (rest : Ptr) :
    (deref (byte :: rest)).outcome = .ok byte := rfl

@[simp]
theorem outcome_deref_nil : (deref []).outcome = .fault := rfl

theorem outcome_readBytes_append (bytes rest : List Byte) :
    (readBytes bytes.length (bytes ++ rest)).outcome = .ok bytes := by
  induction bytes with
  | nil => rfl
  | cons byte bytes ih => simp [readBytes, ih]

theorem outcome_readBytes {length : Nat} {pointer : Ptr} (inside : length ≤ pointer.length) :
    (readBytes length pointer).outcome = .ok (pointer.take length) := by
  have split := outcome_readBytes_append (pointer.take length) (pointer.drop length)
  rwa [List.take_append_drop, List.length_take, Nat.min_eq_left inside] at split

end Reader

end NetSnmp
