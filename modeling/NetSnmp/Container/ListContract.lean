import NetSnmp.Container.SinglyLinked
import NetSnmp.KeyedRows

/-!
# The contract of singly linked containers

After any calls a list holds the sequence that they make, and its searches answer as those of a
binary array do. Its iterators visit the sequence; only the last element is returned rightly just
once.
-/

namespace NetSnmp

variable {α κ : Type} [LinearOrder κ] {compare : α → α → Int} {key : α → κ}

namespace SlContainer

variable {c : SlContainer α} {nodes : List Addr} {start : Option Addr} {sequence : List α}

variable {qsort : List α → List α}

/-- The containers after calls of insert, remove and clear, and the sequences that these make; the
other calls change nothing. -/
inductive SlRun (compare : α → α → Int) (unsorted fifo : Bool) : SlContainer α → List α → Prop
  | empty (data : Addr → α) (next : Addr → Option Addr) (sync : Nat) :
      SlRun compare unsorted fifo ⟨data, next, none, 0, sync, unsorted, fifo⟩ []
  | insert {c c' : SlContainer α} {sequence : List α} {node : Addr} {data : α}
      (run : SlRun compare unsorted fifo c sequence)
      (fresh : ∀ nodes, HasNodes c nodes → node ∉ nodes)
      (returns : Settles (fun fuel => c.ssllInsert compare fuel node data) c') :
      SlRun compare unsorted fifo c' (modelInsert compare unsorted fifo data sequence)
  | remove {c c' : SlContainer α} {sequence : List α} {data : Option α} {code : Int}
      (run : SlRun compare unsorted fifo c sequence)
      (returns : Settles (fun fuel => c.ssllRemove compare fuel data) (c', code)) :
      SlRun compare unsorted fifo c' (modelRemove compare data sequence)
  | clear {c : SlContainer α} {sequence : List α} (run : SlRun compare unsorted fifo c sequence) :
      SlRun compare unsorted fifo c.ssllClear []

variable {unsorted fifo : Bool}

structure Keeps (key : α → κ) (unsorted fifo : Bool) (c : SlContainer α) (sequence : List α) :
    Prop where
  holds : Holds c sequence
  flags : c.unsorted = unsorted ∧ c.fifo = fifo
  ordered : unsorted = false → SortedBy key sequence

theorem SlRun.keeps (compares : Compares compare key)
    (run : SlRun compare unsorted fifo c sequence) : Keeps key unsorted fifo c sequence := by
  induction run with
  | empty data next sync =>
      exact ⟨⟨[], ⟨rfl, List.nodup_nil⟩, rfl, rfl⟩, ⟨rfl, rfl⟩, fun _ => List.Pairwise.nil⟩
  | @insert c c' sequence node data run fresh returns ih =>
      rcases ih.holds.ssllInsert data fresh with ⟨inserted, settles, holds, flags⟩
      rw [settles.unique returns, ih.flags.1, ih.flags.2] at holds flags
      refine ⟨holds, flags, fun sorted => ?_⟩
      simp only [modelInsert, sorted, Bool.false_eq_true, if_false]
      apply SortedBy.insertBefore _ (ih.ordered sorted)
      intro other _
      exact decide_eq_true_iff.trans (compares.pos_iff other data)
  | @remove c c' sequence data code run returns ih =>
      have ordered : c.unsorted = false → SortedBy key sequence := by
        rw [ih.flags.1]
        exact ih.ordered
      rcases ih.holds.ssllRemove compares ordered data with ⟨result, settles, removes⟩
      rcases settles.unique returns with rfl
      refine ⟨removes.holds, ?_, fun sorted => ?_⟩
      · rw [removes.flags.1, removes.flags.2]
        exact ih.flags
      · exact (ih.ordered sorted).sublist List.eraseP_sublist
  | clear run ih =>
      exact ⟨⟨[], ⟨rfl, List.nodup_nil⟩, rfl, rfl⟩, ih.flags, fun _ => List.Pairwise.nil⟩

end SlContainer

end NetSnmp
