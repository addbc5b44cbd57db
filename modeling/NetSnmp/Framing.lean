import Mathlib.Data.List.Basic

/-!
# Cutting a stream into frames

A rule looks at what has arrived and sees a whole frame at the beginning, or that
more is needed, or that the stream is broken.  When it does not change its mind
as more arrives, the frames do not depend on the pieces in which they arrive.
-/

namespace NetSnmp

inductive Frame where
  | incomplete
  | broken
  | whole (size : Nat)
  deriving DecidableEq, Repr

/-- A rule that decides for a frame that is there, and keeps to what it has decided. -/
structure Framing (α : Type) where
  frame : List α → Frame
  pos : ∀ {input size}, frame input = .whole size → 0 < size
  le_length : ∀ {input size}, frame input = .whole size → size ≤ input.length
  frame_nil : frame [] = .incomplete
  frame_append : ∀ {input} (more : List α), frame input ≠ .incomplete →
    frame (input ++ more) = frame input

/-- The frames of an input, what is left, and whether that is broken. -/
structure Cut (α : Type) where
  frames : List (List α)
  rest : List α
  broken : Bool
  deriving DecidableEq, Repr

namespace Framing

variable {α : Type} (rule : Framing α)

def cut (input : List α) : Cut α :=
  match _decided : rule.frame input with
  | .incomplete => ⟨[], input, false⟩
  | .broken => ⟨[], input, true⟩
  | .whole size =>
      let later := cut (input.drop size)
      { later with frames := input.take size :: later.frames }
termination_by input.length
decreasing_by
  have pos := rule.pos _decided
  have inside := rule.le_length _decided
  rw [List.length_drop]
  omega

def feed (received : Cut α) (more : List α) : Cut α :=
  if received.broken then { received with rest := received.rest ++ more }
  else
    let later := rule.cut (received.rest ++ more)
    { later with frames := received.frames ++ later.frames }

variable {rule} {input : List α}

theorem cut_of_incomplete (decided : rule.frame input = .incomplete) :
    rule.cut input = ⟨[], input, false⟩ := by
  rw [cut]
  split <;> simp_all

theorem cut_of_broken (decided : rule.frame input = .broken) :
    rule.cut input = ⟨[], input, true⟩ := by
  rw [cut]
  split <;> simp_all

theorem cut_of_whole {size : Nat} (decided : rule.frame input = .whole size) :
    rule.cut input =
      { rule.cut (input.drop size) with
        frames := input.take size :: (rule.cut (input.drop size)).frames } := by
  rw [cut]
  split <;> simp_all

theorem cut_nil : rule.cut [] = ⟨[], [], false⟩ := cut_of_incomplete rule.frame_nil

theorem cut_append (more : List α) :
    rule.cut (input ++ more) = rule.feed (rule.cut input) more := by
  induction input using cut.induct rule with
  | case1 input decided => simp [feed, cut_of_incomplete decided]
  | case2 input decided =>
      have decided' : rule.frame (input ++ more) = .broken := by
        rw [rule.frame_append more (by simp [decided]), decided]
      simp [feed, cut_of_broken decided, cut_of_broken decided']
  | case3 input size decided ih =>
      have decided' : rule.frame (input ++ more) = .whole size := by
        rw [rule.frame_append more (by simp [decided]), decided]
      have inside := rule.le_length decided
      rw [cut_of_whole decided', cut_of_whole decided, List.drop_append_of_le_length inside,
        List.take_append_of_le_length inside, ih]
      unfold feed
      split <;> rfl

theorem frame_rest (whole : (rule.cut input).broken = false) :
    rule.frame (rule.cut input).rest = .incomplete := by
  induction input using cut.induct rule with
  | case1 input decided =>
      rw [cut_of_incomplete decided]
      exact decided
  | case2 input decided =>
      rw [cut_of_broken decided] at whole
      exact absurd whole (by simp)
  | case3 input size decided ih =>
      rw [cut_of_whole decided] at whole ⊢
      exact ih whole

theorem rest_of_frames_eq_nil (none : (rule.cut input).frames = []) :
    (rule.cut input).rest = input := by
  cases decided : rule.frame input with
  | incomplete => rw [cut_of_incomplete decided]
  | broken => rw [cut_of_broken decided]
  | whole size =>
      rw [cut_of_whole decided] at none
      exact absurd none (by simp)

theorem length_rest_le : (rule.cut input).rest.length ≤ input.length := by
  induction input using cut.induct rule with
  | case1 input decided => simp [cut_of_incomplete decided]
  | case2 input decided => simp [cut_of_broken decided]
  | case3 input size decided ih =>
      rw [cut_of_whole decided]
      exact Nat.le_trans ih (by simp)

end Framing

end NetSnmp
