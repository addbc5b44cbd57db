import NetSnmp.Fuel

/-!
# Loops that a pass ends

A pass of the loop is told its number and the state that the last one left.  It
ends the loop with a result or leaves a state for the next pass.
-/

namespace NetSnmp

variable {σ α : Type}

/-- `do { ... } while (1)` that a `break` leaves, for at most `fuel` passes. -/
def repeatPasses (pass : Nat → σ → α ⊕ σ) : (fuel call : Nat) → σ → Option α
  | 0, _, _ => none
  | fuel + 1, call, state =>
      match pass call state with
      | .inl result => some result
      | .inr state => repeatPasses pass fuel (call + 1) state

/-- The loop ends with `result`, whatever the bound on its passes. -/
def PassesEnd (pass : Nat → σ → α ⊕ σ) (call : Nat) (state : σ) (result : α) : Prop :=
  Settles (fun fuel => repeatPasses pass fuel call state) result

variable {pass : Nat → σ → α ⊕ σ} {call : Nat} {state next : σ} {result : α}

theorem passesEnd_of_last (last : pass call state = .inl result) :
    PassesEnd pass call state result := by
  refine ⟨1, fun fuel enough => ?_⟩
  rcases Nat.exists_eq_add_of_le' enough with ⟨more, rfl⟩
  change repeatPasses pass (more + 1) call state = some result
  rw [repeatPasses, last]

theorem passesEnd_iff_next (goesOn : pass call state = .inr next) :
    PassesEnd pass call state result ↔ PassesEnd pass (call + 1) next result := by
  have passed (fuel : Nat) :
      repeatPasses pass (fuel + 1) call state = repeatPasses pass fuel (call + 1) next := by
    rw [repeatPasses, goesOn]
  constructor
  · rintro ⟨bound, settled⟩
    refine ⟨bound, fun fuel enough => ?_⟩
    exact (passed fuel).symm.trans (settled (fuel + 1) (by omega))
  · rintro ⟨bound, settled⟩
    refine ⟨bound + 1, fun fuel enough => ?_⟩
    rcases Nat.exists_eq_add_of_le' enough with ⟨more, rfl⟩
    exact (passed (more + bound)).trans (settled _ (by omega))

theorem PassesEnd.last {invariant : σ → Prop}
    (keeps : ∀ call state next, pass call state = .inr next → invariant state → invariant next)
    (start : invariant state) (ends : PassesEnd pass call state result) :
    ∃ call state, invariant state ∧ pass call state = .inl result := by
  rcases ends with ⟨bound, settled⟩
  have ended : repeatPasses pass bound call state = some result := settled bound (Nat.le_refl _)
  clear settled
  induction bound generalizing call state with
  | zero => nomatch ended
  | succ bound ih =>
      rw [repeatPasses] at ended
      cases passed : pass call state with
      | inl value =>
          rw [passed] at ended
          exact ⟨call, state, start, passed.trans (congrArg Sum.inl (Option.some.inj ended))⟩
      | inr next =>
          rw [passed] at ended
          exact ih (keeps call state next passed start) ended

theorem passesEnd_of_repeatPasses {fuel : Nat}
    (ended : repeatPasses pass fuel call state = some result) :
    PassesEnd pass call state result := by
  induction fuel generalizing call state with
  | zero => nomatch ended
  | succ fuel ih =>
      rw [repeatPasses] at ended
      cases passed : pass call state with
      | inl value =>
          rw [passed] at ended
          exact passesEnd_of_last (passed.trans (congrArg Sum.inl (Option.some.inj ended)))
      | inr next =>
          rw [passed] at ended
          exact (passesEnd_iff_next passed).mpr (ih ended)

theorem repeatPasses_eq_none {invariant : σ → Prop}
    (goesOn : ∀ call state, invariant state → ∃ next, pass call state = .inr next ∧ invariant next)
    (start : invariant state) (fuel : Nat) : repeatPasses pass fuel call state = none := by
  induction fuel generalizing call state with
  | zero => rfl
  | succ fuel ih =>
      rcases goesOn call state start with ⟨next, passed, start'⟩
      rw [repeatPasses, passed]
      exact ih start'

end NetSnmp
