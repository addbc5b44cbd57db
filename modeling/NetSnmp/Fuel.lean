import Mathlib.Order.Basic

/-!
# Loops with a bound on their passes

A loop that may pass `fuel` times has no result if it does not end.  With more fuel
it has the same result, so that the result of a loop does not depend on the bound.
-/

namespace NetSnmp

variable {α β : Type} {fuel : Nat}

/-- A result with `fuel` stays the same with more. -/
def FuelStep (fuel : Nat) (f : Nat → Option α) : Prop :=
  ∀ value, f fuel = some value → f (fuel + 1) = some value

theorem fuelStep_const (result : Option α) : FuelStep fuel fun _ => result :=
  fun _ eq_some => eq_some

theorem FuelStep.bind {f : Nat → Option α} {g : α → Nat → Option β} (step : FuelStep fuel f)
    (next : ∀ value, FuelStep fuel (g value)) :
    FuelStep fuel fun fuel => (f fuel).bind fun value => g value fuel := by
  intro result eq_some
  rcases Option.bind_eq_some_iff.mp eq_some with ⟨value, value_eq, result_eq⟩
  exact Option.bind_eq_some_iff.mpr ⟨value, step _ value_eq, next value _ result_eq⟩

theorem FuelStep.map {f : Nat → Option α} (step : FuelStep fuel f) (g : α → β) :
    FuelStep fuel fun fuel => (f fuel).map g := by
  intro result eq_some
  rcases Option.map_eq_some_iff.mp eq_some with ⟨value, value_eq, result_eq⟩
  exact Option.map_eq_some_iff.mpr ⟨value, step _ value_eq, result_eq⟩

theorem FuelStep.ite {condition : Prop} [Decidable condition] {f g : Nat → Option α}
    (step : FuelStep fuel f) (step' : FuelStep fuel g) :
    FuelStep fuel fun fuel => if condition then f fuel else g fuel := by
  intro value eq_some
  by_cases holds : condition
  · simp only [if_pos holds] at eq_some ⊢
    exact step _ eq_some
  · simp only [if_neg holds] at eq_some ⊢
    exact step' _ eq_some

/-- The result with any bound that is large enough. -/
def Settles (f : Nat → Option α) (value : α) : Prop :=
  ∃ bound, ∀ fuel, bound ≤ fuel → f fuel = some value

theorem Settles.unique {f : Nat → Option α} {value value' : α} (returns : Settles f value)
    (returns' : Settles f value') : value = value' := by
  rcases returns with ⟨bound, eq_some⟩
  rcases returns' with ⟨bound', eq_some'⟩
  have same := (eq_some (max bound bound') (Nat.le_max_left _ _)).symm.trans
    (eq_some' (max bound bound') (Nat.le_max_right _ _))
  exact Option.some.inj same

theorem Settles.map {f : Nat → Option α} {value : α} (returns : Settles f value) (g : α → β) :
    Settles (fun fuel => (f fuel).map g) (g value) := by
  rcases returns with ⟨bound, eq_some⟩
  exact ⟨bound, fun fuel enough => congrArg (Option.map g) (eq_some fuel enough)⟩

theorem settles_of_fuel (fuel : Nat) {f : Nat → Option α} {value : α}
    (step : ∀ fuel, FuelStep fuel f)
    (eq_some : f fuel = some value) : Settles f value := by
  refine ⟨fuel, fun fuel' le => ?_⟩
  induction le with
  | refl => exact eq_some
  | step _ ih => exact step _ _ ih

end NetSnmp
