import Mathlib.Logic.Function.Basic

/-!
# Runs that store in an array

A run stores in an array that is used up to some position.  It fails or goes on
with a value, and has no result if it does not end.  Runs with a larger capacity
are compared with those with a smaller one.
-/

namespace NetSnmp

/-- An array, how much of it is used, and all positions that something was stored at. -/
structure ArrayState (ε : Type) where
  contents : Nat → ε
  used : Nat
  stores : List Nat := []

def StoreRun (ε α : Type) : Type := ArrayState ε → Option (ArrayState ε × Option α)

namespace StoreRun

variable {ε α β : Type}

instance : Monad (StoreRun ε) where
  pure value := fun array => some (array, some value)
  bind run next := fun array =>
    match run array with
    | none => none
    | some (array, none) => some (array, none)
    | some (array, some value) => next value array

def fail : StoreRun ε α := fun array => some (array, none)

def ofOption (value : Option α) : StoreRun ε α := fun array =>
  value.map fun value => (array, some value)

def used : StoreRun ε Nat := fun array => some (array, some array.used)

def store (position : Nat) (value : ε) : StoreRun ε Unit := fun array =>
  some ({ array with
          contents := Function.update array.contents position value
          stores := position :: array.stores }, some ())

def advance : StoreRun ε Unit := fun array => some ({ array with used := array.used + 1 }, some ())

def push (value : ε) : StoreRun ε Unit := fun array =>
  some ({ contents := Function.update array.contents array.used value
          used := array.used + 1
          stores := array.used :: array.stores }, some ())

def setUsed (count : Nat) : StoreRun ε Unit := fun array =>
  some ({ array with used := count }, some ())

/-- The run goes on if more than `spare` positions are left. -/
def room (capacity spare : Nat) : StoreRun ε Unit := fun array =>
  if capacity ≤ array.used + spare then some (array, none) else some (array, some ())

/-- The position behind the used ones, which is used from now on, if there is one left. -/
def reservePosition (capacity : Nat) : StoreRun ε Nat := do
  room capacity 0
  let position ← used
  advance
  pure position

/-- A value is stored behind the used positions if more than `spare` are left. -/
def pushWithin (capacity spare : Nat) (value : ε) : StoreRun ε Unit := do
  room capacity spare
  push value

def pushAll (capacity : Nat) : List ε → StoreRun ε Unit
  | [] => pure ()
  | value :: values => do
      pushWithin capacity 0 value
      pushAll capacity values

section Bind

variable {run : StoreRun ε α} {next : α → StoreRun ε β} {array array' : ArrayState ε}

theorem bind_apply (run : StoreRun ε α) (next : α → StoreRun ε β) (array : ArrayState ε) :
    (run >>= next) array =
      match run array with
      | none => none
      | some (array, none) => some (array, none)
      | some (array, some value) => next value array := rfl

theorem bind_eq_some_iff {result : Option β} :
    (run >>= next) array = some (array', result) ↔
      run array = some (array', none) ∧ result = none ∨
      ∃ middle value, run array = some (middle, some value) ∧
        next value middle = some (array', result) := by
  rw [bind_apply]
  cases run array with
  | none => simp
  | some ended =>
      rcases ended with ⟨middle, value⟩
      cases value with
      | none => simp [eq_comm]
      | some value =>
          constructor
          · intro ended
            exact .inr ⟨middle, value, rfl, ended⟩
          · rintro (⟨failed, -⟩ | ⟨_, _, passed, ended⟩)
            · nomatch failed
            · cases passed
              exact ended

theorem bind_eq_value_iff {value' : β} :
    (run >>= next) array = some (array', some value') ↔
      ∃ middle value, run array = some (middle, some value) ∧
        next value middle = some (array', some value') := by
  rw [bind_eq_some_iff]
  simp

end Bind

/-- The used positions and those that something was stored at are in the array. -/
structure Within (capacity : Nat) (array : ArrayState ε) : Prop where
  used : array.used ≤ capacity
  stores : ∀ position ∈ array.stores, position < capacity

/-- A run that keeps what was stored, and that another run differs from only where it fails. -/
structure Extends (run run' : StoreRun ε α) : Prop where
  grows : ∀ array array' result, run array = some (array', result) →
    array.stores ⊆ array'.stores
  more : ∀ array array' value, run array = some (array', some value) →
    run' array = some (array', some value)

structure Checked (capacity : Nat) (run run' : StoreRun ε α) : Prop extends Extends run run' where
  returns : ∀ array, ∃ ended, run array = some ended
  within : ∀ array array' result, run array = some (array', result) → Within capacity array →
    Within capacity array'

section Extends

variable {run run' other other' : StoreRun ε α} {next next' : α → StoreRun ε β}

theorem Extends.bind (first : Extends run run')
    (second : ∀ value, Extends (next value) (next' value)) :
    Extends (run >>= next) (run' >>= next') := by
  refine ⟨?_, ?_⟩
  · intro array array' result ended
    rcases bind_eq_some_iff.mp ended with ⟨failed, -⟩ | ⟨middle, value, passed, ended⟩
    · exact first.grows _ _ _ failed
    · exact List.Subset.trans (first.grows _ _ _ passed) ((second value).grows _ _ _ ended)
  · intro array array' value' ended
    rcases bind_eq_value_iff.mp ended with ⟨middle, value, passed, ended⟩
    exact bind_eq_value_iff.mpr
      ⟨middle, value, first.more _ _ _ passed, (second value).more _ _ _ ended⟩

theorem Extends.ite {condition : Prop} [Decidable condition] (first : Extends run run')
    (second : Extends other other') :
    Extends (if condition then run else other) (if condition then run' else other') := by
  by_cases holds : condition
  · rw [if_pos holds, if_pos holds]
    exact first
  · rw [if_neg holds, if_neg holds]
    exact second

theorem extends_ofOption (value : Option α) :
    Extends (ofOption value : StoreRun ε α) (ofOption value) := by
  refine ⟨?_, fun _ _ _ same => same⟩
  intro array array' result ended
  rcases Option.map_eq_some_iff.mp ended with ⟨_, -, same⟩
  cases same
  exact List.Subset.refl _

theorem extends_store (position : Nat) (value : ε) :
    Extends (store position value) (store position value) := by
  refine ⟨?_, fun _ _ _ same => same⟩
  intro array array' result ended
  cases ended
  exact List.subset_cons_self _ _

end Extends

section Checked

variable {capacity capacity' : Nat} {run run' other other' : StoreRun ε α}
  {next next' : α → StoreRun ε β}

theorem checked_of_same (same : ∀ array, ∃ result, run array = some (array, result))
    (more : ∀ array value, run array = some (array, some value) →
      run' array = some (array, some value)) : Checked capacity run run' := by
  have unchanged {array array' : ArrayState ε} {result : Option α}
      (ended : run array = some (array', result)) : array' = array := by
    rcases same array with ⟨result', ended'⟩
    rw [ended] at ended'
    cases ended'
    rfl
  refine ⟨⟨?_, ?_⟩, ?_, ?_⟩
  · intro array array' result ended
    rw [unchanged ended]
    exact List.Subset.refl _
  · intro array array' value ended
    rcases unchanged ended with rfl
    exact more _ _ ended
  · intro array
    rcases same array with ⟨result, ended⟩
    exact ⟨_, ended⟩
  · intro array array' result ended within
    rw [unchanged ended]
    exact within

theorem checked_pure (value : α) : Checked capacity (pure value : StoreRun ε α) (pure value) :=
  checked_of_same (fun _ => ⟨_, rfl⟩) fun _ _ same => same

theorem checked_fail (run : StoreRun ε α) : Checked capacity fail run :=
  checked_of_same (fun _ => ⟨_, rfl⟩) nofun

theorem extends_pure (value : α) : Extends (pure value : StoreRun ε α) (pure value) :=
  (@checked_pure ε α 0 value).toExtends

theorem extends_fail (run : StoreRun ε α) : Extends fail run := (@checked_fail ε α 0 run).toExtends

theorem checked_used : Checked capacity (used : StoreRun ε Nat) used :=
  checked_of_same (fun _ => ⟨_, rfl⟩) fun _ _ same => same

theorem checked_room (le : capacity ≤ capacity') (spare : Nat) :
    Checked capacity (room capacity spare : StoreRun ε Unit) (room capacity' spare) := by
  apply checked_of_same
  · intro array
    rw [room]
    split
    · exact ⟨_, rfl⟩
    · exact ⟨_, rfl⟩
  · intro array value ended
    rw [room] at ended ⊢
    split at ended
    · nomatch ended
    · rw [if_neg (by omega)]

theorem Checked.bindOn (Goes : α → Prop) (first : Checked capacity run run')
    (goes : ∀ array array' value, run array = some (array', some value) → Within capacity array →
      Goes value)
    (ends : ∀ value, ∀ array, ∃ ended, next value array = some ended)
    (larger : ∀ value, Extends (next value) (next' value))
    (second : ∀ value, Goes value → Checked capacity (next value) (next' value)) :
    Checked capacity (run >>= next) (run' >>= next') := by
  refine ⟨first.toExtends.bind larger, ?_, ?_⟩
  · intro array
    rcases first.returns array with ⟨⟨middle, value⟩, passed⟩
    rw [bind_apply, passed]
    cases value with
    | none => exact ⟨_, rfl⟩
    | some value => exact ends value middle
  · intro array array' result ended within
    rcases bind_eq_some_iff.mp ended with ⟨failed, -⟩ | ⟨middle, value, passed, ended⟩
    · exact first.within _ _ _ failed within
    · exact (second value (goes _ _ _ passed within)).within _ _ _ ended
        (first.within _ _ _ passed within)

theorem Checked.bind (first : Checked capacity run run')
    (second : ∀ value, Checked capacity (next value) (next' value)) :
    Checked capacity (run >>= next) (run' >>= next') :=
  first.bindOn (fun _ => True) (fun _ _ _ _ _ => trivial)
    (fun value => (second value).returns) (fun value => (second value).toExtends)
    fun value _ => second value

theorem Checked.ite {condition : Prop} [Decidable condition] (first : Checked capacity run run')
    (second : Checked capacity other other') :
    Checked capacity (if condition then run else other) (if condition then run' else other') := by
  by_cases holds : condition
  · rw [if_pos holds, if_pos holds]
    exact first
  · rw [if_neg holds, if_neg holds]
    exact second

theorem checked_store {position : Nat} (inside : position < capacity) (value : ε) :
    Checked capacity (store position value) (store position value) := by
  refine ⟨extends_store position value, fun _ => ⟨_, rfl⟩, ?_⟩
  intro array array' result ended within
  cases ended
  refine ⟨within.used, ?_⟩
  intro other mem
  rcases List.mem_cons.mp mem with rfl | mem
  · exact inside
  · exact within.stores other mem

theorem room_passed {capacity spare : Nat} {array middle : ArrayState ε}
    (passed : room capacity spare array = some (middle, some ())) :
    middle = array ∧ array.used + spare < capacity := by
  rw [room] at passed
  split at passed
  · nomatch passed
  · cases passed
    exact ⟨rfl, by omega⟩

theorem extends_push (value : ε) : Extends (push value) (push value) := by
  refine ⟨?_, fun _ _ _ same => same⟩
  intro array array' result ended
  cases ended
  exact List.subset_cons_self _ _

theorem extends_advance : Extends (advance : StoreRun ε Unit) advance := by
  refine ⟨?_, fun _ _ _ same => same⟩
  intro array array' result ended
  cases ended
  exact List.Subset.refl _

theorem checked_pushWithin (le : capacity ≤ capacity') (spare : Nat) (value : ε) :
    Checked capacity (pushWithin capacity spare value) (pushWithin capacity' spare value) := by
  have checked := checked_room (ε := ε) le spare
  refine ⟨checked.toExtends.bind fun _ => extends_push value, ?_, ?_⟩
  · intro array
    rcases checked.returns array with ⟨⟨middle, result⟩, ended⟩
    rw [pushWithin, bind_apply, ended]
    cases result with
    | none => exact ⟨_, rfl⟩
    | some _ => exact ⟨_, rfl⟩
  · intro array array' result ended within
    rcases bind_eq_some_iff.mp ended with ⟨failed, -⟩ | ⟨middle, _, passed, pushed⟩
    · exact checked.within _ _ _ failed within
    · rcases room_passed passed with ⟨rfl, left⟩
      cases pushed
      refine ⟨by simp only; omega, ?_⟩
      intro position mem
      rcases List.mem_cons.mp mem with rfl | mem
      · omega
      · exact within.stores position mem

theorem reservePosition_passed {array array' : ArrayState ε} {position : Nat}
    (passed : reservePosition capacity array = some (array', some position)) :
    position = array.used ∧ array.used < capacity ∧
      array' = { array with used := array.used + 1 } := by
  rcases bind_eq_value_iff.mp passed with ⟨middle, _, passed, reserved⟩
  rcases room_passed passed with ⟨rfl, left⟩
  cases reserved
  exact ⟨rfl, left, rfl⟩

theorem checked_reservePosition (le : capacity ≤ capacity') :
    Checked capacity (reservePosition capacity : StoreRun ε Nat) (reservePosition capacity') := by
  have checked := checked_room (ε := ε) le 0
  have behind : Extends (used >>= fun position => advance >>= fun _ => pure position :
      StoreRun ε Nat) (used >>= fun position => advance >>= fun _ => pure position) :=
    (@checked_used ε capacity).toExtends.bind fun position =>
      extends_advance.bind fun _ => extends_pure position
  refine ⟨checked.toExtends.bind fun _ => behind, ?_, ?_⟩
  · intro array
    rcases checked.returns array with ⟨⟨middle, result⟩, ended⟩
    rw [reservePosition, bind_apply, ended]
    cases result with
    | none => exact ⟨_, rfl⟩
    | some _ => exact ⟨_, rfl⟩
  · intro array array' result ended within
    rcases bind_eq_some_iff.mp ended with ⟨failed, -⟩ | ⟨middle, _, passed, pushed⟩
    · exact checked.within _ _ _ failed within
    · rcases room_passed passed with ⟨rfl, left⟩
      cases pushed
      exact ⟨by simp only; omega, within.stores⟩

theorem checked_pushAll (le : capacity ≤ capacity') (values : List ε) :
    Checked capacity (pushAll capacity values) (pushAll capacity' values) := by
  induction values with
  | nil => exact checked_pure ()
  | cons value values ih => exact (checked_pushWithin le 0 value).bind fun _ => ih

end Checked

def EndsAs (run run' : StoreRun ε α) : Prop :=
  ∀ array ended, run array = some ended → run' array = some ended

section EndsAs

variable {run run' : StoreRun ε α} {next next' : α → StoreRun ε β}

theorem endsAs_refl (run : StoreRun ε α) : EndsAs run run := fun _ _ same => same

theorem EndsAs.bind (first : EndsAs run run')
    (second : ∀ value, EndsAs (next value) (next' value)) :
    EndsAs (run >>= next) (run' >>= next') := by
  rintro array ⟨array', result⟩ ended
  rcases bind_eq_some_iff.mp ended with ⟨failed, rfl⟩ | ⟨middle, value, passed, ended⟩
  · exact bind_eq_some_iff.mpr (.inl ⟨first _ _ failed, rfl⟩)
  · exact bind_eq_some_iff.mpr (.inr ⟨middle, value, first _ _ passed, second value _ _ ended⟩)

theorem endsAs_ofOption {value value' : Option α} (same : ∀ result, value = some result →
    value' = some result) : EndsAs (ofOption value : StoreRun ε α) (ofOption value') := by
  intro array ended eq_some
  rcases Option.map_eq_some_iff.mp eq_some with ⟨result, result_eq, rfl⟩
  exact Option.map_eq_some_iff.mpr ⟨result, same result result_eq, rfl⟩

end EndsAs

end StoreRun

end NetSnmp
