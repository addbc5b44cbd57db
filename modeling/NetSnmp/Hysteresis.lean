import Mathlib.Data.List.Basic
import Mathlib.Data.Option.Basic

/-!
# Hysteresis

Two thresholds on a sequence of samples, some of which are missing.  A latch says
for each threshold whether its next crossing counts: it does if it is the first one
since the samples began again or since the last crossing of the other threshold.
Histories are lists, the latest sample first.
-/

namespace NetSnmp

variable {α : Type}

/-- Every sample of the history that is `raised` was followed by one that is missing or
`cleared`. -/
def FirstSince (raised cleared : α → Prop) (history : List (Option α)) : Prop :=
  ∀ after w before, history = after ++ some w :: before → raised w →
    ∃ sample ∈ after, ∀ v, sample = some v → cleared v

def QuietSince (raised cleared : α → Prop) : List (Option α) → Prop
  | [] => True
  | none :: _ => True
  | some w :: before => cleared w ∨ (¬ raised w ∧ QuietSince raised cleared before)

structure Latch where
  rise : Bool
  fall : Bool
  deriving DecidableEq, Repr

namespace Latch

def both : Latch := ⟨true, true⟩

/-- A sample is at or beyond the upper threshold (`high`), or the lower one (`low`). -/
def step (high low : Bool) (latch : Latch) : Latch :=
  let risen := if high && latch.rise then ⟨false, true⟩ else latch
  if low && risen.fall then ⟨true, false⟩ else risen

end Latch

section Histories

variable {raised cleared : α → Prop} {history : List (Option α)}

theorem firstSince_nil : FirstSince raised cleared [] := by
  intro after w before eq
  exact absurd eq (by simp)

theorem quietSince_iff_firstSince (apart : ∀ v, raised v → ¬ cleared v) :
    QuietSince raised cleared history ↔ FirstSince raised cleared history := by
  induction history with
  | nil => exact iff_of_true trivial firstSince_nil
  | cons sample before ih =>
      cases sample with
      | none =>
          refine iff_of_true trivial ?_
          intro after w before' eq _
          cases after with
          | nil => cases eq
          | cons sample after =>
              cases eq
              exact ⟨none, List.mem_cons_self, by simp⟩
      | some v =>
          rw [QuietSince, ih]
          constructor
          · rintro (isCleared | ⟨notRaised, quiet⟩) after w before' eq isRaised
            · cases after with
              | nil =>
                  cases eq
                  exact absurd isCleared (apart _ isRaised)
              | cons sample after =>
                  cases eq
                  refine ⟨some v, List.mem_cons_self, ?_⟩
                  rintro _ ⟨⟩
                  exact isCleared
            · cases after with
              | nil =>
                  cases eq
                  exact absurd isRaised notRaised
              | cons sample after =>
                  cases eq
                  rcases quiet after w before' rfl isRaised with ⟨sample, mem, clears⟩
                  exact ⟨sample, List.mem_cons_of_mem _ mem, clears⟩
          · intro first
            by_cases isCleared : cleared v
            · exact Or.inl isCleared
            · refine Or.inr ⟨?_, ?_⟩
              · intro isRaised
                rcases first [] v before rfl isRaised with ⟨sample, mem, -⟩
                cases mem
              · intro after w before' eq isRaised
                rcases first (some v :: after) w before' (by rw [eq]; rfl) isRaised with
                  ⟨sample, mem, clears⟩
                rcases List.mem_cons.mp mem with rfl | mem'
                · exact absurd (clears v rfl) isCleared
                · exact ⟨sample, mem', clears⟩

theorem quietSince_or_quietSince (raised cleared : α → Prop) (history : List (Option α)) :
    QuietSince raised cleared history ∨ QuietSince cleared raised history := by
  induction history with
  | nil => exact Or.inl trivial
  | cons sample before ih =>
      cases sample with
      | none => exact Or.inl trivial
      | some v =>
          by_cases isCleared : cleared v
          · exact Or.inl (Or.inl isCleared)
          · by_cases isRaised : raised v
            · exact Or.inr (Or.inl isRaised)
            · rcases ih with quiet | quiet
              · exact Or.inl (Or.inr ⟨isRaised, quiet⟩)
              · exact Or.inr (Or.inr ⟨isCleared, quiet⟩)

def Latch.For (raised cleared : α → Prop) (history : List (Option α)) (latch : Latch) : Prop :=
  (latch.rise = true ↔ QuietSince raised cleared history) ∧
    (latch.fall = true ↔ QuietSince cleared raised history)

theorem Latch.For.step {latch : Latch} (stands : latch.For raised cleared history) {v : α}
    {high low : Bool} (high_iff : high = true ↔ raised v) (low_iff : low = true ↔ cleared v)
    (apart : ¬ (raised v ∧ cleared v)) :
    (latch.step high low).For raised cleared (some v :: history) := by
  have either := quietSince_or_quietSince raised cleared history
  rw [← stands.1, ← stands.2] at either
  simp only [Latch.For, QuietSince, ← stands.1, ← stands.2, ← high_iff, ← low_iff] at *
  rcases latch with ⟨rise, fall⟩
  cases high <;> cases low <;> cases rise <;> cases fall <;> simp_all [Latch.step]

theorem exists_first_cleared {after : List (Option α)} (present : ∀ sample ∈ after, sample ≠ none)
    (clears : ∃ sample ∈ after, ∀ v, sample = some v → cleared v) :
    ∃ later u earlier, after = later ++ some u :: earlier ∧ cleared u ∧
      ∀ sample ∈ earlier, ∃ v, sample = some v ∧ ¬ cleared v := by
  induction after with
  | nil =>
      rcases clears with ⟨sample, mem, -⟩
      cases mem
  | cons sample after ih =>
      by_cases earlier : ∃ sample ∈ after, ∀ v, sample = some v → cleared v
      · rcases ih (fun s mem => present s (List.mem_cons_of_mem _ mem)) earlier with
          ⟨later, u, rest, rfl, isCleared, none⟩
        exact ⟨sample :: later, u, rest, rfl, isCleared, none⟩
      · rcases clears with ⟨sample', mem, isCleared⟩
        rcases List.mem_cons.mp mem with rfl | mem'
        · rcases Option.ne_none_iff_exists'.mp (present _ List.mem_cons_self) with ⟨u, rfl⟩
          refine ⟨[], u, after, rfl, isCleared u rfl, ?_⟩
          intro s memS
          rcases Option.ne_none_iff_exists'.mp (present s (List.mem_cons_of_mem _ memS)) with
            ⟨v, rfl⟩
          refine ⟨v, rfl, ?_⟩
          intro clearedV
          exact earlier ⟨some v, memS, by rintro _ ⟨⟩; exact clearedV⟩
        · exact absurd ⟨sample', mem', isCleared⟩ earlier

theorem FirstSince.alternates {after before : List (Option α)} {w : α} (isRaised : raised w)
    (present : ∀ sample ∈ after, sample ≠ none)
    (first : FirstSince raised cleared (after ++ some w :: before))
    (apart : ∀ v, cleared v → ¬ raised v) :
    ∃ later u earlier, after = later ++ some u :: earlier ∧ cleared u ∧
      FirstSince cleared raised (earlier ++ some w :: before) := by
  rcases exists_first_cleared present (first after w before rfl isRaised) with
    ⟨later, u, earlier, rfl, isCleared, none⟩
  refine ⟨later, u, earlier, rfl, isCleared, (quietSince_iff_firstSince apart).mp ?_⟩
  clear present first
  induction earlier with
  | nil => exact Or.inl isRaised
  | cons sample earlier ih =>
      rcases none sample List.mem_cons_self with ⟨v, rfl, notCleared⟩
      refine Or.inr ⟨notCleared, ih ?_⟩
      intro s mem
      exact none s (List.mem_cons_of_mem _ mem)

end Histories

end NetSnmp
