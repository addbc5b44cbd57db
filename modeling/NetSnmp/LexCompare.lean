import Mathlib.Data.List.Lex
import NetSnmp.Reader.Basic

/-!
# Three-way lexicographic comparison

The result of a comparison routine is negative, zero or positive, as the first
list stands before, at or behind the second one in lexicographic order.
-/

namespace NetSnmp

variable {α : Type} [LinearOrder α]

/-- Compare two lists by the first position where they differ, and a list with one that continues
it by their lengths. -/
def lexCompare : List α → List α → Int
  | [], [] => 0
  | [], _ :: _ => -1
  | _ :: _, [] => 1
  | a :: as, b :: bs =>
      if a ≠ b then
        if a < b then -1 else 1
      else lexCompare as bs

theorem lexCompare_cons_self (a : α) (as bs : List α) :
    lexCompare (a :: as) (a :: bs) = lexCompare as bs := by
  simp [lexCompare]

@[simp]
theorem lexCompare_self (as : List α) : lexCompare as as = 0 := by
  induction as with
  | nil => rfl
  | cons a as ih => rw [lexCompare_cons_self, ih]

theorem lexCompare_of_lt {as bs : List α} (lt : as < bs) : lexCompare as bs = -1 := by
  induction as generalizing bs with
  | nil =>
      cases bs with
      | nil => exact absurd lt (lt_irrefl _)
      | cons b bs => rfl
  | cons a as ih =>
      cases bs with
      | nil => exact absurd lt (by simp)
      | cons b bs =>
          rcases List.cons_lt_cons_iff.mp lt with less | ⟨rfl, less⟩
          · simp [lexCompare, less, ne_of_lt less]
          · rw [lexCompare_cons_self]
            exact ih less

theorem lexCompare_of_gt {as bs : List α} (gt : bs < as) : lexCompare as bs = 1 := by
  induction as generalizing bs with
  | nil => exact absurd gt (by simp)
  | cons a as ih =>
      cases bs with
      | nil => rfl
      | cons b bs =>
          rcases List.cons_lt_cons_iff.mp gt with less | ⟨rfl, less⟩
          · simp [lexCompare, not_lt_of_gt less, ne_of_gt less]
          · rw [lexCompare_cons_self]
            exact ih less

theorem lexCompare_eq_zero_iff {as bs : List α} : lexCompare as bs = 0 ↔ as = bs := by
  constructor
  · intro zero
    rcases lt_trichotomy as bs with lt | eq | gt
    · rw [lexCompare_of_lt lt] at zero
      omega
    · exact eq
    · rw [lexCompare_of_gt gt] at zero
      omega
  · intro eq
    rw [eq, lexCompare_self]

theorem lexCompare_neg_iff {as bs : List α} : lexCompare as bs < 0 ↔ as < bs := by
  constructor
  · intro neg
    rcases lt_trichotomy as bs with lt | eq | gt
    · exact lt
    · rw [lexCompare_eq_zero_iff.mpr eq] at neg
      omega
    · rw [lexCompare_of_gt gt] at neg
      omega
  · intro lt
    rw [lexCompare_of_lt lt]
    omega

theorem lexCompare_pos_iff {as bs : List α} : 0 < lexCompare as bs ↔ bs < as := by
  constructor
  · intro pos
    rcases lt_trichotomy as bs with lt | eq | gt
    · rw [lexCompare_of_lt lt] at pos
      omega
    · rw [lexCompare_eq_zero_iff.mpr eq] at pos
      omega
    · exact gt
  · intro gt
    rw [lexCompare_of_gt gt]
    omega

end NetSnmp
