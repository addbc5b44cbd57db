import NetSnmp.Reader.Basic

/-!
# Insertion in front of the first element behind

A list that is kept in order by a key: a new element goes in front of the first
one with a greater key, and so behind those with the same key.
-/

namespace NetSnmp

variable {α κ : Type} [LinearOrder κ]

/-- Insert an element in front of the first one that is `behind`. -/
def insertBefore (behind : α → Bool) (element : α) : List α → List α
  | [] => [element]
  | other :: rest =>
      if behind other then element :: other :: rest
      else other :: insertBefore behind element rest

theorem mem_insertBefore {behind : α → Bool} {element other : α} {list : List α} :
    other ∈ insertBefore behind element list ↔ other = element ∨ other ∈ list := by
  induction list with
  | nil => simp [insertBefore]
  | cons first rest ih =>
      rw [insertBefore]
      split
      · simp
      · simp only [List.mem_cons, ih]
        exact or_left_comm

theorem insertBefore_perm (behind : α → Bool) (element : α) (list : List α) :
    (insertBefore behind element list).Perm (element :: list) := by
  induction list with
  | nil => exact List.Perm.refl _
  | cons first rest ih =>
      rw [insertBefore]
      split
      · exact List.Perm.refl _
      · exact (ih.cons first).trans (List.Perm.swap element first rest)

theorem exists_insertBefore (behind : α → Bool) (element : α) (list : List α) :
    ∃ front back, list = front ++ back ∧
      insertBefore behind element list = front ++ element :: back ∧
      (∀ other ∈ front, ¬ behind other = true) ∧ ∀ other ∈ back.head?, behind other = true := by
  induction list with
  | nil => exact ⟨[], [], rfl, rfl, by simp, by simp⟩
  | cons first rest ih =>
      by_cases isBehind : behind first = true
      · refine ⟨[], first :: rest, rfl, ?_, by simp, ?_⟩
        · rw [insertBefore, if_pos isBehind, List.nil_append]
        · intro other mem
          rwa [← Option.mem_some_iff.mp mem]
      · rcases ih with ⟨front, back, list_eq, inserted, before, after⟩
        refine ⟨first :: front, back, ?_, ?_, ?_, after⟩
        · rw [list_eq, List.cons_append]
        · rw [insertBefore, if_neg isBehind, inserted, List.cons_append]
        · intro other mem
          rcases List.mem_cons.mp mem with rfl | mem
          · exact isBehind
          · exact before other mem

def SortedBy (key : α → κ) (list : List α) : Prop :=
  list.Pairwise fun first second => key first ≤ key second

theorem SortedBy.insertBefore {key : α → κ} {behind : α → Bool} {element : α} {list : List α}
    (behind_iff : ∀ other ∈ list, behind other = true ↔ key element < key other)
    (sorted : SortedBy key list) : SortedBy key (insertBefore behind element list) := by
  induction list with
  | nil => exact List.pairwise_singleton _ _
  | cons first rest ih =>
      rcases List.pairwise_cons.mp sorted with ⟨first_le, sortedRest⟩
      rw [NetSnmp.insertBefore]
      split
      · rename_i isBehind
        have lt := (behind_iff first List.mem_cons_self).mp isBehind
        refine List.pairwise_cons.mpr ⟨?_, sorted⟩
        intro other mem
        rcases List.mem_cons.mp mem with rfl | mem
        · exact le_of_lt lt
        · exact le_trans (le_of_lt lt) (first_le other mem)
      · rename_i notBehind
        have le : key first ≤ key element := by
          rcases lt_or_ge (key element) (key first) with lt | ge
          · exact absurd ((behind_iff first List.mem_cons_self).mpr lt) notBehind
          · exact ge
        refine List.pairwise_cons.mpr ⟨?_, ih ?_ sortedRest⟩
        · intro other mem
          rcases mem_insertBefore.mp mem with rfl | mem
          · exact le
          · exact first_le other mem
        · intro other mem
          exact behind_iff other (List.mem_cons_of_mem _ mem)

theorem SortedBy.of_lt {κ' : Type} [LinearOrder κ'] {key : α → κ} {key' : α → κ'} {list : List α}
    (sorted : SortedBy key list)
    (lt_of_lt : ∀ first ∈ list, ∀ second ∈ list, key' first < key' second →
      key first < key second) :
    SortedBy key' list := by
  apply List.Pairwise.imp_of_mem _ sorted
  intro first second firstMem secondMem le
  apply le_of_not_gt
  intro gt
  exact absurd (lt_of_lt second secondMem first firstMem gt) (not_lt_of_ge le)

theorem SortedBy.sublist {key : α → κ} {list list' : List α} (sorted : SortedBy key list)
    (sublist : List.Sublist list' list) : SortedBy key list' :=
  List.Pairwise.sublist sublist sorted

theorem SortedBy.replace {key : α → κ} {front back : List α} {element element' : α}
    (sorted : SortedBy key (front ++ element :: back)) (same : key element' = key element) :
    SortedBy key (front ++ element' :: back) := by
  unfold SortedBy at sorted ⊢
  simp only [List.pairwise_append, List.pairwise_cons, List.mem_cons] at sorted ⊢
  rcases sorted with ⟨sortedFront, ⟨le_back, sortedBack⟩, le_all⟩
  refine ⟨sortedFront, ⟨?_, sortedBack⟩, ?_⟩
  · intro other mem
    rw [same]
    exact le_back other mem
  · rintro first firstMem second (rfl | mem)
    · rw [same]
      exact le_all first firstMem element (.inl rfl)
    · exact le_all first firstMem second (.inr mem)

end NetSnmp
