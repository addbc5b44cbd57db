import NetSnmp.SortedInsert

/-!
# Rows of a table by their keys

What a request for a key and a request for the next key have to return from a
table whose rows are kept in the order of their keys, and the walk that asks for
the next key again and again.
-/

namespace NetSnmp

variable {α κ : Type} [LinearOrder κ] {key : α → κ} {rows : List α}

/-- The row with the least key behind `bound`, and none only if no key is behind it. -/
def IsNext (key : α → κ) (rows : List α) (bound : κ) : Option α → Prop
  | none => ∀ row ∈ rows, ¬ bound < key row
  | some next =>
      (next ∈ rows ∧ bound < key next) ∧ ∀ row ∈ rows, bound < key row → key next ≤ key row

/-- A row with the key `wanted`, and none only if there is none. -/
def IsExactly (key : α → κ) (rows : List α) (wanted : κ) : Option α → Prop
  | none => ∀ row ∈ rows, key row ≠ wanted
  | some row => row ∈ rows ∧ key row = wanted

theorem SortedBy.key_le_of_find? {test : α → Bool} {first : α} (sorted : SortedBy key rows)
    (found : rows.find? test = some first) :
    ∀ row ∈ rows, test row = true → key first ≤ key row := by
  intro row mem passes
  rcases List.find?_eq_some_iff_append.mp found with ⟨-, front, back, rfl, rejected⟩
  rcases List.mem_append.mp mem with inFront | inBack
  · have fails := rejected row inFront
    rw [passes] at fails
    exact absurd fails (by simp)
  · rcases List.mem_cons.mp inBack with rfl | behind
    · exact le_rfl
    · have tail := (List.pairwise_append.mp sorted).2.1
      exact (List.pairwise_cons.mp tail).1 row behind

theorem isNext_find?_iff {test : α → Bool} {bound : κ} {isBehind : α → Prop}
    (sorted : SortedBy key rows) (test_iff : ∀ row ∈ rows, test row = true ↔ isBehind row)
    (upward : ∀ row ∈ rows, ∀ row' ∈ rows, isBehind row → key row ≤ key row' → isBehind row') :
    IsNext key rows bound (rows.find? test) ↔
      ∀ row ∈ rows, (bound < key row ↔ isBehind row) := by
  cases found : rows.find? test with
  | none =>
      have noneBehind : ∀ row ∈ rows, ¬ isBehind row := by
        intro row mem behind
        exact List.find?_eq_none.mp found row mem ((test_iff row mem).mpr behind)
      constructor
      · intro noneNext row mem
        exact iff_of_false (noneNext row mem) (noneBehind row mem)
      · intro agree row mem behind
        exact noneBehind row mem ((agree row mem).mp behind)
  | some first =>
      have firstMem := List.mem_of_find?_eq_some found
      have firstBehind := (test_iff first firstMem).mp (List.find?_some found)
      have first_le := sorted.key_le_of_find? found
      constructor
      · rintro ⟨⟨-, bound_lt⟩, least⟩ row mem
        constructor
        · intro behind
          exact upward first firstMem row mem firstBehind (least row mem behind)
        · intro behind
          exact lt_of_lt_of_le bound_lt (first_le row mem ((test_iff row mem).mpr behind))
      · intro agree
        refine ⟨⟨firstMem, (agree first firstMem).mpr firstBehind⟩, ?_⟩
        intro row mem behind
        exact first_le row mem ((test_iff row mem).mpr ((agree row mem).mp behind))

omit [LinearOrder κ] in
theorem isExactly_find?_iff {test : α → Bool} {wanted : κ}
    (accepts : ∀ row ∈ rows, key row = wanted → test row = true) :
    IsExactly key rows wanted (rows.find? test) ↔
      ∀ row, rows.find? test = some row → key row = wanted := by
  cases found : rows.find? test with
  | none =>
      constructor
      · intro _ row absurdity
        exact absurd absurdity (by simp)
      · intro _ row mem same
        exact List.find?_eq_none.mp found row mem (accepts row mem same)
  | some first =>
      constructor
      · rintro ⟨-, same⟩ row first_eq
        rcases Option.some.inj first_eq with rfl
        exact same
      · intro only
        exact ⟨List.mem_of_find?_eq_some found, only first rfl⟩

/-- Ask for the next row again and again, each time from the name of the last one. -/
def walk (next : κ → Option (α × κ)) : (steps : Nat) → (bound : κ) → List (α × κ)
  | 0, _ => []
  | steps + 1, bound =>
      match next bound with
      | none => []
      | some (row, name) => (row, name) :: walk next steps name

theorem IsNext.eq_head? {front back : List α} {bound : κ} {next : Option α}
    (isNext : IsNext key (front ++ back) bound next)
    (increasing : (front ++ back).Pairwise fun first second => key first < key second)
    (front_le : ∀ row ∈ front, key row ≤ bound) (lt_back : ∀ row ∈ back, bound < key row) :
    next = back.head? := by
  cases back with
  | nil =>
      cases next with
      | none => rfl
      | some row =>
          rcases isNext with ⟨⟨mem, lt⟩, -⟩
          rw [List.append_nil] at mem
          exact absurd lt (not_lt_of_ge (front_le row mem))
  | cons first rest =>
      have firstMem : first ∈ front ++ first :: rest := by simp
      have bound_lt := lt_back first List.mem_cons_self
      cases next with
      | none => exact absurd bound_lt (isNext first firstMem)
      | some row =>
          rcases isNext with ⟨⟨mem, lt⟩, least⟩
          have le := least first firstMem bound_lt
          rcases List.mem_append.mp mem with inFront | inBack
          · exact absurd lt (not_lt_of_ge (front_le row inFront))
          · rcases List.mem_cons.mp inBack with rfl | behind
            · rfl
            · have tail := (List.pairwise_append.mp increasing).2.1
              have firstLt := (List.pairwise_cons.mp tail).1 row behind
              exact absurd firstLt (not_lt_of_ge le)

theorem walk_eq_map {next : κ → Option (α × κ)} {steps : Nat} {front back : List α} {bound : κ}
    (increasing : (front ++ back).Pairwise fun first second => key first < key second)
    (isNext : ∀ from', from' = bound ∨ from' ∈ back.map key →
      IsNext key (front ++ back) from' ((next from').map Prod.fst))
    (named : ∀ from' row name, next from' = some (row, name) → row ∈ front ++ back → name = key row)
    (front_le : ∀ row ∈ front, key row ≤ bound) (lt_back : ∀ row ∈ back, bound < key row)
    (enough : back.length < steps) :
    walk next steps bound = back.map fun row => (row, key row) := by
  induction back generalizing steps front bound with
  | nil =>
      cases steps with
      | zero => exact absurd enough (by simp)
      | succ steps =>
          have first := (isNext bound (.inl rfl)).eq_head? increasing front_le lt_back
          have none : next bound = none := by simpa using first
          rw [walk, none]
          rfl
  | cons row rest ih =>
      cases steps with
      | zero => exact absurd enough (by simp)
      | succ steps =>
          have first := (isNext bound (.inl rfl)).eq_head? increasing front_le lt_back
          rcases Option.map_eq_some_iff.mp first with ⟨⟨row', name⟩, answer, rfl⟩
          have name_eq := named bound row' name answer (by simp)
          subst name_eq
          have split : front ++ row' :: rest = (front ++ [row']) ++ rest := by simp
          have tail := (List.pairwise_append.mp increasing).2.1
          rw [walk, answer]
          simp only [List.map_cons]
          congr 1
          have increasing' := split ▸ increasing
          apply ih increasing'
          · intro from' isKey
            rw [← split]
            apply isNext
            rcases isKey with rfl | later
            · exact .inr (by simp)
            · exact .inr (List.mem_cons_of_mem _ later)
          · rwa [← split]
          · intro other mem
            rcases List.mem_append.mp mem with inFront | isRow
            · exact le_of_lt ((List.pairwise_append.mp increasing).2.2 other inFront row'
                List.mem_cons_self)
            · rw [List.mem_singleton.mp isRow]
          · exact (List.pairwise_cons.mp tail).1
          · simpa using enough

end NetSnmp
