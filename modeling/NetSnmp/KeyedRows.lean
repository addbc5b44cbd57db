import Mathlib.Data.List.Nodup
import NetSnmp.TableWalk

/-!
# A sorted list as a map

A list in strictly increasing order of a key holds at most one row for each key.
What is done to the list (a row assigned to, inserted, taken out) is then done to
the map from keys to rows.
-/

namespace NetSnmp

variable {α κ : Type} [LinearOrder κ] {key : α → κ} {rows rows' : List α} {k k₀ : κ}

def Increasing (key : α → κ) (rows : List α) : Prop :=
  rows.Pairwise fun first second => key first < key second

def rowWith (key : α → κ) (rows : List α) (k : κ) : Option α := rows.find? fun row => key row = k

def assignRow [DecidableEq α] (found row' : α) : List α → List α
  | [] => []
  | row :: rest => if row = found then row' :: rest else row :: assignRow found row' rest

theorem rowWith_eq_none_iff : rowWith key rows k = none ↔ ∀ row ∈ rows, key row ≠ k := by
  simp [rowWith]

namespace Increasing

theorem eq_of_key_eq (increasing : Increasing key rows) {first second : α} (firstMem : first ∈ rows)
    (secondMem : second ∈ rows) (same : key first = key second) : first = second := by
  have nodup : (rows.map key).Nodup := List.pairwise_map.mpr (increasing.imp ne_of_lt)
  exact List.inj_on_of_nodup_map nodup firstMem secondMem same

theorem flatMap_eq {β : Type} (increasing : Increasing key rows) {row : α} (mem : row ∈ rows)
    {part : α → List β} (others : ∀ row' ∈ rows, key row' ≠ key row → part row' = []) :
    rows.flatMap part = part row := by
  rcases List.append_of_mem mem with ⟨front, back, rfl⟩
  have apart := List.pairwise_append.mp increasing
  have before : front.flatMap part = [] := by
    refine List.flatMap_eq_nil_iff.mpr ?_
    intro row' memFront
    exact others row' (List.mem_append_left _ memFront)
      (apart.2.2 row' memFront row List.mem_cons_self).ne
  have after : back.flatMap part = [] := by
    refine List.flatMap_eq_nil_iff.mpr ?_
    intro row' memBack
    exact others row' (List.mem_append_right _ (List.mem_cons_of_mem _ memBack))
      ((List.pairwise_cons.mp apart.2.1).1 row' memBack).ne'
  rw [List.flatMap_append, List.flatMap_cons, before, after, List.nil_append, List.append_nil]

theorem rowWith_eq_some_iff (increasing : Increasing key rows) {row : α} :
    rowWith key rows k = some row ↔ row ∈ rows ∧ key row = k := by
  constructor
  · intro found
    have same := List.find?_some found
    exact ⟨List.mem_of_find?_eq_some found, of_decide_eq_true same⟩
  · rintro ⟨mem, same⟩
    cases found : rowWith key rows k with
    | none => exact absurd same (rowWith_eq_none_iff.mp found row mem)
    | some row' =>
        have mem' := List.mem_of_find?_eq_some found
        have same' := List.find?_some found
        rw [increasing.eq_of_key_eq mem' mem ((of_decide_eq_true same').trans same.symm)]

theorem isExactly_iff (increasing : Increasing key rows) {answer : Option α} :
    IsExactly key rows k answer ↔ answer = rowWith key rows k := by
  cases answer with
  | none => exact rowWith_eq_none_iff.symm.trans eq_comm
  | some row => exact increasing.rowWith_eq_some_iff.symm.trans eq_comm

theorem rowWith_eq_ite {new : Option α} (increasing : Increasing key rows)
    (increasing' : Increasing key rows') (new_key : ∀ row, new = some row → key row = k₀)
    (mem_iff : ∀ row, row ∈ rows' ↔ (row ∈ rows ∧ key row ≠ k₀) ∨ new = some row) :
    rowWith key rows' k = if k = k₀ then new else rowWith key rows k := by
  apply Option.ext
  intro row
  rw [increasing'.rowWith_eq_some_iff, mem_iff]
  by_cases here : k = k₀
  · subst here
    rw [if_pos rfl]
    constructor
    · rintro ⟨⟨-, ne⟩ | isNew, same⟩
      · exact absurd same ne
      · exact isNew
    · intro isNew
      exact ⟨.inr isNew, new_key row isNew⟩
  · rw [if_neg here, increasing.rowWith_eq_some_iff]
    constructor
    · rintro ⟨⟨mem, -⟩ | isNew, same⟩
      · exact ⟨mem, same⟩
      · exact absurd (same.symm.trans (new_key row isNew)) here
    · rintro ⟨mem, rfl⟩
      exact ⟨.inl ⟨mem, here⟩, rfl⟩

section Assign

variable [DecidableEq α] {found row' : α}

theorem assignRow (increasing : Increasing key rows) (same : key row' = key found) :
    Increasing key (assignRow found row' rows) := by
  have mem_key : ∀ {rows : List α} {row : α}, row ∈ NetSnmp.assignRow found row' rows →
      ∃ row'' ∈ rows, key row'' = key row := by
    intro rows row mem
    induction rows with
    | nil => exact absurd mem (by simp [NetSnmp.assignRow])
    | cons first rest ih =>
        rw [NetSnmp.assignRow] at mem
        split at mem
        · rename_i isFound
          rcases List.mem_cons.mp mem with rfl | later
          · exact ⟨first, List.mem_cons_self, by rw [isFound, same]⟩
          · exact ⟨row, List.mem_cons_of_mem _ later, rfl⟩
        · rcases List.mem_cons.mp mem with rfl | later
          · exact ⟨row, List.mem_cons_self, rfl⟩
          · rcases ih later with ⟨row'', mem'', key_eq⟩
            exact ⟨row'', List.mem_cons_of_mem _ mem'', key_eq⟩
  induction rows with
  | nil => exact List.Pairwise.nil
  | cons first rest ih =>
      rcases List.pairwise_cons.mp increasing with ⟨first_lt, rest_increasing⟩
      rw [NetSnmp.assignRow]
      split
      · rename_i isFound
        refine List.pairwise_cons.mpr ⟨?_, rest_increasing⟩
        intro row mem
        rw [same, ← isFound]
        exact first_lt row mem
      · refine List.pairwise_cons.mpr ⟨?_, ih rest_increasing⟩
        intro row mem
        rcases mem_key mem with ⟨row'', mem'', key_eq⟩
        rw [← key_eq]
        exact first_lt row'' mem''

theorem mem_assignRow (increasing : Increasing key rows) (foundMem : found ∈ rows)
    (same : key row' = key found) {row : α} :
    row ∈ NetSnmp.assignRow found row' rows ↔ (row ∈ rows ∧ key row ≠ key found) ∨ row = row' := by
  induction rows with
  | nil => exact absurd foundMem (by simp)
  | cons first rest ih =>
      rcases List.pairwise_cons.mp increasing with ⟨first_lt, rest_increasing⟩
      rw [NetSnmp.assignRow]
      split
      · rename_i isFound
        subst isFound
        rw [List.mem_cons, List.mem_cons]
        constructor
        · rintro (rfl | later)
          · exact .inr rfl
          · exact .inl ⟨.inr later, ne_of_gt (first_lt row later)⟩
        · rintro (⟨rfl | later, ne⟩ | isNew)
          · exact absurd rfl ne
          · exact .inr later
          · exact .inl isNew
      · rename_i notFound
        have foundMem' : found ∈ rest := (List.mem_cons.mp foundMem).resolve_left (Ne.symm notFound)
        have first_ne : key first ≠ key found := ne_of_lt (first_lt found foundMem')
        rw [List.mem_cons, List.mem_cons, ih rest_increasing foundMem']
        constructor
        · rintro (rfl | ⟨later, ne⟩ | isNew)
          · exact .inl ⟨.inl rfl, first_ne⟩
          · exact .inl ⟨.inr later, ne⟩
          · exact .inr isNew
        · rintro (⟨rfl | later, ne⟩ | isNew)
          · exact .inl rfl
          · exact .inr (.inl ⟨later, ne⟩)
          · exact .inr (.inr isNew)

theorem rowWith_assignRow (increasing : Increasing key rows) (foundMem : found ∈ rows)
    (same : key row' = key found) :
    rowWith key (NetSnmp.assignRow found row' rows) k =
      if k = key found then some row' else rowWith key rows k := by
  apply rowWith_eq_ite increasing (increasing.assignRow same)
  · intro row isNew
    rcases Option.some.inj isNew with rfl
    exact same
  · intro row
    rw [increasing.mem_assignRow foundMem same, Option.some.injEq, eq_comm (a := row)]

end Assign

section Insert

variable {behind : α → Bool} {element : α}

theorem insertBefore (increasing : Increasing key rows)
    (behind_iff : ∀ other ∈ rows, behind other = true ↔ key element < key other)
    (fresh : ∀ other ∈ rows, key other ≠ key element) :
    Increasing key (insertBefore behind element rows) := by
  have sorted : SortedBy key (NetSnmp.insertBefore behind element rows) :=
    SortedBy.insertBefore behind_iff (List.Pairwise.imp le_of_lt increasing)
  have distinct : (element :: rows).Pairwise fun first second => key first ≠ key second :=
    List.pairwise_cons.mpr
      ⟨fun other mem => Ne.symm (fresh other mem), List.Pairwise.imp ne_of_lt increasing⟩
  have distinct' := (insertBefore_perm behind element rows).symm.pairwise distinct (Ne.symm ·)
  exact (List.Pairwise.and sorted distinct').imp fun both => lt_of_le_of_ne both.1 both.2

theorem rowWith_insertBefore (increasing : Increasing key rows)
    (behind_iff : ∀ other ∈ rows, behind other = true ↔ key element < key other)
    (fresh : ∀ other ∈ rows, key other ≠ key element) :
    rowWith key (NetSnmp.insertBefore behind element rows) k =
      if k = key element then some element else rowWith key rows k := by
  apply rowWith_eq_ite increasing (increasing.insertBefore behind_iff fresh)
  · intro row isNew
    rcases Option.some.inj isNew with rfl
    rfl
  · intro row
    rw [mem_insertBefore, Option.some.injEq, eq_comm (a := row)]
    constructor
    · rintro (isNew | old)
      · exact .inr isNew
      · exact .inl ⟨old, fresh row old⟩
    · rintro (⟨old, -⟩ | isNew)
      · exact .inr old
      · exact .inl isNew

end Insert

section Erase

variable {isRow : α → Bool}

theorem eraseP (increasing : Increasing key rows) : Increasing key (rows.eraseP isRow) :=
  List.Pairwise.sublist List.eraseP_sublist increasing

theorem rowWith_eraseP (increasing : Increasing key rows)
    (isRow_iff : ∀ row ∈ rows, isRow row = true ↔ key row = k₀) :
    rowWith key (rows.eraseP isRow) k = if k = k₀ then none else rowWith key rows k := by
  apply rowWith_eq_ite increasing increasing.eraseP
  · intro row absurdity
    exact absurd absurdity (by simp)
  · intro row
    constructor
    · intro mem
      have mem' := List.mem_of_mem_eraseP mem
      refine .inl ⟨mem', fun same => ?_⟩
      rcases List.exists_of_eraseP mem' ((isRow_iff row mem').mpr same) with
        ⟨first, front, back, noneBefore, isFirst, rfl, rest_eq⟩
      have same' := (isRow_iff first (by simp)).mp isFirst
      rw [rest_eq] at mem
      rcases List.mem_append.mp mem with inFront | inBack
      · exact noneBefore row inFront ((isRow_iff row mem').mpr same)
      · have tail := (List.pairwise_append.mp increasing).2.1
        have lt := (List.pairwise_cons.mp tail).1 row inBack
        exact absurd (same'.trans same.symm) (ne_of_lt lt)
    · rintro (⟨mem, ne⟩ | absurdity)
      · exact (List.mem_eraseP_of_neg fun isIt => ne ((isRow_iff row mem).mp isIt)).mpr mem
      · exact absurd absurdity (by simp)

end Erase

end Increasing

/-- The second list has another row, or none, for one key, and the rows of the first one for the
others. -/
structure ChangedAt (key : α → κ) (rows rows' : List α) (k₀ : κ) (new : Option α) : Prop where
  increasing : Increasing key rows'
  rowWith : ∀ k, rowWith key rows' k = if k = k₀ then new else rowWith key rows k

namespace ChangedAt

variable {rows'' : List α} {new new' : Option α}

theorem trans (first : ChangedAt key rows rows' k₀ new)
    (second : ChangedAt key rows' rows'' k₀ new') :
    ChangedAt key rows rows'' k₀ new' := by
  refine ⟨second.increasing, fun k => ?_⟩
  rw [second.rowWith]
  by_cases here : k = k₀
  · rw [if_pos here, if_pos here]
  · rw [if_neg here, if_neg here, first.rowWith, if_neg here]

theorem assignRow [DecidableEq α] {found row' : α} (increasing : Increasing key rows)
    (looked : NetSnmp.rowWith key rows k₀ = some found) (same : key row' = key found) :
    ChangedAt key rows (NetSnmp.assignRow found row' rows) k₀ (some row') := by
  rcases increasing.rowWith_eq_some_iff.mp looked with ⟨mem, rfl⟩
  exact ⟨increasing.assignRow same, fun k => increasing.rowWith_assignRow mem same⟩

theorem insertBefore {behind : α → Bool} {element : α} (increasing : Increasing key rows)
    (behind_iff : ∀ other ∈ rows, behind other = true ↔ key element < key other)
    (absent : NetSnmp.rowWith key rows (key element) = none) :
    ChangedAt key rows (NetSnmp.insertBefore behind element rows) (key element) (some element) := by
  have fresh := rowWith_eq_none_iff.mp absent
  exact ⟨increasing.insertBefore behind_iff fresh,
    fun k => increasing.rowWith_insertBefore behind_iff fresh⟩

theorem assignRow_insertBefore [DecidableEq α] {behind : α → Bool} {element element' : α}
    (increasing : Increasing key rows)
    (behind_iff : ∀ other ∈ rows, behind other = true ↔ key element < key other)
    (absent : NetSnmp.rowWith key rows k₀ = none) (isKey : key element' = k₀)
    (same : key element' = key element) :
    ChangedAt key rows
      (NetSnmp.assignRow element element' (NetSnmp.insertBefore behind element rows)) k₀
      (some element') := by
  rw [same] at isKey
  subst isKey
  have inserted := ChangedAt.insertBefore increasing behind_iff absent
  have looked : NetSnmp.rowWith key (NetSnmp.insertBefore behind element rows) (key element) =
      some element := by
    rw [inserted.rowWith, if_pos rfl]
  exact inserted.trans (.assignRow inserted.increasing looked same)

theorem eraseP {isRow : α → Bool} (increasing : Increasing key rows)
    (isRow_iff : ∀ row ∈ rows, isRow row = true ↔ key row = k₀) :
    ChangedAt key rows (rows.eraseP isRow) k₀ none :=
  ⟨increasing.eraseP, fun _ => increasing.rowWith_eraseP isRow_iff⟩

end ChangedAt

/-- Only rows of the keys in `touched` change, and only those of keys in `resized` come or go. -/
structure RowsChange (key : α → κ) (touched resized : κ → Prop) (rows rows' : List α) : Prop where
  increasing : Increasing key rows'
  others : ∀ k, ¬ touched k → rowWith key rows' k = rowWith key rows k
  kept : ∀ k, ¬ resized k → (rowWith key rows' k).isSome = (rowWith key rows k).isSome

namespace RowsChange

variable {touched resized touched' resized' : κ → Prop} {rows'' : List α}

theorem refl (increasing : Increasing key rows) : RowsChange key touched resized rows rows :=
  ⟨increasing, fun _ _ => rfl, fun _ _ => rfl⟩

theorem trans (first : RowsChange key touched resized rows rows')
    (second : RowsChange key touched resized rows' rows'') :
    RowsChange key touched resized rows rows'' := by
  refine ⟨second.increasing, ?_, ?_⟩
  · intro k untouched
    exact (second.others k untouched).trans (first.others k untouched)
  · intro k same
    exact (second.kept k same).trans (first.kept k same)

theorem mono (change : RowsChange key touched resized rows rows')
    (more : ∀ k, touched k → touched' k) (moreResized : ∀ k, resized k → resized' k) :
    RowsChange key touched' resized' rows rows' := by
  refine ⟨change.increasing, ?_, ?_⟩
  · intro k untouched
    exact change.others k (mt (more k) untouched)
  · intro k same
    exact change.kept k (mt (moreResized k) same)

theorem of_changedAt {new : Option α} (changed : ChangedAt key rows rows' k₀ new)
    (isTouched : touched k₀) (size : resized k₀ ∨ new.isSome = (rowWith key rows k₀).isSome) :
    RowsChange key touched resized rows rows' := by
  refine ⟨changed.increasing, ?_, ?_⟩
  · intro k untouched
    have other : k ≠ k₀ := by
      rintro rfl
      exact untouched isTouched
    rw [changed.rowWith, if_neg other]
  · intro k same
    rw [changed.rowWith]
    split
    · rename_i here
      subst here
      exact size.resolve_left same
    · rfl

end RowsChange

end NetSnmp
