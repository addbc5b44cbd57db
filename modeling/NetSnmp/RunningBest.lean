import Mathlib.Data.List.Induction
import Mathlib.Data.Prod.Lex
import NetSnmp.SortedInsert

/-!
# A running best

A loop visits a list and keeps one element, which every later one may replace.
If the test for replacing an element is not the order in which the best element
is sought, the loop may give up the best element for a worse one.  This
characterises when it does not, for a list that is kept in an order in which
elements that tie stand at the same place, and what is kept of a list in any
order.
-/

namespace NetSnmp

variable {α κ ι : Type} [LinearOrder κ] [LinearOrder ι]

def keepBest (replaces : α → α → Bool) (best : Option α) (candidate : α) : Option α :=
  match best with
  | none => some candidate
  | some current => if replaces current candidate then some candidate else some current

/-- The result is there when the list is not empty, and is then an element with a greatest key. -/
def IsBest (key : α → κ) (list : List α) : Option α → Prop
  | none => list = []
  | some best => best ∈ list ∧ ∀ other ∈ list, key other ≤ key best

def Displaced (key : α → κ) (position : α → ι) (replaces : α → α → Bool) (list : List α) : Prop :=
  ∃ best ∈ list, (∀ other ∈ list, key other ≤ key best) ∧
    ∃ other ∈ list, position best < position other ∧ replaces best other = true

section Fold

variable {replaces : α → α → Bool}

theorem keepBest_of_replaced {current candidate : α}
    (replaced : replaces current candidate = true) :
    keepBest replaces (some current) candidate = some candidate :=
  if_pos replaced

theorem keepBest_of_kept {current candidate : α} (kept : replaces current candidate = false) :
    keepBest replaces (some current) candidate = some current :=
  if_neg (Bool.eq_false_iff.mp kept)

theorem foldl_keepBest_of_not_replaced {current : α} {list : List α}
    (kept : ∀ other ∈ list, replaces current other = false) :
    list.foldl (keepBest replaces) (some current) = some current := by
  induction list with
  | nil => rfl
  | cons first rest ih =>
      rw [List.foldl_cons, keepBest_of_kept (kept first List.mem_cons_self)]
      apply ih
      intro other mem
      exact kept other (List.mem_cons_of_mem _ mem)

theorem foldl_keepBest_mem (replaces : α → α → Bool) (current : α) (list : List α) :
    ∃ best ∈ current :: list, list.foldl (keepBest replaces) (some current) = some best := by
  induction list generalizing current with
  | nil => exact ⟨current, List.mem_cons_self, rfl⟩
  | cons first rest ih =>
      rw [List.foldl_cons]
      by_cases replaced : replaces current first = true
      · rcases ih first with ⟨best, mem, eq⟩
        exact ⟨best, List.mem_cons_of_mem _ mem, by rw [keepBest_of_replaced replaced, eq]⟩
      · rcases ih current with ⟨best, mem, eq⟩
        have kept := Bool.eq_false_iff.mpr replaced
        refine ⟨best, ?_, by rw [keepBest_of_kept kept, eq]⟩
        rcases List.mem_cons.mp mem with rfl | mem
        · exact List.mem_cons_self
        · exact List.mem_cons_of_mem _ (List.mem_cons_of_mem _ mem)

theorem foldl_keepBest_reaches {front : List α} {best : α}
    (better : ∀ other ∈ front, replaces other best = true) :
    (front ++ [best]).foldl (keepBest replaces) none = some best := by
  rw [List.foldl_append]
  cases front with
  | nil => rfl
  | cons first rest =>
      rcases foldl_keepBest_mem replaces first rest with ⟨current, mem, eq⟩
      change keepBest replaces (rest.foldl (keepBest replaces) (some first)) best = some best
      rw [eq, keepBest_of_replaced (better current mem)]

end Fold

theorem isBest_foldl_keepBest {key : α → κ} {replaces : α → α → Bool} {list : List α}
    (tested : list.Pairwise fun first second =>
      (key first < key second → replaces first second = true) ∧
        (replaces first second = true → key first ≤ key second)) :
    IsBest key list (list.foldl (keepBest replaces) none) := by
  induction list using List.reverseRecOn with
  | nil => rfl
  | append_singleton front last ih =>
      rcases List.pairwise_append.mp tested with ⟨testedFront, -, testedLast⟩
      have isBest := ih testedFront
      rw [List.foldl_append, List.foldl_cons, List.foldl_nil]
      cases found : front.foldl (keepBest replaces) none with
      | none =>
          rw [found] at isBest
          have empty : front = [] := isBest
          subst empty
          exact ⟨List.mem_singleton_self last, by simp⟩
      | some best =>
          rw [found] at isBest
          rcases isBest with ⟨bestMem, greatest⟩
          rcases testedLast best bestMem last (List.mem_singleton_self last) with ⟨better, notWorse⟩
          by_cases replaced : replaces best last = true
          · rw [keepBest_of_replaced replaced]
            refine ⟨by simp, ?_⟩
            intro other mem
            rcases List.mem_append.mp mem with inFront | isLast
            · exact le_trans (greatest other inFront) (notWorse replaced)
            · rw [List.mem_singleton.mp isLast]
          · rw [keepBest_of_kept (Bool.eq_false_iff.mpr replaced)]
            refine ⟨List.mem_append_left _ bestMem, ?_⟩
            intro other mem
            rcases List.mem_append.mp mem with inFront | isLast
            · exact greatest other inFront
            · rw [List.mem_singleton.mp isLast]
              exact le_of_not_gt fun lt => replaced (better lt)

theorem exists_first_best (key : α → κ) {list : List α} (nonempty : list ≠ []) :
    ∃ front best back, list = front ++ best :: back ∧ (∀ other ∈ list, key other ≤ key best) ∧
      ∀ other ∈ front, key other < key best := by
  induction list with
  | nil => exact absurd rfl nonempty
  | cons first rest ih =>
      by_cases isEmpty : rest = []
      · subst isEmpty
        exact ⟨[], first, [], rfl, by simp, by simp⟩
      · rcases ih isEmpty with ⟨front, best, back, rfl, greatest, before⟩
        rcases lt_or_ge (key first) (key best) with lt | ge
        · refine ⟨first :: front, best, back, rfl, ?_, ?_⟩
          · intro other mem
            rcases List.mem_cons.mp mem with rfl | mem
            · exact le_of_lt lt
            · exact greatest other mem
          · intro other mem
            rcases List.mem_cons.mp mem with rfl | mem
            · exact lt
            · exact before other mem
        · refine ⟨[], first, front ++ best :: back, rfl, ?_, by simp⟩
          intro other mem
          rcases List.mem_cons.mp mem with rfl | mem
          · exact le_rfl
          · exact le_trans (greatest other mem) ge

/-- An element that is tested, and that none of those behind it that are tested replaces. -/
def KeptIn (test : α → Bool) (replaces : α → α → Bool) (list : List α) (kept : α) : Prop :=
  ∃ front back, list = front ++ kept :: back ∧ test kept = true ∧
    ∀ other ∈ back, test other = true → replaces kept other = false

/-- The result is there when an element is kept, and is then one that no kept one replaces. -/
def IsLastKept (test : α → Bool) (replaces : α → α → Bool) (list : List α) : Option α → Prop
  | none => ∀ kept, ¬ KeptIn test replaces list kept
  | some best =>
      KeptIn test replaces list best ∧
        ∀ kept, KeptIn test replaces list kept → replaces best kept = false

section Kept

variable {test : α → Bool} {replaces : α → α → Bool} {list : List α}

theorem KeptIn.mem {kept : α} (isKept : KeptIn test replaces list kept) :
    kept ∈ list ∧ test kept = true := by
  rcases isKept with ⟨front, back, rfl, tested, -⟩
  exact ⟨by simp, tested⟩

theorem keptIn_append_singleton {front : List α} {last kept : α} :
    KeptIn test replaces (front ++ [last]) kept ↔
      (kept = last ∧ test last = true) ∨
        (KeptIn test replaces front kept ∧ (test last = true → replaces kept last = false)) := by
  constructor
  · rintro ⟨before, behind, list_eq, tested, notReplaced⟩
    rcases List.eq_nil_or_concat behind with rfl | ⟨behind', last', rfl⟩
    · rcases List.append_inj' list_eq rfl with ⟨-, last_eq⟩
      rcases (List.cons.inj last_eq).1 with rfl
      exact .inl ⟨rfl, tested⟩
    · rw [List.concat_eq_append, ← List.cons_append, ← List.append_assoc] at list_eq
      rcases List.append_inj' list_eq rfl with ⟨rfl, last_eq⟩
      rcases (List.cons.inj last_eq).1 with rfl
      refine .inr ⟨⟨before, behind', rfl, tested, ?_⟩, notReplaced last (by simp)⟩
      intro other mem
      exact notReplaced other (by simp [mem])
  · rintro (⟨rfl, tested⟩ | ⟨⟨before, behind, rfl, tested, notReplaced⟩, notByLast⟩)
    · exact ⟨front, [], rfl, tested, by simp⟩
    · refine ⟨before, behind ++ [last], by simp, tested, ?_⟩
      intro other mem
      rcases List.mem_append.mp mem with inBehind | isLast
      · exact notReplaced other inBehind
      · rw [List.mem_singleton.mp isLast]
        exact notByLast

theorem isLastKept_foldl_keepBest (irreflexive : ∀ x, replaces x x = false)
    (transitive : ∀ x y z, test x = true → test y = true → test z = true →
      replaces x y = false → replaces y z = false → replaces x z = false) :
    IsLastKept test replaces list ((list.filter test).foldl (keepBest replaces) none) := by
  induction list using List.reverseRecOn with
  | nil =>
      rintro kept ⟨front, back, list_eq, -⟩
      exact absurd list_eq (by simp)
  | append_singleton front last ih =>
      rw [List.filter_append, List.foldl_append]
      generalize (front.filter test).foldl (keepBest replaces) none = found at ih
      by_cases tested : test last = true
      · rw [List.filter_cons_of_pos tested, List.filter_nil, List.foldl_cons, List.foldl_nil]
        have lastKept : KeptIn test replaces (front ++ [last]) last :=
          keptIn_append_singleton.mpr (.inl ⟨rfl, tested⟩)
        cases found with
        | none =>
            refine ⟨lastKept, fun kept isKept => ?_⟩
            rcases keptIn_append_singleton.mp isKept with ⟨rfl, -⟩ | ⟨inFront, -⟩
            · exact irreflexive _
            · exact absurd inFront (ih kept)
        | some best =>
            rcases ih with ⟨bestKept, others⟩
            by_cases replaced : replaces best last = true
            · rw [keepBest_of_replaced replaced]
              refine ⟨lastKept, fun kept isKept => ?_⟩
              rcases keptIn_append_singleton.mp isKept with ⟨rfl, -⟩ | ⟨inFront, notByLast⟩
              · exact irreflexive _
              · -- the best one so far would not have been replaced either
                have stays := transitive best kept last bestKept.mem.2 inFront.mem.2 tested
                  (others kept inFront) (notByLast tested)
                rw [replaced] at stays
                exact absurd stays (by simp)
            · have notByLast := Bool.eq_false_iff.mpr replaced
              rw [keepBest_of_kept notByLast]
              refine ⟨keptIn_append_singleton.mpr (.inr ⟨bestKept, fun _ => notByLast⟩),
                fun kept isKept => ?_⟩
              rcases keptIn_append_singleton.mp isKept with ⟨rfl, -⟩ | ⟨inFront, -⟩
              · exact notByLast
              · exact others kept inFront
      · have kept_iff : ∀ kept, KeptIn test replaces (front ++ [last]) kept ↔
            KeptIn test replaces front kept := by
          intro kept
          rw [keptIn_append_singleton]
          simp [tested]
        rw [List.filter_cons_of_neg tested, List.filter_nil, List.foldl_nil]
        cases found with
        | none => exact fun kept isKept => ih kept ((kept_iff kept).mp isKept)
        | some best =>
            refine ⟨(kept_iff best).mpr ih.1, ?_⟩
            exact fun kept isKept => ih.2 kept ((kept_iff kept).mp isKept)

end Kept

section Best

variable {key : α → κ} {position : α → ι} {replaces : α → α → Bool} {list : List α}
  (sorted : SortedBy position list)
  (better : ∀ first ∈ list, ∀ second ∈ list, key first < key second → replaces first second = true)
  (ties : ∀ first ∈ list, ∀ second ∈ list, key first = key second →
    position first = position second ∧
      ∀ other, replaces first other = replaces second other)
  (sameplace : ∀ best ∈ list, (∀ other ∈ list, key other ≤ key best) →
    ∀ other ∈ list, position other = position best → replaces best other = false)

include sorted better ties sameplace

theorem isBest_foldl_keepBest_iff :
    IsBest key list (list.foldl (keepBest replaces) none) ↔
      ¬ Displaced key position replaces list := by
  by_cases isEmpty : list = []
  · subst isEmpty
    exact ⟨fun _ ⟨_, mem, _⟩ => absurd mem List.not_mem_nil, fun _ => rfl⟩
  rcases exists_first_best key isEmpty with ⟨front, best, back, list_eq, greatest, before⟩
  have bestMem : best ∈ list := by simp [list_eq]
  have frontMem : ∀ other ∈ front, other ∈ list := by
    intro other mem
    simp [list_eq, mem]
  have backMem : ∀ other ∈ back, other ∈ list := by
    intro other mem
    simp [list_eq, mem]
  have reached : list.foldl (keepBest replaces) none =
      back.foldl (keepBest replaces) (some best) := by
    have reaches := foldl_keepBest_reaches fun other mem =>
      better other (frontMem other mem) best bestMem (before other mem)
    rw [list_eq, List.append_cons, List.foldl_append, reaches]
  rw [list_eq] at sorted
  unfold SortedBy at sorted
  simp only [List.pairwise_append, List.pairwise_cons, List.mem_cons] at sorted
  rcases sorted with ⟨-, ⟨best_le, sortedBack⟩, front_le⟩
  rw [reached]
  constructor
  · -- whoever displaces a best element stands behind the first one
    rintro found ⟨best', best'Mem, greatest', other, otherMem, lt, displaces⟩
    have tie : key best' = key best :=
      le_antisymm (greatest best' best'Mem) (greatest' best bestMem)
    rcases ties best' best'Mem best bestMem tie with ⟨position_eq, same⟩
    rw [position_eq] at lt
    rw [same] at displaces
    have otherBack : other ∈ back := by
      rw [list_eq, List.mem_append, List.mem_cons] at otherMem
      rcases otherMem with mem | rfl | mem
      · exact absurd lt (not_lt_of_ge (front_le other mem best (.inl rfl)))
      · exact absurd lt (lt_irrefl _)
      · exact mem
    rcases List.find?_eq_some_iff_append.mp
      (Option.some_get (List.find?_isSome.mpr ⟨other, otherBack, displaces⟩)).symm with
      ⟨displaces', mid, rest, back_eq, notBefore⟩
    generalize (List.find? (replaces best) back).get _ = first at displaces' back_eq
    have firstMem : first ∈ back := by simp [back_eq]
    have first_gt : position best < position first := by
      refine lt_of_le_of_ne (best_le first firstMem) ?_
      intro same'
      rw [sameplace best bestMem greatest first (backMem first firstMem) same'.symm] at displaces'
      exact absurd displaces' (by simp)
    have skipped : mid.foldl (keepBest replaces) (some best) = some best := by
      apply foldl_keepBest_of_not_replaced
      intro skipped mem
      simpa using notBefore skipped mem
    rw [back_eq, List.foldl_append, List.foldl_cons, skipped,
      keepBest_of_replaced displaces'] at found
    rcases foldl_keepBest_mem replaces first rest with ⟨last, lastMem, last_eq⟩
    rw [last_eq] at found
    -- and no best element stands behind it
    have last_gt : position best < position last := by
      rw [back_eq] at sortedBack
      simp only [List.pairwise_append, List.pairwise_cons] at sortedBack
      rcases List.mem_cons.mp lastMem with rfl | mem
      · exact first_gt
      · exact lt_of_lt_of_le first_gt (sortedBack.2.1.1 last mem)
    have tie' : key last = key best :=
      le_antisymm (greatest last found.1) (found.2 best bestMem)
    exact absurd (ties last found.1 best bestMem tie').1 (ne_of_gt last_gt)
  · intro undisplaced
    have kept : ∀ other ∈ back, replaces best other = false := by
      intro other mem
      rcases lt_or_eq_of_le (best_le other mem) with lt | same
      · apply Bool.eq_false_iff.mpr
        intro displaces
        exact undisplaced ⟨best, bestMem, greatest, other, backMem other mem, lt, displaces⟩
      · exact sameplace best bestMem greatest other (backMem other mem) same.symm
    rw [foldl_keepBest_of_not_replaced kept]
    exact ⟨bestMem, greatest⟩

end Best

end NetSnmp
