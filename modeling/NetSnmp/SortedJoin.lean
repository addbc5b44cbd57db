import NetSnmp.KeyedRows

/-!
# The join of two sorted lists

Two lists that are sorted by a key are walked together, and each entry is paired
with the entry of the other list that has the same key, or stands alone.  The
walk ends with the first list: what the second one has behind it is left over.
-/

namespace NetSnmp

variable {α β κ : Type}

/-- What stands at one key: an entry of the first list, of the second one or of both. -/
inductive Joined (α β : Type) where
  | left (a : α)
  | both (a : α) (b : β)
  | right (b : β)
deriving DecidableEq, Repr

section Definitions

variable [LinearOrder κ] (key : α → κ) (key' : β → κ)

def Joined.at : Joined α β → κ
  | .left a => key a
  | .both a _ => key a
  | .right b => key' b

/-- The entries of the second list up to the place of an entry of the first one, and then the
join of the rest, which `next` gives. -/
def joinEntry (a : α) (next : List β → List (Joined α β)) : List β → List (Joined α β)
  | [] => .left a :: next []
  | b :: bs =>
      if key a < key' b then .left a :: next (b :: bs)
      else if key a = key' b then .both a b :: next bs
      else .right b :: joinEntry a next bs

def join : List α → List β → List (Joined α β)
  | [] => fun _ => []
  | a :: as => joinEntry key key' a (join as)

def Joins (as : List α) (bs : List β) : Joined α β → Prop
  | .left a => a ∈ as ∧ ∀ b ∈ bs, key a ≠ key' b
  | .both a b => a ∈ as ∧ b ∈ bs ∧ key a = key' b
  | .right b => b ∈ bs ∧ (∀ a ∈ as, key a ≠ key' b) ∧ ∃ a ∈ as, key' b < key a

end Definitions

namespace Increasing

variable [LinearOrder κ] {key : α → κ} {as : List α} {a b : α}

theorem tail (sorted : Increasing key (a :: as)) : Increasing key as :=
  (List.pairwise_cons.mp sorted).2

theorem head_lt (sorted : Increasing key (a :: as)) (mem : b ∈ as) : key a < key b :=
  (List.pairwise_cons.mp sorted).1 b mem

end Increasing

section Members

variable [LinearOrder κ] {key : α → κ} {key' : β → κ} {a : α} {as : List α} {b : β} {bs : List β}

theorem joins_nil (x : Joined α β) :
    Joins key key' (a :: as) [] x ↔ x = .left a ∨ Joins key key' as [] x := by
  cases x <;> simp [Joins]

theorem joins_of_lt (sorted : Increasing key' (b :: bs)) (lt : key a < key' b)
    (x : Joined α β) :
    Joins key key' (a :: as) (b :: bs) x ↔ x = .left a ∨ Joins key key' as (b :: bs) x := by
  have above : ∀ b' ∈ b :: bs, key a < key' b' := by
    intro b' mem
    rcases List.mem_cons.mp mem with rfl | mem'
    · exact lt
    · exact lt.trans (sorted.head_lt mem')
  cases x with
  | left a' =>
      simp only [Joins, List.mem_cons, Joined.left.injEq]
      grind
  | both a' b' =>
      simp only [Joins, List.mem_cons]
      grind
  | right b' =>
      simp only [Joins, List.mem_cons]
      grind

theorem joins_of_eq (sortedA : Increasing key (a :: as)) (sortedB : Increasing key' (b :: bs))
    (same : key a = key' b) (x : Joined α β) :
    Joins key key' (a :: as) (b :: bs) x ↔ x = .both a b ∨ Joins key key' as bs x := by
  have aboveA : ∀ a' ∈ as, key a < key a' := fun a' mem => sortedA.head_lt mem
  have aboveB : ∀ b' ∈ bs, key' b < key' b' := fun b' mem => sortedB.head_lt mem
  cases x with
  | left a' =>
      simp only [Joins, List.mem_cons]
      grind
  | both a' b' =>
      simp only [Joins, List.mem_cons, Joined.both.injEq]
      grind
  | right b' =>
      simp only [Joins, List.mem_cons]
      grind

theorem joins_of_gt (sorted : Increasing key (a :: as)) (gt : key' b < key a)
    (x : Joined α β) :
    Joins key key' (a :: as) (b :: bs) x ↔ x = .right b ∨ Joins key key' (a :: as) bs x := by
  have above : ∀ a' ∈ a :: as, key' b < key a' := by
    intro a' mem
    rcases List.mem_cons.mp mem with rfl | mem'
    · exact gt
    · exact gt.trans (sorted.head_lt mem')
  cases x with
  | left a' =>
      simp only [Joins]
      grind
  | both a' b' =>
      simp only [Joins]
      grind
  | right b' =>
      simp only [Joins, Joined.right.injEq]
      grind

theorem mem_join (sortedA : Increasing key as) (sortedB : Increasing key' bs) (x : Joined α β) :
    x ∈ join key key' as bs ↔ Joins key key' as bs x := by
  induction as generalizing bs with
  | nil => cases x <;> simp [join, Joins]
  | cons a as ih =>
      -- inside the first list, the induction follows the entries before its next one
      induction bs with
      | nil =>
          rw [joins_nil, ← ih sortedA.tail sortedB]
          simp [join, joinEntry]
      | cons b bs ih' =>
          simp only [join, joinEntry]
          rcases lt_trichotomy (key a) (key' b) with lt | same | gt
          · rw [if_pos lt, List.mem_cons, ih sortedA.tail sortedB, joins_of_lt sortedB lt]
          · rw [if_neg (same ▸ lt_irrefl _), if_pos same, List.mem_cons,
              ih sortedA.tail sortedB.tail, joins_of_eq sortedA sortedB same]
          · rw [if_neg (not_lt_of_gt gt), if_neg (ne_of_gt gt), List.mem_cons,
              joins_of_gt sortedA gt, ← ih' sortedB.tail]
            rfl

theorem Joins.lt_at {k : κ} (aboveA : ∀ a ∈ as, k < key a) (aboveB : ∀ b ∈ bs, k < key' b)
    {x : Joined α β} (joins : Joins key key' as bs x) : k < x.at key key' := by
  cases x with
  | left a => exact aboveA a joins.1
  | both a b => exact aboveA a joins.1
  | right b => exact aboveB b joins.1

theorem increasing_join (sortedA : Increasing key as) (sortedB : Increasing key' bs) :
    Increasing (Joined.at key key') (join key key' as bs) := by
  induction as generalizing bs with
  | nil => exact List.Pairwise.nil
  | cons a as ih =>
      have aboveA : ∀ a' ∈ as, key a < key a' := fun a' mem => sortedA.head_lt mem
      induction bs with
      | nil =>
          refine List.pairwise_cons.mpr ⟨?_, ih sortedA.tail sortedB⟩
          intro x mem
          exact ((mem_join sortedA.tail sortedB x).mp mem).lt_at aboveA (by simp)
      | cons b bs ih' =>
          have aboveB : ∀ b' ∈ bs, key' b < key' b' := fun b' mem => sortedB.head_lt mem
          simp only [join, joinEntry]
          rcases lt_trichotomy (key a) (key' b) with lt | same | gt
          · rw [if_pos lt]
            refine List.pairwise_cons.mpr ⟨?_, ih sortedA.tail sortedB⟩
            intro x mem
            refine ((mem_join sortedA.tail sortedB x).mp mem).lt_at aboveA ?_
            intro b' memB
            rcases List.mem_cons.mp memB with rfl | memB'
            · exact lt
            · exact lt.trans (aboveB b' memB')
          · rw [if_neg (same ▸ lt_irrefl _), if_pos same]
            refine List.pairwise_cons.mpr ⟨?_, ih sortedA.tail sortedB.tail⟩
            intro x mem
            refine ((mem_join sortedA.tail sortedB.tail x).mp mem).lt_at aboveA ?_
            intro b' memB
            exact same.trans_lt (aboveB b' memB)
          · rw [if_neg (not_lt_of_gt gt), if_neg (ne_of_gt gt)]
            refine List.pairwise_cons.mpr ⟨?_, ih' sortedB.tail⟩
            intro x mem
            refine ((mem_join sortedA sortedB.tail x).mp mem).lt_at ?_ aboveB
            intro a' memA
            rcases List.mem_cons.mp memA with rfl | memA'
            · exact gt
            · exact gt.trans (aboveA a' memA')

end Members

end NetSnmp
