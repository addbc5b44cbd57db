import NetSnmp.Octets

/-!
# The shortest two's complement octets of a number

Octets are the shortest of their number when the top nine bits are not all
equal, or there is a single octet.  Every number has only one such list.
-/

namespace NetSnmp.Octets

def Shortest : List Byte → Prop
  | [] => False
  | [_] => True
  | first :: second :: _ =>
      ¬ (first = 0 ∧ topBit second = false) ∧ ¬ (first = 0xff ∧ topBit second = true)

theorem Shortest.ne_nil {octets : List Byte} (shortest : Shortest octets) : octets ≠ [] := by
  rintro rfl
  exact shortest

theorem beInt_cons (octet : Byte) (octets : List Byte) :
    (topBit octet = true ∧ beInt (octet :: octets) =
        (beNat (octet :: octets) : Int) - (256 ^ (octets.length + 1) : Nat)) ∨
      (topBit octet = false ∧ beInt (octet :: octets) = beNat (octet :: octets)) := by
  cases top : topBit octet with
  | true =>
      left
      simp [beInt, top]
  | false =>
      right
      simp [beInt, top]

theorem beInt_range {octets : List Byte} (nonempty : octets ≠ []) :
    -((256 ^ octets.length : Nat) : Int) ≤ 2 * beInt octets ∧
      2 * beInt octets < (256 ^ octets.length : Nat) := by
  match octets, nonempty with
  | octet :: octets, _ =>
      have bound := beNat_lt (octet :: octets)
      have top := topBit_iff octet octets
      rw [List.length_cons] at bound ⊢
      rcases beInt_cons octet octets with ⟨isTop, value⟩ | ⟨isTop, value⟩
      · have large := top.mp isTop
        omega
      · have small : ¬ 256 ^ (octets.length + 1) ≤ 2 * beNat (octet :: octets) := by
          rw [← top, isTop]
          simp
        omega

theorem Shortest.out_of_range {first second : Byte} {rest : List Byte}
    (shortest : Shortest (first :: second :: rest)) :
    ¬ (-((256 ^ (rest.length + 1) : Nat) : Int) ≤ 2 * beInt (first :: second :: rest) ∧
      2 * beInt (first :: second :: rest) < (256 ^ (rest.length + 1) : Nat)) := by
  rcases shortest with ⟨notZero, notOnes⟩
  have scale : 256 ^ (rest.length + 1) = 256 * 256 ^ rest.length := pow_succ' _ _
  have scale' : 256 ^ (rest.length + 1 + 1) = 65536 * 256 ^ rest.length := by
    rw [pow_succ', scale]
    omega
  have value_eq : beNat (first :: second :: rest) =
      first.toNat * 256 * 256 ^ rest.length + second.toNat * 256 ^ rest.length + beNat rest := by
    simp only [beNat_cons, List.length_cons, scale]
    ring
  have restBound := beNat_lt rest
  have firstBound := first.toNat_lt
  have secondBound := second.toNat_lt
  have pos : 0 < 256 ^ rest.length := by positivity
  have signed := beInt_cons first (second :: rest)
  rw [List.length_cons, scale'] at signed
  rw [scale]
  generalize 256 ^ rest.length = unit at *
  rintro ⟨lower, upper⟩
  rcases signed with ⟨isTop, value⟩ | ⟨isTop, value⟩
  · have ones : first = 0xff := by
      have large : 255 ≤ first.toNat := by
        by_contra small
        have scaled := Nat.mul_le_mul_right unit (show first.toNat * 256 ≤ 254 * 256 by omega)
        have scaled' := Nat.mul_le_mul_right unit (show second.toNat ≤ 255 by omega)
        omega
      apply UInt8.toNat_inj.mp
      have full : (0xff : Byte).toNat = 255 := rfl
      omega
    have second_top : topBit second = true := by
      by_contra clear
      have small : second.toNat ≤ 127 := by
        rw [topBit, decide_eq_true_eq] at clear
        omega
      have full : first.toNat = 255 := by rw [ones]; rfl
      have scaled := Nat.mul_le_mul_right unit small
      rw [full] at value_eq
      omega
    exact notOnes ⟨ones, second_top⟩
  · have zero : first = 0 := by
      have small : first.toNat ≤ 0 := by
        by_contra large
        have scaled := Nat.mul_le_mul_right unit (show 1 * 256 ≤ first.toNat * 256 by omega)
        omega
      apply UInt8.toNat_inj.mp
      have none : (0 : Byte).toNat = 0 := rfl
      omega
    have second_clear : topBit second = false := by
      by_contra set
      have large : 128 ≤ second.toNat := by simpa [topBit] using set
      have scaled := Nat.mul_le_mul_right unit large
      omega
    exact notZero ⟨zero, second_clear⟩

theorem eq_of_beNat_eq {left right : List Byte} (length_eq : left.length = right.length)
    (value_eq : beNat left = beNat right) : left = right := by
  induction left generalizing right with
  | nil => exact (List.length_eq_zero_iff.mp length_eq.symm).symm
  | cons first left ih =>
      cases right with
      | nil => exact absurd length_eq (by simp)
      | cons first' right =>
          have length_eq' : left.length = right.length := by simpa using length_eq
          have bound := beNat_lt left
          have bound' := beNat_lt right
          rw [beNat_cons, beNat_cons, length_eq'] at value_eq
          rw [length_eq'] at bound
          have same : first.toNat = first'.toNat := by
            rcases lt_trichotomy first.toNat first'.toNat with lt | eq | gt
            · have scaled := Nat.mul_le_mul_right (256 ^ right.length)
                (show first.toNat + 1 ≤ first'.toNat from lt)
              rw [Nat.add_mul] at scaled
              omega
            · exact eq
            · have scaled := Nat.mul_le_mul_right (256 ^ right.length)
                (show first'.toNat + 1 ≤ first.toNat from gt)
              rw [Nat.add_mul] at scaled
              omega
          rw [same] at value_eq
          rw [UInt8.toNat_inj.mp same, ih length_eq' (by omega)]

theorem Shortest.length_le {left right : List Byte} (nonempty : left ≠ [])
    (shortest : Shortest right) (value_eq : beInt left = beInt right) :
    right.length ≤ left.length := by
  match right, shortest with
  | [_], _ => exact List.length_pos_iff.mpr nonempty
  | first :: second :: rest, shortest =>
      by_contra longer
      rw [List.length_cons, List.length_cons] at longer
      have range := beInt_range nonempty
      have scale : 256 ^ left.length ≤ 256 ^ (rest.length + 1) :=
        Nat.pow_le_pow_right (by decide) (by omega)
      apply shortest.out_of_range
      rw [← value_eq]
      omega

theorem Shortest.eq {left right : List Byte} (shortest : Shortest left)
    (shortest' : Shortest right) (value_eq : beInt left = beInt right) : left = right := by
  have length_eq : left.length = right.length := le_antisymm
    (shortest.length_le shortest'.ne_nil value_eq.symm)
    (shortest'.length_le shortest.ne_nil value_eq)
  apply eq_of_beNat_eq length_eq
  match left, right, shortest.ne_nil, shortest'.ne_nil with
  | first :: left, first' :: right, _, _ =>
      have bound := beNat_lt (first :: left)
      have bound' := beNat_lt (first' :: right)
      have signed := beInt_cons first left
      have signed' := beInt_cons first' right
      simp only [List.length_cons] at length_eq bound bound'
      rw [length_eq] at bound signed
      omega

theorem shortest_of_fixed {first : Byte} {rest : List Byte} (negative : Bool)
    (needed : rest ≠ [] → first ≠ if negative then 0xff else 0) :
    Shortest (if topBit first = negative then first :: rest
      else (if negative then 0xff else 0) :: first :: rest) := by
  by_cases fixed : topBit first = negative
  · rw [if_pos fixed]
    cases rest with
    | nil => trivial
    | cons second rest =>
        have differs := needed (by simp)
        cases negative with
        | true =>
            refine ⟨?_, fun ⟨ones, _⟩ => differs ones⟩
            rintro ⟨rfl, -⟩
            exact absurd fixed (by decide)
        | false =>
            refine ⟨fun ⟨zero, _⟩ => differs zero, ?_⟩
            rintro ⟨rfl, -⟩
            exact absurd fixed (by decide)
  · rw [if_neg fixed]
    cases negative with
    | true =>
        refine ⟨fun ⟨absurdity, _⟩ => absurd absurdity (by decide), ?_⟩
        rintro ⟨-, top⟩
        exact fixed top
    | false =>
        refine ⟨?_, fun ⟨absurdity, _⟩ => absurd absurdity (by decide)⟩
        rintro ⟨-, top⟩
        exact fixed top

end NetSnmp.Octets
