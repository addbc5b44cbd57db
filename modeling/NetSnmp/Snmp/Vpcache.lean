import NetSnmp.Snmp.ReverseWrites

/-!
# The cache of the reverse PDU encoder

Each pass over the list leaves the positions of the last fifty variables in the
cache, so that going through the cache and filling it again visits all the
variables from the last to the first.
-/

namespace NetSnmp

namespace Vpcache

def slotOf (vp : Nat) : Nat := vpcacheSize - 1 - vp % vpcacheSize

/-- The state of the cache after the variables in front of position `count` went through it. -/
structure Holds (cache : Vpcache) (count : Nat) : Prop where
  slot : ∀ vp < count, count ≤ vp + vpcacheSize → cache.slot (slotOf vp) = some vp
  final : cache.final = if count = 0 then vpcacheSize else slotOf (count - 1)
  wrapped : cache.wrapped = decide (vpcacheSize < count)

theorem holds_start (slot : Nat → Option Nat) : Holds (start slot) 0 where
  slot vp inside := absurd inside (Nat.not_lt_zero vp)
  final := rfl
  wrapped := rfl

variable {cache : Vpcache} {count : Nat}

theorem Holds.next_slot (holds : Holds cache count) :
    (if cache.final = 0 then vpcacheSize - 1 else cache.final - 1) = slotOf count := by
  have final := holds.final
  unfold slotOf vpcacheSize at *
  split at final <;> split <;> omega

theorem Holds.store (holds : Holds cache count) : Holds (cache.store count) (count + 1) where
  slot vp inside recent := by
    have next := holds.next_slot
    simp only [Vpcache.store, next]
    by_cases last : vp = count
    · rw [last, Function.update_self]
    · have other : slotOf vp ≠ slotOf count := by
        unfold slotOf vpcacheSize at *
        omega
      rw [Function.update_of_ne other]
      exact holds.slot vp (by omega) (by omega)
  final := by
    rw [if_neg (Nat.succ_ne_zero count), Nat.add_sub_cancel]
    exact holds.next_slot
  wrapped := by
    have final := holds.final
    simp only [Vpcache.store, holds.wrapped]
    rw [← Bool.decide_or]
    congr 1
    apply propext
    unfold slotOf vpcacheSize at *
    split at final <;> omega

theorem Holds.fill
    (holds : Holds cache count) (stops : Nat → VariableList → Bool) (vars : List VariableList)
    (more : Nat) (inside : more ≤ vars.length)
    (goes : ∀ (position : Nat) (lt : position < vars.length), position < more →
      stops (count + position) vars[position] = false)
    (ends : ∀ lt : more < vars.length, stops (count + more) vars[more] = true) :
    Holds (fill stops cache count vars) (count + more) := by
  induction more generalizing cache count vars with
  | zero =>
      match vars with
      | [] => simpa [Vpcache.fill] using holds
      | var :: vars =>
          have stopsHere := ends (by simp)
          rw [Nat.add_zero, List.getElem_cons_zero] at stopsHere
          simpa [Vpcache.fill, stopsHere] using holds
  | succ more ih =>
      match vars with
      | [] => simp at inside
      | var :: vars =>
          have goesHere := goes 0 (by simp) (by omega)
          rw [Nat.add_zero, List.getElem_cons_zero] at goesHere
          have rest := ih holds.store vars (by simpa using inside)
            (fun position lt before => by
              have goesThere := goes (position + 1) (by simpa using lt) (by omega)
              rwa [List.getElem_cons_succ, ← Nat.add_assoc, Nat.add_right_comm] at goesThere)
            (fun lt => by
              have stopsThere := ends (by simpa using lt)
              rwa [List.getElem_cons_succ, ← Nat.add_assoc, Nat.add_right_comm] at stopsThere)
          rw [Nat.add_assoc, Nat.add_comm 1] at rest
          simpa [Vpcache.fill, goesHere] using rest

theorem Holds.tmpvp (holds : Holds cache count) (wraps : vpcacheSize < count) :
    cache.tmpvp = some (count - vpcacheSize) := by
  have same : slotOf count = slotOf (count - vpcacheSize) := by
    unfold slotOf vpcacheSize at *
    omega
  have slot := holds.slot (count - vpcacheSize) (by unfold vpcacheSize; omega) (by omega)
  rw [Vpcache.tmpvp, holds.next_slot, same, slot]

end Vpcache

open Vpcache

/-- The variables at the positions from `lower` on and in front of `upper`. -/
def segment (vars : List VariableList) (lower upper : Nat) : List VariableList :=
  (vars.take upper).drop lower

theorem rbuildReversed_append (front back : List VariableList) (buf : RBuf) :
    rbuildReversed (front ++ back) buf = rbuildReversed back buf >>= rbuildReversed front := by
  simp only [rbuildReversed, List.reverse_append, List.foldlM_append]
  rfl

theorem segment_append (vars : List VariableList) {lower middle upper : Nat}
    (lower_le : lower ≤ middle) (middle_le : middle ≤ upper) :
    segment vars lower middle ++ segment vars middle upper = segment vars lower upper := by
  unfold segment
  have front : vars.take middle = (vars.take upper).take middle := by
    rw [List.take_take, Nat.min_eq_left middle_le]
  have back : (vars.take upper).drop middle =
      ((vars.take upper).drop lower).drop (middle - lower) := by
    rw [List.drop_drop, Nat.add_sub_cancel' lower_le]
  rw [front, back, List.drop_take, List.take_append_drop]

theorem segment_succ (vars : List VariableList) {lower upper : Nat} (le : lower ≤ upper)
    (inside : upper < vars.length) :
    segment vars lower (upper + 1) = segment vars lower upper ++ [vars[upper]] := by
  unfold segment
  rw [List.take_succ_eq_append_getElem inside, List.drop_append_of_le_length]
  rw [List.length_take]
  omega

theorem rbuildSlots_eq (vars : List VariableList) (cache : Vpcache) (lower count i : Nat)
    (inside : lower + count ≤ vars.length)
    (slots : ∀ k < count, cache.slot (i + k) = some (lower + count - 1 - k)) (buf : RBuf) :
    rbuildSlots vars cache count i buf =
      rbuildReversed (segment vars lower (lower + count)) buf := by
  induction count generalizing i buf with
  | zero =>
      have empty : segment vars lower lower = [] := by
        unfold segment
        rw [List.drop_eq_nil_iff, List.length_take]
        omega
      rw [rbuildSlots, Nat.add_zero, empty]
      rfl
  | succ count ih =>
      have first := slots 0 (by omega)
      rw [Nat.add_zero, Nat.sub_zero, ← Nat.add_assoc, Nat.add_sub_cancel] at first
      have others := fun buf' => ih (i + 1) (by omega) (fun k lt => by
        have slot := slots (k + 1) (by omega)
        rw [← Nat.add_assoc, Nat.add_right_comm] at slot
        rw [slot]
        congr 1
        omega) buf'
      rw [← Nat.add_assoc, segment_succ vars (by omega) (by omega), rbuildReversed_append,
        rbuildSlots, first]
      simp only [Option.bind_eq_bind, Option.bind_some]
      rw [List.getElem?_eq_getElem (by omega), Option.bind_some]
      have last : rbuildReversed [vars[lower + count]] buf =
          snmpReallocRbuildVarOp true buf vars[lower + count] := by
        simp [rbuildReversed]
      rw [last]
      simp only [others]

theorem rbuildVarbinds_eq {vars : List VariableList} {cache : Vpcache} {count passes : Nat}
    (holds : Holds cache count) (inside : count ≤ vars.length) (enough : count < passes)
    (buf : RBuf) :
    rbuildVarbinds vars passes cache buf = rbuildReversed (vars.take count) buf := by
  induction passes generalizing cache count buf with
  | zero => omega
  | succ passes ih =>
      have final := holds.final
      by_cases wraps : vpcacheSize < count
      · -- the cache holds the positions from `count - 50` on, the later ones from `final` on
        have finalLt : cache.final < vpcacheSize := by
          unfold slotOf vpcacheSize at *
          split at final <;> omega
        have late := rbuildSlots_eq vars cache (count - (vpcacheSize - cache.final))
          (vpcacheSize - cache.final) cache.final (by omega) (fun k lt => by
            have slot := holds.slot (count - 1 - k) (by omega) (by omega)
            have same : slotOf (count - 1 - k) = cache.final + k := by
              unfold slotOf vpcacheSize at *
              split at final <;> omega
            rw [same] at slot
            rw [slot]
            congr 1
            omega)
        have early := rbuildSlots_eq vars cache (count - vpcacheSize) cache.final 0 (by omega)
          (fun k lt => by
            have slot := holds.slot (count - vpcacheSize + cache.final - 1 - k)
              (by omega) (by omega)
            have same : slotOf (count - vpcacheSize + cache.final - 1 - k) = 0 + k := by
              unfold slotOf vpcacheSize at *
              split at final <;> omega
            rw [same] at slot
            rw [slot])
        have refilled := (holds_start cache.slot).fill
          (fun vp _ => vp = count - vpcacheSize) vars (count - vpcacheSize) (by omega)
          (fun position lt before => by simpa using by omega) (fun lt => by simp)
        rw [Nat.zero_add] at refilled
        have rest := fun buf' => ih refilled (by omega) (by unfold vpcacheSize; omega) buf'
        have wrapped := holds.wrapped
        rw [decide_eq_true wraps] at wrapped
        have lateEnd : count - (vpcacheSize - cache.final) +
          (vpcacheSize - cache.final) = count := by
          omega
        have earlyEnd : count - vpcacheSize + cache.final =
          count - (vpcacheSize - cache.final) := by
          omega
        have whole : vars.take count = vars.take (count - vpcacheSize) ++
            (segment vars (count - vpcacheSize) (count - (vpcacheSize - cache.final)) ++
              segment vars (count - (vpcacheSize - cache.final)) count) := by
          rw [segment_append vars (by omega) (by omega)]
          have joined := segment_append vars (Nat.zero_le (count - vpcacheSize))
            (Nat.sub_le count vpcacheSize)
          simpa [segment] using joined.symm
        rw [lateEnd] at late
        rw [earlyEnd] at early
        rw [whole, rbuildReversed_append, rbuildReversed_append, rbuildVarbinds, wrapped,
          holds.tmpvp wraps]
        simp only [late, early, rest, if_true, Option.bind_eq_bind, Option.bind_some,
          Option.bind_assoc]
      · have width : vpcacheSize - cache.final = count := by
          unfold slotOf vpcacheSize at *
          split at final <;> omega
        have all := rbuildSlots_eq vars cache 0 count cache.final (by omega) (fun k lt => by
            have slot := holds.slot (count - 1 - k) (by omega) (by omega)
            have same : slotOf (count - 1 - k) = cache.final + k := by
              unfold slotOf vpcacheSize at *
              split at final <;> omega
            rw [same] at slot
            rw [slot]
            congr 1
            omega)
        have wrapped := holds.wrapped
        rw [decide_eq_false wraps] at wrapped
        rw [rbuildVarbinds, wrapped, width, all, Nat.zero_add]
        simp [segment]

theorem rbuildVarbinds_sentVariables (pdu : NetsnmpPdu) (buf : RBuf) :
    rbuildVarbinds pdu.variableList (pdu.variableList.length + 1)
        (fill (fun _ var => var.type = asnPrivStop) (.start fun _ => none) 0 pdu.variableList) buf =
      rbuildReversed pdu.sentVariables buf := by
  have count_le : pdu.variableList.findIdx (fun var => var.type = asnPrivStop) ≤
      pdu.variableList.length := List.findIdx_le_length
  have holds := (holds_start fun _ => none).fill (fun _ var => var.type = asnPrivStop)
    pdu.variableList _ count_le
    (fun position lt before => by simpa using List.not_of_lt_findIdx before)
    (fun lt => by simpa using List.findIdx_getElem (w := lt))
  rw [Nat.zero_add] at holds
  rw [rbuildVarbinds_eq holds count_le (by omega), NetsnmpPdu.sentVariables,
    List.takeWhile_eq_take_findIdx_not]
  simp

end NetSnmp
