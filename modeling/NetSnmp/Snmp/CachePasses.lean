import NetSnmp.Snmp.Vpcache

/-!
# The passes of the reverse PDU encoder

What the loops of `snmp_pdu_realloc_rbuild` do one after another, for any function
that writes a variable: which entries of the cache they set and read, and for which
variables they call this function.
-/

namespace NetSnmp

variable {σ : Type}

inductive CacheEvent where
  /-- The cache is filled from the start of the list. -/
  | pass
  | store (slot vp : Nat)
  | read (slot : Nat) (vp : Option Nat)
  /-- A call of `snmp_realloc_rbuild_var_op`. -/
  | call (vp : Nat)
  deriving DecidableEq, Repr

inductive LoopEnd (σ : Type) where
  | done (buf : σ)
  | null
  /-- An entry that is not set, or no variable, is used. -/
  | fault
  | diverges
  deriving DecidableEq, Repr

abbrev TracedRun (σ : Type) := List CacheEvent × LoopEnd σ

def TracedRun.andThen (first : TracedRun σ) (next : σ → TracedRun σ) : TracedRun σ :=
  match first.2 with
  | .done buf => (first.1 ++ (next buf).1, (next buf).2)
  | _ => first

namespace Vpcache

def fillEvents (stops : Nat → VariableList → Bool) (cache : Vpcache) :
    (vp : Nat) → List VariableList → List CacheEvent
  | _, [] => []
  | vp, var :: vars =>
      if stops vp var then []
      else .store (cache.store vp).final vp :: fillEvents stops (cache.store vp) (vp + 1) vars

end Vpcache

section

variable (varOp : VariableList → σ → Option σ) (vars : List VariableList)

/-- `rbuildSlots` with its events, and with any function in place of
`snmp_realloc_rbuild_var_op`. -/
def traceSlots (cache : Vpcache) : (count i : Nat) → σ → TracedRun σ
  | 0, _, buf => ([], .done buf)
  | count + 1, i, buf =>
      match cache.slot i with
      | none => ([.read i none], .fault)
      | some vp =>
          match vars[vp]? with
          | none => ([.read i (some vp)], .fault)
          | some var =>
              match varOp var buf with
              | none => ([.read i (some vp), .call vp], .null)
              | some buf =>
                  let later := traceSlots cache count (i + 1) buf
                  (.read i (some vp) :: .call vp :: later.1, later.2)

/-- `rbuildVarbinds` with its events. -/
def traceVarbinds : (passes : Nat) → Vpcache → σ → TracedRun σ
  | 0, _, _ => ([], .diverges)
  | passes + 1, cache, buf =>
      (traceSlots varOp vars cache (vpcacheSize - cache.final) cache.final buf).andThen fun buf =>
        if cache.wrapped then
          (traceSlots varOp vars cache cache.final 0 buf).andThen fun buf =>
            let slot := if cache.final = 0 then vpcacheSize - 1 else cache.final - 1
            match cache.tmpvp with
            | none => ([.read slot none], .fault)
            | some tmpvp =>
                let stops (vp : Nat) (_ : VariableList) : Bool := vp = tmpvp
                let later := traceVarbinds passes (.fill stops (.start cache.slot) 0 vars) buf
                (.read slot (some tmpvp) :: .pass ::
                  Vpcache.fillEvents stops (.start cache.slot) 0 vars ++ later.1, later.2)
        else ([], .done buf)

/-- The loops of `snmp_pdu_realloc_rbuild`, with what the cache holds at first. -/
def traceLoops (slot : Nat → Option Nat) (passes : Nat) (buf : σ) : TracedRun σ :=
  let stops (_ : Nat) (var : VariableList) : Bool := var.type = asnPrivStop
  let later := traceVarbinds varOp vars passes (.fill stops (.start slot) 0 vars) buf
  (.pass :: Vpcache.fillEvents stops (.start slot) 0 vars ++ later.1, later.2)

def callEach : List Nat → σ → List Nat × LoopEnd σ
  | [], buf => ([], .done buf)
  | vp :: rest, buf =>
      match vars[vp]? with
      | none => ([], .fault)
      | some var =>
          match varOp var buf with
          | none => ([vp], .null)
          | some buf =>
              let later := callEach rest buf
              (vp :: later.1, later.2)

end

def calls (events : List CacheEvent) : List Nat :=
  events.filterMap fun event =>
    match event with
    | .call vp => some vp
    | _ => none

/-- The entries that were set since the start of the pass. -/
def written : (Nat → Option Nat) → List CacheEvent → Nat → Option Nat
  | set, [] => set
  | _, .pass :: events => written (fun _ => none) events
  | set, .store slot vp :: events => written (Function.update set slot (some vp)) events
  | set, .read _ _ :: events => written set events
  | set, .call _ :: events => written set events

/-- Entries are only read when they were set since the start of the pass, with what they were set
to. -/
def ReadsWritten : (Nat → Option Nat) → List CacheEvent → Prop
  | _, [] => True
  | _, .pass :: events => ReadsWritten (fun _ => none) events
  | set, .store slot vp :: events => ReadsWritten (Function.update set slot (some vp)) events
  | set, .read slot vp :: events => (vp.isSome ∧ set slot = vp) ∧ ReadsWritten set events
  | set, .call _ :: events => ReadsWritten set events

section

variable {set : Nat → Option Nat} {first second : List CacheEvent}

theorem readsWritten_append : ReadsWritten set (first ++ second) ↔
    ReadsWritten set first ∧ ReadsWritten (written set first) second := by
  induction first generalizing set with
  | nil => simp [ReadsWritten, written]
  | cons event first ih =>
      cases event with
      | pass => exact ih
      | store slot vp => exact ih
      | read slot vp =>
          simp only [List.cons_append, ReadsWritten, written, ih, and_assoc]
      | call vp => exact ih

end

variable {varOp : VariableList → σ → Option σ} {vars : List VariableList}

theorem callEach_append (front back : List Nat) (buf : σ) :
    callEach varOp vars (front ++ back) buf =
      match callEach varOp vars front buf with
      | (made, .done buf) =>
          (made ++ (callEach varOp vars back buf).1, (callEach varOp vars back buf).2)
      | stopped => stopped := by
  induction front generalizing buf with
  | nil => rfl
  | cons vp front ih =>
      rw [List.cons_append, callEach, callEach]
      cases vars[vp]? with
      | none => rfl
      | some var =>
          cases called : varOp var buf with
          | none => simp [called]
          | some buf =>
              simp only [called, ih]
              generalize callEach varOp vars front buf = later
              rcases later with ⟨made, ended⟩
              cases ended <;> rfl

theorem callEach_spec {positions : List Nat} (inside : ∀ vp ∈ positions, vp < vars.length)
    (buf : σ) :
    (callEach varOp vars positions buf).1 <+: positions ∧
      ((∃ buf', (callEach varOp vars positions buf).2 = .done buf' ∧
          (callEach varOp vars positions buf).1 = positions) ∨
        ((callEach varOp vars positions buf).2 = .null ∧
          ∃ vp var buf', (callEach varOp vars positions buf).1.getLast? = some vp ∧
            vars[vp]? = some var ∧ varOp var buf' = none)) := by
  induction positions generalizing buf with
  | nil => exact ⟨List.nil_prefix, .inl ⟨buf, rfl, rfl⟩⟩
  | cons vp rest ih =>
      have here := inside vp List.mem_cons_self
      have var_eq : vars[vp]? = some vars[vp] := List.getElem?_eq_getElem here
      rw [callEach, var_eq]
      cases called : varOp vars[vp] buf with
      | none =>
          simp only [called]
          refine ⟨List.cons_prefix_cons.mpr ⟨rfl, List.nil_prefix⟩, .inr ⟨trivial, ?_⟩⟩
          exact ⟨vp, vars[vp], buf, rfl, var_eq, called⟩
      | some buf' =>
          simp only [called]
          rcases ih (fun vp mem => inside vp (List.mem_cons_of_mem _ mem)) buf' with
            ⟨isPrefix, ⟨buf'', ended, all⟩ | ⟨ended, vp', var, buf'', last, var_eq', failed⟩⟩
          · exact ⟨List.cons_prefix_cons.mpr ⟨rfl, isPrefix⟩, .inl ⟨buf'', ended, by rw [all]⟩⟩
          · refine ⟨List.cons_prefix_cons.mpr ⟨rfl, isPrefix⟩, .inr ⟨ended, vp', var, buf'', ?_⟩⟩
            refine ⟨?_, var_eq', failed⟩
            rw [List.getLast?_cons, last]
            rfl

/-- A part of the loops makes the calls for some positions, and reads only what was set. -/
structure Emits (varOp : VariableList → σ → Option σ) (vars : List VariableList)
    (set : Nat → Option Nat) (traced : TracedRun σ) (positions : List Nat) (buf : σ) : Prop where
  calls_eq : (calls traced.1, traced.2) = callEach varOp vars positions buf
  reads : ReadsWritten set traced.1

theorem Emits.andThen {set : Nat → Option Nat} {first : TracedRun σ} {next : σ → TracedRun σ}
    {front back : List Nat} {buf : σ} (emits : Emits varOp vars set first front buf)
    (later : ∀ buf', first.2 = .done buf' →
      Emits varOp vars (written set first.1) (next buf') back buf') :
    Emits varOp vars set (first.andThen next) (front ++ back) buf := by
  have calls_eq := emits.calls_eq
  rcases first with ⟨events, ended⟩
  rw [TracedRun.andThen]
  cases ended with
  | done buf' =>
      have later := later buf' rfl
      refine ⟨?_, readsWritten_append.mpr ⟨emits.reads, later.reads⟩⟩
      rw [callEach_append, ← calls_eq]
      simp only [calls, List.filterMap_append, Prod.mk.injEq]
      exact ⟨congrArg _ (congrArg Prod.fst later.calls_eq), congrArg Prod.snd later.calls_eq⟩
  | null => exact ⟨by rw [callEach_append, ← calls_eq], emits.reads⟩
  | fault => exact ⟨by rw [callEach_append, ← calls_eq], emits.reads⟩
  | diverges => exact ⟨by rw [callEach_append, ← calls_eq], emits.reads⟩

open Vpcache

theorem traceSlots_emits {set : Nat → Option Nat} {cache : Vpcache} {lower count i : Nat}
    (inside : lower + count ≤ vars.length)
    (slots : ∀ k < count, cache.slot (i + k) = some (lower + count - 1 - k) ∧
      set (i + k) = some (lower + count - 1 - k)) (buf : σ) :
    Emits varOp vars set (traceSlots varOp vars cache count i buf)
        (List.range' lower count).reverse buf ∧
      written set (traceSlots varOp vars cache count i buf).1 = set := by
  induction count generalizing i buf with
  | zero => exact ⟨⟨rfl, trivial⟩, rfl⟩
  | succ count ih =>
      rcases slots 0 (by omega) with ⟨slot_eq, set_eq⟩
      rw [Nat.add_zero, Nat.sub_zero, ← Nat.add_assoc, Nat.add_sub_cancel] at slot_eq set_eq
      have var_eq : vars[lower + count]? = some vars[lower + count] :=
        List.getElem?_eq_getElem (by omega)
      have positions_eq : (List.range' lower (count + 1)).reverse =
          (lower + count) :: (List.range' lower count).reverse := by
        rw [List.range'_1_concat, List.reverse_append]
        rfl
      rw [positions_eq, traceSlots, slot_eq]
      simp only [var_eq]
      cases called : varOp vars[lower + count] buf with
      | none =>
          refine ⟨⟨?_, ⟨rfl, set_eq⟩, trivial⟩, rfl⟩
          rw [callEach, var_eq]
          simp only [called]
          rfl
      | some buf' =>
          rcases @ih (i + 1) (by omega) (fun k lt => by
            have later := slots (k + 1) (by omega)
            rw [← Nat.add_assoc, Nat.add_right_comm] at later
            rw [later.1, later.2]
            have same : lower + (count + 1) - 1 - (k + 1) = lower + count - 1 - k := by omega
            rw [same]
            exact ⟨rfl, rfl⟩) buf' with ⟨emits, kept⟩
          refine ⟨⟨?_, ⟨rfl, set_eq⟩, emits.reads⟩, kept⟩
          rw [callEach, var_eq]
          simp only [called, ← emits.calls_eq]
          rfl

theorem calls_fillEvents (stops : Nat → VariableList → Bool) (cache : Vpcache) (vp : Nat) :
    calls (fillEvents stops cache vp vars) = [] := by
  induction vars generalizing cache vp with
  | nil => rfl
  | cons var vars ih =>
      rw [fillEvents]
      split
      · rfl
      · exact ih _ _

theorem readsWritten_fillEvents (stops : Nat → VariableList → Bool) (cache : Vpcache) (vp : Nat)
    (set : Nat → Option Nat) : ReadsWritten set (fillEvents stops cache vp vars) := by
  induction vars generalizing cache vp set with
  | nil => trivial
  | cons var vars ih =>
      rw [fillEvents]
      split
      · trivial
      · exact ih _ _ _

theorem written_fillEvents (stops : Nat → VariableList → Bool) (set slot : Nat → Option Nat)
    (final : Nat) (wrapped : Bool) (vp : Nat) :
    written set (fillEvents stops ⟨slot, final, wrapped⟩ vp vars) =
      (fill stops ⟨set, final, wrapped⟩ vp vars).slot := by
  induction vars generalizing set slot final wrapped vp with
  | nil => rfl
  | cons var vars ih =>
      rw [fillEvents, fill]
      split
      · rfl
      · exact ih _ _ _ _ _

theorem emits_pass {set slot : Nat → Option Nat} {stops : Nat → VariableList → Bool}
    {later : TracedRun σ} {positions : List Nat} {buf : σ}
    (emits : Emits varOp vars (fill stops (start fun _ => none) 0 vars).slot later positions buf) :
    Emits varOp vars set
      (.pass :: fillEvents stops (start slot) 0 vars ++ later.1, later.2) positions buf := by
  refine ⟨?_, ?_⟩
  · have calls_eq : calls (.pass :: fillEvents stops (start slot) 0 vars ++ later.1) =
        calls later.1 := by
      have none := @calls_fillEvents vars stops (start slot) 0
      rw [calls] at none
      simp [calls, none]
    rw [calls_eq]
    exact emits.calls_eq
  · change ReadsWritten (fun _ => none) (fillEvents stops (start slot) 0 vars ++ later.1)
    rw [readsWritten_append, start, written_fillEvents]
    exact ⟨readsWritten_fillEvents _ _ _ _, emits.reads⟩

theorem traceVarbinds_emits {set : Nat → Option Nat} {cache : Vpcache} {count passes : Nat}
    (holds : Holds cache count)
    (setHolds : ∀ vp < count, count ≤ vp + vpcacheSize → set (slotOf vp) = some vp)
    (inside : count ≤ vars.length) (enough : count < passes) (buf : σ) :
    Emits varOp vars set (traceVarbinds varOp vars passes cache buf)
      (List.range count).reverse buf := by
  induction passes generalizing set cache count buf with
  | zero => omega
  | succ passes ih =>
      have final := holds.final
      have both (vp : Nat) (lt : vp < count) (recent : count ≤ vp + vpcacheSize) {i : Nat}
          (same : slotOf vp = i) : cache.slot i = some vp ∧ set i = some vp :=
        same ▸ ⟨holds.slot vp lt recent, setHolds vp lt recent⟩
      by_cases wraps : vpcacheSize < count
      · have finalLt : cache.final < vpcacheSize := by
          unfold slotOf vpcacheSize at *
          split at final <;> omega
        have wrapped := holds.wrapped
        rw [decide_eq_true wraps] at wrapped
        have split_eq : (List.range count).reverse =
            (List.range' (count - (vpcacheSize - cache.final))
                (vpcacheSize - cache.final)).reverse ++
              ((List.range' (count - vpcacheSize) cache.final).reverse ++
                (List.range (count - vpcacheSize)).reverse) := by
          have early_eq := @List.range'_append_1 0 (count - vpcacheSize) cache.final
          have late_eq := @List.range'_append_1 0 (count - vpcacheSize + cache.final)
            (vpcacheSize - cache.final)
          rw [Nat.zero_add] at early_eq late_eq
          have start_eq : count - (vpcacheSize - cache.final) =
              count - vpcacheSize + cache.final := by omega
          have whole : count - vpcacheSize + cache.final + (vpcacheSize - cache.final) = count := by
            omega
          rw [← List.reverse_append, ← List.reverse_append, List.range_eq_range',
            List.range_eq_range', early_eq, start_eq, late_eq, whole]
        rw [split_eq, traceVarbinds]
        have late := fun buf => @traceSlots_emits σ varOp vars set cache
          (count - (vpcacheSize - cache.final)) (vpcacheSize - cache.final) cache.final (by omega)
          (fun k lt => both _ (by omega) (by omega) (by
            unfold slotOf vpcacheSize at *
            split at final <;> omega)) buf
        have early := fun buf => @traceSlots_emits σ varOp vars set cache
          (count - vpcacheSize) cache.final 0 (by omega)
          (fun k lt => both _ (by omega) (by omega) (by
            unfold slotOf vpcacheSize at *
            split at final <;> omega)) buf
        apply (late buf).1.andThen
        intro buf' _
        rw [(late buf).2, wrapped]
        apply (early buf').1.andThen
        intro buf'' _
        rw [(early buf').2, holds.tmpvp wraps]
        have goes (position : Nat) (lt : position < vars.length)
            (before : position < count - vpcacheSize) :
            decide (0 + position = count - vpcacheSize) = false := by
          simpa using by omega
        have refilled (slot : Nat → Option Nat) := (holds_start slot).fill
          (fun vp _ => vp = count - vpcacheSize) vars (count - vpcacheSize) (by omega) goes
          (fun lt => by simp)
        rw [Nat.zero_add] at refilled
        have later := ih (refilled cache.slot) (refilled fun _ => none).slot (by omega)
          (by unfold vpcacheSize; omega) buf''
        have passed := @emits_pass _ _ _ set cache.slot _ _ _ _ later
        have tmpvp_set := both (count - vpcacheSize) (by unfold vpcacheSize at *; omega)
          (by omega) (show slotOf (count - vpcacheSize) =
            if cache.final = 0 then vpcacheSize - 1 else cache.final - 1 by
              rw [holds.next_slot]
              unfold slotOf vpcacheSize at *
              omega)
        exact ⟨passed.calls_eq, ⟨rfl, tmpvp_set.2⟩, passed.reads⟩
      · have width : vpcacheSize - cache.final = count := by
          unfold slotOf vpcacheSize at *
          split at final <;> omega
        have wrapped := holds.wrapped
        rw [decide_eq_false wraps] at wrapped
        have all := @traceSlots_emits σ varOp vars set cache 0 count cache.final (by omega)
          (fun k lt => both _ (by omega) (by omega) (by
            unfold slotOf vpcacheSize at *
            split at final <;> omega)) buf
        rw [traceVarbinds, width, wrapped, List.range_eq_range', ← List.append_nil (List.reverse _)]
        apply all.1.andThen
        intro buf' _
        exact ⟨rfl, trivial⟩

/-- From the start of the list on, every variable in front of the first `ASN_PRIV_STOP` is written
by one call, from the last to the first, unless a call fails; the cache is only read where it was
set in the same pass. -/
theorem traceLoops_calls (varOp : VariableList → σ → Option σ) (vars : List VariableList)
    (slot : Nat → Option Nat) (more : Nat) (buf : σ) :
    let traced := traceLoops varOp vars slot (vars.length + 1 + more) buf
    let sent := (vars.takeWhile fun var => var.type ≠ asnPrivStop).length
    ReadsWritten (fun _ => none) traced.1 ∧
      calls traced.1 <+: (List.range sent).reverse ∧
      ((∃ buf', traced.2 = .done buf' ∧ calls traced.1 = (List.range sent).reverse) ∨
        (traced.2 = .null ∧ ∃ vp var buf', (calls traced.1).getLast? = some vp ∧
          vars[vp]? = some var ∧ varOp var buf' = none)) := by
  intro traced sent
  have sent_eq : sent = vars.findIdx fun var => var.type = asnPrivStop := by
    have sent_le : vars.findIdx (fun var => var.type = asnPrivStop) ≤ vars.length :=
      List.findIdx_le_length
    unfold sent
    rw [List.takeWhile_eq_take_findIdx_not, List.length_take]
    simpa using sent_le
  have sent_le : sent ≤ vars.length := sent_eq ▸ List.findIdx_le_length
  have filled (slot : Nat → Option Nat) := (holds_start slot).fill
    (fun _ var => var.type = asnPrivStop) vars sent sent_le
    (fun position lt before => List.not_of_lt_findIdx (sent_eq ▸ before))
    (fun lt => by
      have found := @List.findIdx_getElem _ (fun var => decide (var.type = asnPrivStop)) vars
        (sent_eq ▸ lt)
      simpa [sent_eq] using found)
  rw [Nat.zero_add] at filled
  have emits : Emits varOp vars (fun _ => none) traced (List.range sent).reverse buf :=
    emits_pass
      (traceVarbinds_emits (filled slot) (filled fun _ => none).slot sent_le (by omega) buf)
  have inside : ∀ vp ∈ (List.range sent).reverse, vp < vars.length := by
    intro vp mem
    have lt : vp < sent := by simpa using mem
    omega
  have spec := @callEach_spec σ varOp vars _ inside buf
  rw [← emits.calls_eq] at spec
  exact ⟨emits.reads, spec⟩

/-- Of two variables of a type that cannot be written only the last one is tried. -/
theorem not_calls_all :
    ¬ ∀ vars : List VariableList,
      calls (traceLoops (fun var buf => snmpReallocRbuildVarOp true buf var) vars (fun _ => none)
          (vars.length + 1) ⟨0, [], le_rfl⟩).1 =
        (List.range (vars.takeWhile fun var => var.type ≠ asnPrivStop).length).reverse := by
  intro all
  exact absurd (all [⟨[1, 3], 0x7f, .unset 0⟩, ⟨[1, 3], 0x7f, .unset 0⟩]) (by decide +kernel)

end NetSnmp
