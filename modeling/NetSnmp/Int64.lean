import NetSnmp.Reader.Basic

/-!
# Accumulation of counters

The arithmetic on 64-bit counters in two halves, and the routine that adds the
increments of a source counter of 32 or 64 bits to such a counter.
-/

namespace NetSnmp

/-- `struct counter64`, whose members hold 32 bits each. -/
structure Counter64 where
  high : UInt32
  low : UInt32
  deriving DecidableEq, Repr

def incrByU32 (pu64 : Counter64) (u32 : UInt32) : Counter64 :=
  let low := pu64.low + u32
  { high := if low < pu64.low then pu64.high + 1 else pu64.high
    low }

def u64Subtract (pu64one pu64two : Counter64) : Counter64 :=
  let carry : UInt32 := if pu64one.low < pu64two.low then 1 else 0
  { high := pu64one.high - pu64two.high - carry
    low := pu64one.low - pu64two.low }

def u64Incr (pu64out pu64one : Counter64) : Counter64 :=
  incrByU32 { pu64out with high := pu64out.high + pu64one.high } pu64one.low

def u64UpdateCounter (pu64out pu64one pu64two : Counter64) : Counter64 :=
  u64Incr pu64out (u64Subtract pu64one pu64two)

/-- `netsnmp_c64_check_for_32bit_wrap`, for pointers that are not null: the return value, and
`new_val`. -/
def c64CheckFor32bitWrap (oldVal newVal : Counter64) (adjust : Bool) : Int × Counter64 :=
  if oldVal.low ≤ newVal.low ∧ newVal.high = oldVal.high then (0, newVal)
  else if newVal.high = oldVal.high then
    (32, if adjust then { newVal with high := newVal.high + 1 } else newVal)
  else if newVal.high = oldVal.high + 1 then (64, newVal)
  else (-2, newVal)

/-- What `netsnmp_c64_check32_and_update` returns and writes. -/
structure Check32Result where
  rc : Int
  prevVal : Counter64
  newVal : Counter64
  needWrapCheck : Option Int
  deriving DecidableEq, Repr

/-- `netsnmp_c64_check32_and_update`.  There is no `needWrapCheck` if the pointer is null. -/
def c64Check32AndUpdate (prevVal newVal oldPrevVal : Counter64) (needWrapCheck : Option Int) :
    Check32Result :=
  let (rc, newVal) :=
    if needWrapCheck = none ∨ needWrapCheck ≠ some 0 then
      c64CheckFor32bitWrap oldPrevVal newVal true
    else (0, newVal)
  if rc < 0 then ⟨-1, prevVal, newVal, needWrapCheck⟩
  else
    let prevVal := u64UpdateCounter prevVal newVal oldPrevVal
    if rc = 32 then ⟨0, prevVal, { newVal with high := 0 }, needWrapCheck⟩
    else if rc = 64 then
      if prevVal.low ≠ newVal.low ∨ prevVal.high ≠ newVal.high then
        ⟨-2, prevVal, newVal, needWrapCheck⟩
      else ⟨0, prevVal, newVal, needWrapCheck.map fun _ => 0⟩
    else ⟨0, prevVal, newVal, needWrapCheck⟩

namespace Counter64

def value (c : Counter64) : Nat := c.high.toNat * 2 ^ 32 + c.low.toNat

def ofNat (n : Nat) : Counter64 := ⟨UInt32.ofNat (n / 2 ^ 32), UInt32.ofNat n⟩

theorem value_lt (c : Counter64) : c.value < 2 ^ 64 := by
  have high := c.high.toNat_lt
  have low := c.low.toNat_lt
  unfold value
  omega

theorem value_ofNat (n : Nat) : (ofNat n).value = n % 2 ^ 64 := by
  simp only [value, ofNat, UInt32.toNat_ofNat']
  omega

theorem value_u64Subtract (one two : Counter64) :
    (u64Subtract one two).value = (one.value + (2 ^ 64 - two.value)) % 2 ^ 64 := by
  have high := one.high.toNat_lt
  have low := one.low.toNat_lt
  have high' := two.high.toNat_lt
  have low' := two.low.toNat_lt
  simp only [u64Subtract, value, UInt32.toNat_sub, UInt32.lt_iff_toNat_lt]
  split
  · rw [show (1 : UInt32).toNat = 1 from rfl]
    omega
  · rw [show (0 : UInt32).toNat = 0 from rfl]
    omega

theorem value_u64Incr (out one : Counter64) :
    (u64Incr out one).value = (out.value + one.value) % 2 ^ 64 := by
  have high := out.high.toNat_lt
  have low := out.low.toNat_lt
  have high' := one.high.toNat_lt
  have low' := one.low.toNat_lt
  simp only [u64Incr, incrByU32, value, UInt32.lt_iff_toNat_lt, UInt32.toNat_add]
  split
  · rw [UInt32.toNat_add, UInt32.toNat_add, show (1 : UInt32).toNat = 1 from rfl]
    omega
  · rw [UInt32.toNat_add]
    omega

theorem value_u64UpdateCounter (out one two : Counter64) :
    (u64UpdateCounter out one two).value =
      (out.value + (one.value + (2 ^ 64 - two.value))) % 2 ^ 64 := by
  rw [u64UpdateCounter, value_u64Incr, value_u64Subtract, Nat.add_mod_mod]

theorem ext_value {one two : Counter64} (same : one.value = two.value) : one = two := by
  have high := one.high.toNat_lt
  have low := one.low.toNat_lt
  have high' := two.high.toNat_lt
  have low' := two.low.toNat_lt
  unfold value at same
  cases one
  cases two
  simp only [mk.injEq, ← UInt32.toNat_inj]
  simp only at *
  omega

end Counter64

inductive CounterWidth where
  | bits32 | bits64
  deriving DecidableEq, Repr

def CounterWidth.bits : CounterWidth → Nat
  | .bits32 => 32
  | .bits64 => 64

/-- What a source counter of this width shows when it has counted to `count`. -/
def CounterWidth.sample (width : CounterWidth) (count : Nat) : Counter64 :=
  .ofNat (count % 2 ^ width.bits)

/-- The samples of a source counter that has counted to `count`, after each of the increments. -/
def CounterWidth.samples (width : CounterWidth) : (count : Nat) → (increments : List Nat) →
    List Counter64
  | _, [] => []
  | count, increment :: increments =>
      width.sample (count + increment) :: width.samples (count + increment) increments

/-- The variables that are kept between two samples: the accumulated value, the last sample, and
the flag. -/
structure Accumulator where
  current : Counter64
  prevVal : Counter64
  needWrapCheck : Option Int
  deriving DecidableEq, Repr

/-- A call for a sample, which is then kept for the next call. -/
def Accumulator.update (a : Accumulator) (newVal : Counter64) : Accumulator :=
  let result := c64Check32AndUpdate a.current newVal a.prevVal a.needWrapCheck
  ⟨result.prevVal, result.newVal, result.needWrapCheck⟩

section Samples

variable {count increment : Nat}

theorem sample_bits32 : CounterWidth.bits32.sample count = ⟨0, UInt32.ofNat count⟩ := by
  apply Counter64.ext_value
  rw [CounterWidth.sample, Counter64.value_ofNat]
  simp only [CounterWidth.bits, Counter64.value, UInt32.toNat_ofNat']
  rw [show (0 : UInt32).toNat = 0 from rfl]
  omega

theorem value_sample_bits64 : (CounterWidth.bits64.sample count).value = count % 2 ^ 64 := by
  rw [CounterWidth.sample, Counter64.value_ofNat, CounterWidth.bits, Nat.mod_mod]

theorem update_of_noWrap {a : Accumulator} {newVal : Counter64}
    (noWrap : c64CheckFor32bitWrap a.prevVal newVal true = (0, newVal)) :
    a.update newVal =
      ⟨u64UpdateCounter a.current newVal a.prevVal, newVal, a.needWrapCheck⟩ := by
  have checked : (if a.needWrapCheck = none ∨ a.needWrapCheck ≠ some 0 then
      c64CheckFor32bitWrap a.prevVal newVal true else (0, newVal)) = (0, newVal) := by
    rw [noWrap, ite_self]
  simp only [Accumulator.update, c64Check32AndUpdate]
  rw [checked]
  rfl

theorem update_of_wrap32 {a : Accumulator} {newVal adjusted : Counter64}
    (needed : a.needWrapCheck ≠ some 0)
    (wrap32 : c64CheckFor32bitWrap a.prevVal newVal true = (32, adjusted)) :
    a.update newVal =
      ⟨u64UpdateCounter a.current adjusted a.prevVal, { adjusted with high := 0 },
        a.needWrapCheck⟩ := by
  simp only [Accumulator.update, c64Check32AndUpdate]
  rw [if_pos (Or.inr needed), wrap32]
  rfl

theorem update_of_wrap64 {a : Accumulator} {newVal : Counter64}
    (wrap64 : c64CheckFor32bitWrap a.prevVal newVal true = (64, newVal)) :
    (a.update newVal).current = u64UpdateCounter a.current newVal a.prevVal ∧
      (a.update newVal).prevVal = newVal := by
  simp only [Accumulator.update, c64Check32AndUpdate]
  by_cases needed : a.needWrapCheck = none ∨ a.needWrapCheck ≠ some 0
  · rw [if_pos needed, wrap64]
    simp only
    rw [if_neg (by decide), if_neg (by decide), if_pos trivial]
    split
    · exact ⟨rfl, rfl⟩
    · exact ⟨rfl, rfl⟩
  · rw [if_neg needed]
    exact ⟨rfl, rfl⟩

theorem update_bits32 {a : Accumulator} (needed : a.needWrapCheck ≠ some 0)
    (last : a.prevVal = CounterWidth.bits32.sample count) (small : increment < 2 ^ 32) :
    (a.update (CounterWidth.bits32.sample (count + increment))).current.value =
        (a.current.value + increment) % 2 ^ 64 ∧
      (a.update (CounterWidth.bits32.sample (count + increment))).prevVal =
        CounterWidth.bits32.sample (count + increment) ∧
      (a.update (CounterWidth.bits32.sample (count + increment))).needWrapCheck =
        a.needWrapCheck := by
  rw [sample_bits32] at last ⊢
  have zero : (0 : UInt32).toNat = 0 := rfl
  have one : (1 : UInt32).toNat = 1 := rfl
  by_cases le : UInt32.ofNat count ≤ UInt32.ofNat (count + increment)
  · have noWrap : c64CheckFor32bitWrap a.prevVal ⟨0, UInt32.ofNat (count + increment)⟩ true =
        (0, ⟨0, UInt32.ofNat (count + increment)⟩) := by
      rw [last, c64CheckFor32bitWrap, if_pos ⟨le, rfl⟩]
    rw [update_of_noWrap noWrap]
    refine ⟨?_, rfl, rfl⟩
    rw [Counter64.value_u64UpdateCounter, last]
    rw [UInt32.le_iff_toNat_le, UInt32.toNat_ofNat', UInt32.toNat_ofNat'] at le
    simp only [Counter64.value, zero, UInt32.toNat_ofNat']
    omega
  · have wrap32 : c64CheckFor32bitWrap a.prevVal ⟨0, UInt32.ofNat (count + increment)⟩ true =
        (32, ⟨1, UInt32.ofNat (count + increment)⟩) := by
      rw [last, c64CheckFor32bitWrap, if_neg (fun both => le both.1), if_pos rfl]
      rfl
    rw [update_of_wrap32 needed wrap32]
    refine ⟨?_, rfl, rfl⟩
    rw [Counter64.value_u64UpdateCounter, last]
    rw [UInt32.le_iff_toNat_le, UInt32.toNat_ofNat', UInt32.toNat_ofNat'] at le
    simp only [Counter64.value, zero, one, UInt32.toNat_ofNat']
    omega

theorem update_bits64 {a : Accumulator} (last : a.prevVal = CounterWidth.bits64.sample count)
    (small : increment < 2 ^ 32) :
    (a.update (CounterWidth.bits64.sample (count + increment))).current.value =
        (a.current.value + increment) % 2 ^ 64 ∧
      (a.update (CounterWidth.bits64.sample (count + increment))).prevVal =
        CounterWidth.bits64.sample (count + increment) := by
  have old_value : a.prevVal.value = count % 2 ^ 64 := last ▸ value_sample_bits64
  have new_value : (CounterWidth.bits64.sample (count + increment)).value =
      (count + increment) % 2 ^ 64 := value_sample_bits64
  generalize CounterWidth.bits64.sample (count + increment) = newVal at new_value
  have notWrap32 : c64CheckFor32bitWrap a.prevVal newVal true = (0, newVal) ∨
      c64CheckFor32bitWrap a.prevVal newVal true = (64, newVal) := by
    have high := a.prevVal.high.toNat_lt
    have low := a.prevVal.low.toNat_lt
    have high' := newVal.high.toNat_lt
    have low' := newVal.low.toNat_lt
    have one : (1 : UInt32).toNat = 1 := rfl
    unfold Counter64.value at old_value new_value
    rw [c64CheckFor32bitWrap]
    split
    · exact .inl rfl
    · rename_i wrapped
      rw [UInt32.le_iff_toNat_le, ← UInt32.toNat_inj] at wrapped
      have high_ne : newVal.high ≠ a.prevVal.high := by
        rw [← UInt32.toNat_inj.ne]
        omega
      have high_eq : newVal.high = a.prevVal.high + 1 := by
        rw [← UInt32.toNat_inj.ne] at high_ne
        rw [← UInt32.toNat_inj, UInt32.toNat_add, one]
        omega
      rw [if_neg high_ne, if_pos high_eq]
      exact .inr rfl
  have updated : (a.update newVal).current = u64UpdateCounter a.current newVal a.prevVal ∧
      (a.update newVal).prevVal = newVal := by
    rcases notWrap32 with noWrap | wrap64
    · rw [update_of_noWrap noWrap]
      exact ⟨rfl, rfl⟩
    · exact update_of_wrap64 wrap64
  refine ⟨?_, updated.2⟩
  rw [updated.1, Counter64.value_u64UpdateCounter, old_value, new_value]
  omega

/-- Whatever the increments are, and whatever wraps, nothing of them is lost, and a 32-bit counter
is not taken for one of 64 bits. -/
theorem update_samples (width : CounterWidth) (count : Nat) (increments : List Nat)
    (a : Accumulator) (last : a.prevVal = width.sample count)
    (needed : width = .bits32 → a.needWrapCheck ≠ some 0)
    (small : ∀ increment ∈ increments, increment < 2 ^ 32) :
    ((width.samples count increments).foldl Accumulator.update a).current.value =
        (a.current.value + increments.sum) % 2 ^ 64 ∧
      (width = .bits32 →
        ((width.samples count increments).foldl Accumulator.update a).needWrapCheck =
          a.needWrapCheck) := by
  induction increments generalizing count a with
  | nil =>
      simp only [CounterWidth.samples, List.foldl_nil, List.sum_nil, Nat.add_zero]
      exact ⟨(Nat.mod_eq_of_lt a.current.value_lt).symm, fun _ => trivial⟩
  | cons increment increments ih =>
      have small_first := small increment List.mem_cons_self
      have small_rest : ∀ increment ∈ increments, increment < 2 ^ 32 :=
        fun increment mem => small increment (List.mem_cons_of_mem _ mem)
      simp only [CounterWidth.samples, List.foldl_cons, List.sum_cons]
      cases width with
      | bits32 =>
          rcases update_bits32 (needed rfl) last small_first with ⟨added, kept, flag_eq⟩
          have rest := ih _ _ kept (fun _ => flag_eq ▸ needed rfl) small_rest
          rw [rest.1, rest.2 rfl, added, flag_eq, Nat.mod_add_mod, Nat.add_assoc]
          exact ⟨rfl, fun _ => rfl⟩
      | bits64 =>
          rcases update_bits64 last small_first with ⟨added, kept⟩
          have rest := ih _ _ kept (fun absurdity => absurd absurdity (by decide)) small_rest
          rw [rest.1, added, Nat.mod_add_mod, Nat.add_assoc]
          exact ⟨rfl, fun absurdity => absurd absurdity (by decide)⟩

theorem update_samples_twoWraps :
    ((CounterWidth.bits32.samples 10 [2 ^ 32 - 1, 5, 2 ^ 32 - 1]).foldl Accumulator.update
        ⟨.ofNat 7, CounterWidth.bits32.sample 10, some 1⟩).current.value =
        (Counter64.value (.ofNat 7) + List.sum [2 ^ 32 - 1, 5, 2 ^ 32 - 1]) % 2 ^ 64 ∧
      (CounterWidth.bits32 = .bits32 →
        ((CounterWidth.bits32.samples 10 [2 ^ 32 - 1, 5, 2 ^ 32 - 1]).foldl Accumulator.update
          ⟨.ofNat 7, CounterWidth.bits32.sample 10, some 1⟩).needWrapCheck = some 1) :=
  update_samples .bits32 10 [2 ^ 32 - 1, 5, 2 ^ 32 - 1]
    ⟨.ofNat 7, CounterWidth.bits32.sample 10, some 1⟩ rfl (fun _ => by decide) (by decide)

end Samples

end NetSnmp
