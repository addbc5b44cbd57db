import NetSnmp.Usm.EngineTime

/-!
# The rollover of an engine clock

The clock of an engine counts seconds up to the largest engine time, and then starts from
zero with one boot more.  `get_enginetime` advances a stored clock to the present, and
goes wrong by a second when the clock rolls over on the way.
-/

namespace NetSnmp

/-- The boots and the time of an engine, a second later. -/
def tickClock (clock : Nat × Nat) : Nat × Nat :=
  if clock.2 = engineTimeMax then (min (clock.1 + 1) engineBootMax, 0)
  else (clock.1, clock.2 + 1)

theorem iterate_tickClock {boots time elapsed : Nat} (time_le : time ≤ engineTimeMax)
    (elapsed_le : elapsed ≤ engineTimeMax) :
    tickClock^[elapsed] (boots, time) =
      if time + elapsed ≤ engineTimeMax then (boots, time + elapsed)
      else (min (boots + 1) engineBootMax, time + elapsed - (engineTimeMax + 1)) := by
  induction elapsed with
  | zero => simp [time_le]
  | succ elapsed ih =>
      have before := ih (Nat.le_of_succ_le elapsed_le)
      rw [Function.iterate_succ_apply', before]
      by_cases same : time + (elapsed + 1) ≤ engineTimeMax
      · have notLast : time + elapsed ≠ engineTimeMax := by omega
        rw [if_pos (by omega), if_pos same, tickClock, if_neg notLast, Nat.add_assoc]
      · rw [if_neg same]
        by_cases rolls : time + elapsed = engineTimeMax
        · have zero_eq : time + (elapsed + 1) - (engineTimeMax + 1) = 0 := by omega
          rw [if_pos (by omega), tickClock, if_pos rolls, zero_eq]
        · have notLast : time + elapsed - (engineTimeMax + 1) ≠ engineTimeMax := by omega
          rw [if_neg (by omega), tickClock, if_neg notLast]
          have time_eq : time + elapsed - (engineTimeMax + 1) + 1 =
              time + (elapsed + 1) - (engineTimeMax + 1) := by omega
          rw [time_eq]

section Hash

variable (hashEngineID : List Byte → Option Nat)

/-- `get_enginetime`: the same as `get_enginetime_ex`, less the time that is stored. -/
def getEnginetime (etimelist : Etimelist) (engineID : List Byte) (authenticated : Bool)
    (now : Nat) : Option (Nat × Nat) :=
  (getEnginetimeEx hashEngineID etimelist engineID authenticated now).map
    fun estimate => (estimate.engineboot, estimate.engineTime)

variable {hashEngineID} {etimelist : Etimelist} {engineID : List Byte} {e : Enginetime}
  {authenticated : Bool} {elapsed : Nat}

theorem getEnginetime_of_unusable
    (known : searchEnginetimeList hashEngineID etimelist engineID = some e)
    (unusable : authenticated = true ∧ e.authenticatedFlag = false) (now : Nat) :
    getEnginetime hashEngineID etimelist engineID authenticated now = some (0, 0) := by
  simp [getEnginetime, getEnginetimeEx, known, unusable, engineTimeMax, toCInt, signedOfBits]

theorem getEnginetime_of_usable
    (known : searchEnginetimeList hashEngineID etimelist engineID = some e)
    (usable : authenticated = false ∨ e.authenticatedFlag = true)
    (time_le : e.engineTime ≤ engineTimeMax) {now : Nat} {timediff : Int}
    (timediff_eq : toCInt ((now : Int) - e.lastReceivedEngineTime) = timediff) :
    getEnginetime hashEngineID etimelist engineID authenticated now =
      some (if ((engineTimeMax - e.engineTime : Nat) : Int) < timediff then
          (if e.engineBoot < engineBootMax then e.engineBoot + 1 else e.engineBoot,
            ((timediff - (engineTimeMax - e.engineTime : Nat)) % 2 ^ 32).toNat)
        else (e.engineBoot, ((e.engineTime + timediff) % 2 ^ 32).toNat)) := by
  have usable' : decide (¬ authenticated = true ∨ e.authenticatedFlag = true) = true := by
    simpa using usable
  have room_eq : ((engineTimeMax : Int) - e.engineTime) % 2 ^ 32 =
      (engineTimeMax - e.engineTime : Nat) := by
    simp only [engineTimeMax] at time_le ⊢
    omega
  have room_small : engineTimeMax - e.engineTime < 2 ^ 31 := by
    simp only [engineTimeMax]
    omega
  simp only [getEnginetime, getEnginetimeEx, known, usable', if_true, timediff_eq, room_eq,
    toCInt_eq_self room_small]
  split <;> rfl

theorem getEnginetime_of_local
    (known : searchEnginetimeList hashEngineID etimelist engineID = some e)
    (usable : authenticated = false ∨ e.authenticatedFlag = true)
    (boots_le : e.engineBoot ≤ engineBootMax) (time_le : e.engineTime ≤ engineTimeMax)
    (elapsed_le : elapsed ≤ engineTimeMax) :
    getEnginetime hashEngineID etimelist engineID authenticated
        (e.lastReceivedEngineTime + elapsed) =
      some (if e.engineTime + elapsed ≤ engineTimeMax then (e.engineBoot, e.engineTime + elapsed)
        else (min (e.engineBoot + 1) engineBootMax, e.engineTime + elapsed - engineTimeMax)) := by
  have diff_eq : toCInt (((e.lastReceivedEngineTime + elapsed : Nat) : Int) -
      e.lastReceivedEngineTime) = elapsed := by
    rw [Nat.cast_add, add_sub_cancel_left]
    apply toCInt_eq_self
    simp only [engineTimeMax] at elapsed_le
    omega
  rw [getEnginetime_of_usable known usable time_le diff_eq]
  have timeLimit : engineTimeMax = 2147483647 := rfl
  have bootLimit : engineBootMax = 2147483647 := rfl
  by_cases same : e.engineTime + elapsed ≤ engineTimeMax
  · rw [if_neg (by omega), if_pos same, Option.some.injEq, Prod.mk.injEq]
    exact ⟨rfl, by omega⟩
  · rw [if_pos (by omega), if_neg same, Option.some.injEq, Prod.mk.injEq]
    constructor
    · split <;> omega
    · omega

theorem getEnginetime_of_rolled
    (known : searchEnginetimeList hashEngineID etimelist engineID = some e)
    (usable : authenticated = false ∨ e.authenticatedFlag = true)
    (time_le : e.engineTime ≤ engineTimeMax) (elapsed_le : elapsed ≤ engineTimeMax)
    (last_le : e.lastReceivedEngineTime ≤ engineTimeMax)
    (rolled : engineTimeMax < e.lastReceivedEngineTime + elapsed) :
    getEnginetime hashEngineID etimelist engineID authenticated
        ((e.lastReceivedEngineTime + elapsed) % (engineTimeMax + 1)) =
      some (e.engineBoot, if engineTimeMax < e.engineTime + elapsed then
          e.engineTime + elapsed - (engineTimeMax + 1)
        else e.engineTime + elapsed + (engineTimeMax + 1)) := by
  have diff_eq :
      toCInt ((((e.lastReceivedEngineTime + elapsed) % (engineTimeMax + 1) : Nat) : Int) -
        e.lastReceivedEngineTime) = (elapsed : Int) - 2 ^ 31 := by
    have timeLimit : engineTimeMax = 2147483647 := rfl
    have value_eq : (((e.lastReceivedEngineTime + elapsed) % (engineTimeMax + 1) : Nat) : Int) -
        e.lastReceivedEngineTime = (elapsed : Int) - 2 ^ 31 := by
      rw [timeLimit] at rolled last_le elapsed_le ⊢
      omega
    rw [value_eq]
    apply toCInt_eq_self_of_range
    · omega
    · omega
  rw [getEnginetime_of_usable known usable time_le diff_eq]
  have timeLimit : engineTimeMax = 2147483647 := rfl
  have bootLimit : engineBootMax = 2147483647 := rfl
  rw [if_neg (by omega), Option.some.injEq, Prod.mk.injEq]
  refine ⟨rfl, ?_⟩
  split
  · omega
  · omega

theorem getEnginetime_advances_iff
    (known : searchEnginetimeList hashEngineID etimelist engineID = some e)
    (boots_le : e.engineBoot ≤ engineBootMax) (time_le : e.engineTime ≤ engineTimeMax)
    (last_le : e.lastReceivedEngineTime ≤ engineTimeMax) (elapsed_le : elapsed ≤ engineTimeMax) :
    getEnginetime hashEngineID etimelist engineID authenticated
          ((e.lastReceivedEngineTime + elapsed) % (engineTimeMax + 1)) =
        some (tickClock^[elapsed] (e.engineBoot, e.engineTime)) ↔
      if authenticated = true ∧ e.authenticatedFlag = false then
        e.engineBoot = 0 ∧ e.engineTime = 0 ∧ elapsed = 0
      else if e.lastReceivedEngineTime + elapsed ≤ engineTimeMax then
        e.engineTime + elapsed ≤ engineTimeMax
      else engineTimeMax < e.engineTime + elapsed ∧ e.engineBoot = engineBootMax := by
  have timeLimit : engineTimeMax = 2147483647 := rfl
  have bootLimit : engineBootMax = 2147483647 := rfl
  rw [iterate_tickClock time_le elapsed_le]
  by_cases unusable : authenticated = true ∧ e.authenticatedFlag = false
  · rw [if_pos unusable, getEnginetime_of_unusable known unusable, Option.some.injEq]
    split
    · rw [Prod.mk.injEq]
      omega
    · rw [Prod.mk.injEq]
      omega
  · rw [if_neg unusable]
    have usable : authenticated = false ∨ e.authenticatedFlag = true := by
      by_contra notUsable
      rw [not_or, Bool.not_eq_false, Bool.not_eq_true] at notUsable
      exact unusable notUsable
    by_cases notRolled : e.lastReceivedEngineTime + elapsed ≤ engineTimeMax
    · rw [if_pos notRolled, Nat.mod_eq_of_lt (Nat.lt_succ_of_le notRolled),
        getEnginetime_of_local known usable boots_le time_le elapsed_le, Option.some.injEq]
      split
      · rename_i fits
        exact iff_of_true rfl fits
      · rename_i rolls
        refine iff_of_false ?_ rolls
        rw [Prod.mk.injEq]
        omega
    · rw [if_neg notRolled,
        getEnginetime_of_rolled known usable time_le elapsed_le last_le (not_le.mp notRolled),
        Option.some.injEq]
      by_cases fits : e.engineTime + elapsed ≤ engineTimeMax
      · rw [if_neg (not_lt.mpr fits), if_pos fits, Prod.mk.injEq]
        omega
      · rw [if_pos (not_le.mp fits), if_neg fits, Prod.mk.injEq]
        omega

theorem getEnginetime_mono
    (known : searchEnginetimeList hashEngineID etimelist engineID = some e)
    (boots_le : e.engineBoot ≤ engineBootMax) (time_le : e.engineTime ≤ engineTimeMax)
    {earlier later : Nat} (order : earlier ≤ later)
    (notRolled : e.lastReceivedEngineTime + later ≤ engineTimeMax) :
    ∃ clock clock' : Nat × Nat,
      getEnginetime hashEngineID etimelist engineID authenticated
        (e.lastReceivedEngineTime + earlier) = some clock ∧
      getEnginetime hashEngineID etimelist engineID authenticated
        (e.lastReceivedEngineTime + later) = some clock' ∧
      clock.2 ≤ engineTimeMax ∧ clock'.2 ≤ engineTimeMax ∧
      (e.engineBoot < engineBootMax → toLex clock ≤ toLex clock') := by
  by_cases unusable : authenticated = true ∧ e.authenticatedFlag = false
  · exact ⟨_, _, getEnginetime_of_unusable known unusable _,
      getEnginetime_of_unusable known unusable _, Nat.zero_le _, Nat.zero_le _, fun _ => le_rfl⟩
  · have usable : authenticated = false ∨ e.authenticatedFlag = true := by
      by_contra notUsable
      rw [not_or, Bool.not_eq_false, Bool.not_eq_true] at notUsable
      exact unusable notUsable
    refine ⟨_, _, getEnginetime_of_local known usable boots_le time_le (by omega),
      getEnginetime_of_local known usable boots_le time_le (by omega), ?_, ?_, ?_⟩
    · split
      · assumption
      · simp only
        omega
    · split
      · assumption
      · simp only
        omega
    · intro more
      rw [Prod.Lex.toLex_le_toLex]
      split
      · split
        · exact .inr ⟨rfl, by simp only; omega⟩
        · exact .inl (by simp only; omega)
      · rw [if_neg (by omega)]
        exact .inr ⟨rfl, by simp only; omega⟩

/-- The estimate for a record is its clock advanced by the elapsed time just under the condition of
`getEnginetime_advances_iff`; without a rollover of the local engine time it is in order. -/
theorem getEnginetime_clock_iff (authenticated : Bool)
    (known : searchEnginetimeList hashEngineID etimelist engineID = some e)
    (boots_le : e.engineBoot ≤ engineBootMax) (time_le : e.engineTime ≤ engineTimeMax)
    (last_le : e.lastReceivedEngineTime ≤ engineTimeMax) :
    (∀ elapsed ≤ engineTimeMax,
      (getEnginetime hashEngineID etimelist engineID authenticated
            ((e.lastReceivedEngineTime + elapsed) % (engineTimeMax + 1)) =
          some (tickClock^[elapsed] (e.engineBoot, e.engineTime)) ↔
        if authenticated = true ∧ e.authenticatedFlag = false then
          e.engineBoot = 0 ∧ e.engineTime = 0 ∧ elapsed = 0
        else if e.lastReceivedEngineTime + elapsed ≤ engineTimeMax then
          e.engineTime + elapsed ≤ engineTimeMax
        else engineTimeMax < e.engineTime + elapsed ∧ e.engineBoot = engineBootMax)) ∧
    ∀ earlier later, earlier ≤ later → e.lastReceivedEngineTime + later ≤ engineTimeMax →
      ∃ clock clock' : Nat × Nat,
        getEnginetime hashEngineID etimelist engineID authenticated
          (e.lastReceivedEngineTime + earlier) = some clock ∧
        getEnginetime hashEngineID etimelist engineID authenticated
          (e.lastReceivedEngineTime + later) = some clock' ∧
        clock.2 ≤ engineTimeMax ∧ clock'.2 ≤ engineTimeMax ∧
        (e.engineBoot < engineBootMax → toLex clock ≤ toLex clock') := by
  constructor
  · intro elapsed elapsed_le
    exact getEnginetime_advances_iff known boots_le time_le last_le elapsed_le
  · intro earlier later order notRolled
    exact getEnginetime_mono known boots_le time_le order notRolled

end Hash

def lastSecond : Enginetime := ⟨[0x80], engineTimeMax, 5, 100, true⟩

def lastSecondList : Etimelist := fun _ => [lastSecond]

theorem getEnginetime_clock_lastSecond :
    getEnginetime (fun _ => some 0) lastSecondList [0x80] true 100 = some (5, engineTimeMax) := by
  have advances := ((getEnginetime_clock_iff true (rfl : searchEnginetimeList (fun _ => some 0)
    lastSecondList [0x80] = some lastSecond) (by decide) (by decide) (by decide)).1 0
      (by decide)).mpr (by decide)
  exact advances

theorem not_getEnginetime_clock :
    ¬ ∀ (hashEngineID : List Byte → Option Nat) (etimelist : Etimelist) (engineID : List Byte)
        (e : Enginetime) (elapsed : Nat),
      searchEnginetimeList hashEngineID etimelist engineID = some e →
      e.engineBoot ≤ engineBootMax → e.engineTime ≤ engineTimeMax →
      elapsed ≤ engineTimeMax → e.authenticatedFlag = true →
      e.lastReceivedEngineTime + elapsed ≤ engineTimeMax →
      getEnginetime hashEngineID etimelist engineID true (e.lastReceivedEngineTime + elapsed) =
        some (tickClock^[elapsed] (e.engineBoot, e.engineTime)) := by
  intro alwaysAdvances
  have advanced := alwaysAdvances (fun _ => some 0) lastSecondList [0x80] lastSecond 1 rfl
    (by decide) (by decide) (by decide) rfl (by decide)
  exact absurd advanced (by decide)

end NetSnmp
