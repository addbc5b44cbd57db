import Mathlib.Data.Prod.Lex
import NetSnmp.Engine.Clock

/-!
# The local engine over restarts

Within a run the boots and the time are the quotient and the remainder of the seconds
since its start, and each run starts with more boots than the one before ended with.
-/

namespace NetSnmp

variable {engine : EngineClock} {now : Timeval} {engineID : List Byte} {reads : List Timeval}

def secondsSince (start now : Timeval) : Nat := (now.micros - start.micros + 500000) / 1000000

def EngineReading.clock (reading : EngineReading) : ℕ ×ₗ ℕ := toLex (reading.boots, reading.time)

def ReadRegularly (since : Timeval) : List Timeval → Prop
  | [] => True
  | now :: later =>
      (since.micros ≤ now.micros ∧ now.micros ≤ since.micros + (2 ^ 31 - 1) * 1000000) ∧
        ReadRegularly now later

/-- The engine at a time: the boots of the run have counted how often the time has wrapped. -/
structure EngineClock.At (engine : EngineClock) (start : Timeval) (boots : Nat) (now : Timeval) :
    Prop where
  started : engine.snmpv3starttime = start
  later : start.micros ≤ now.micros
  boots_eq : engine.engineBoots = boots + secondsSince start now / 2 ^ 31
  time_eq : engine.lastEngineTime = secondsSince start now % 2 ^ 31

theorem calculateSectimeDiff_eq {since : Timeval} (later : since.micros ≤ now.micros) :
    calculateSectimeDiff now since = secondsSince since now % 2 ^ 32 := by
  rcases now.micros_sub since with ⟨difference, small⟩
  have seconds : (now.sub since).1 + (if 500000 ≤ (now.sub since).2 then 1 else 0) =
      (secondsSince since now : Int) := by
    rw [secondsSince]
    split
    · omega
    · omega
  simp only [calculateSectimeDiff, seconds]
  omega

@[simp]
theorem readEngine_engineID (engine : EngineClock) (now : Timeval) :
    (readEngine engine now).1.engineID = engine.engineID := by
  have others : ∃ boots time, (readEngine engine now).1 =
      ⟨boots, engine.engineID, engine.oldEngineID, engine.snmpv3starttime, time⟩ := ⟨_, _, rfl⟩
  rcases others with ⟨boots, time, same⟩
  rw [same]

theorem readEngine_at {start since : Timeval} {boots : Nat} (holds : engine.At start boots since)
    (later : since.micros ≤ now.micros)
    (soon : now.micros ≤ since.micros + (2 ^ 31 - 1) * 1000000) :
    (readEngine engine now).1.At start boots now ∧
      (readEngine engine now).2 = ⟨now, boots + secondsSince start now / 2 ^ 31,
        secondsSince start now % 2 ^ 31⟩ := by
  have laterThanStart : start.micros ≤ now.micros := holds.later.trans later
  have time : calculateSectimeDiff now engine.snmpv3starttime % 2 ^ 31 =
      secondsSince start now % 2 ^ 31 := by
    rw [holds.started, calculateSectimeDiff_eq laterThanStart]
    omega
  have boots_eq : (if secondsSince start now % 2 ^ 31 < engine.lastEngineTime then
      engine.engineBoots + 1 else engine.engineBoots) =
      boots + secondsSince start now / 2 ^ 31 := by
    have grows : secondsSince start since ≤ secondsSince start now ∧
        secondsSince start now ≤ secondsSince start since + (2 ^ 31 - 1) := by
      have := holds.later
      simp only [secondsSince]
      omega
    rw [holds.time_eq, holds.boots_eq]
    split
    · omega
    · omega
  simp only [readEngine, localSnmpEngineTime, time, boots_eq]
  exact ⟨⟨holds.started, laterThanStart, rfl, rfl⟩, trivial⟩

theorem readAll_at {start since : Timeval} {boots : Nat} (holds : engine.At start boots since)
    (regular : ReadRegularly since reads) :
    (readAll engine reads).2 = reads.map (fun now => ⟨now, boots + secondsSince start now / 2 ^ 31,
      secondsSince start now % 2 ^ 31⟩) ∧
    (∃ last ∈ since :: reads, (∀ now ∈ since :: reads, now.micros ≤ last.micros) ∧
      (readAll engine reads).1.At start boots last) ∧
    (readAll engine reads).1.engineID = engine.engineID := by
  induction reads generalizing engine since with
  | nil => exact ⟨rfl, ⟨since, List.mem_cons_self, by simp, holds⟩, rfl⟩
  | cons now reads ih =>
      rcases regular with ⟨⟨later, soon⟩, regular⟩
      rcases readEngine_at holds later soon with ⟨after, reading⟩
      rcases ih after regular with ⟨rest, ⟨last, mem, latest, ended⟩, same⟩
      refine ⟨?_, ⟨last, List.mem_cons_of_mem _ mem, ?_, ended⟩, ?_⟩
      · simp only [readAll, reading, rest, List.map_cons]
      · intro now' mem'
        rcases List.mem_cons.mp mem' with rfl | mem''
        · exact later.trans (latest now List.mem_cons_self)
        · exact latest now' mem''
      · simp only [readAll, same, readEngine_engineID]

theorem configLine_engineBoots {boots : Nat} (small : boots < 2 ^ 63) :
    configLine (engineBootsToken ++ 0x20 :: formatLd boots) =
      some (engineBootsToken, formatLd boots) := by
  have digits : ∀ c ∈ formatLd boots, isdigit c = true := by
    rw [formatLd, if_pos small]
    exact decimal_digits boots
  apply configLine_append (by decide +kernel) (by decide) (by decide +kernel)
  · intro c mem
    have digit := digits c (List.mem_of_mem_head? mem)
    refine ⟨isspace_of_isdigit digit, ?_⟩
    rintro rfl
    exact absurd digit (by decide)
  · intro c mem
    exact isspace_of_isdigit (digits c (List.mem_of_getLast? mem))
  · rw [formatLd, if_pos small]
    exact decimal_ne_nil boots

theorem configLine_oldEngineID (engineID : List Byte) :
    configLine (oldEngineIDToken ++ 0x20 :: saveOctetString (some engineID)) =
      some (oldEngineIDToken, saveOctetString (some engineID)) := by
  apply configLine_append (by decide +kernel) (by decide) (by decide +kernel)
  · rw [saveOctetString]
    split
    · simp [isspace]
    · simp [isspace]
  · rw [saveOctetString]
    split
    · intro c mem
      rw [List.getLast?_concat] at mem
      cases mem
      rfl
    · intro c mem
      rcases List.mem_cons.mp (List.mem_of_getLast? mem) with rfl | later
      · rfl
      · rcases List.mem_cons.mp later with rfl | digit
        · rfl
        · exact hexDigits_noSpace engineID c digit
  · rw [saveOctetString]
    split
    · simp
    · simp

theorem readConfigs_snmpv3Store (engineID : List Byte) (start : Timeval)
    (small : engine.engineBoots < 2 ^ 31 - 1)
    (long : 5 ≤ engine.engineID.length) (short : engine.engineID.length ≤ 32) :
    readConfigs (initSnmpv3 engineID start) (snmpv3Store engine) =
      ⟨engine.engineBoots + 1, engineID, some engine.engineID, start, 0⟩ := by
  have stored : engine.engineID ≠ [] ∧ engine.engineID.length ≤ 512 := by
    constructor
    · rintro empty
      rw [empty] at long
      exact absurd long (by decide)
    · omega
  have read : readConfigReadOctetString (some (saveOctetString (some engine.engineID))) none =
      some ⟨some engine.engineID, none⟩ := by
    have width : snmpMaxbuf = 4096 := rfl
    have read := @readConfigReadOctetString_saveOctetString [] engine.engineID (by omega) (by simp)
    rwa [List.append_nil] at read
  have boots : ((atoi (formatLd engine.engineBoots) + 1) % 2 ^ 64).toNat =
      engine.engineBoots + 1 := by
    rw [atoi_formatLd (by omega)]
    omega
  have notShort : ¬ engine.engineID.length < 4 := by omega
  have tokens : sameWord engineBootsToken engineBootsToken = true ∧
      sameWord oldEngineIDToken engineBootsToken = false ∧
      sameWord oldEngineIDToken oldEngineIDToken = true := by decide
  simp only [readConfigs, snmpv3Store, if_pos stored, List.foldl_cons, List.foldl_nil,
    runConfigHandler, configLine_engineBoots (show engine.engineBoots < 2 ^ 63 by omega),
    configLine_oldEngineID, tokens, if_true, if_false, Bool.false_eq_true, reduceCtorEq,
    engineBootsConf, oldengineIDConf, initSnmpv3, read, Option.getD_some, boots, notShort]

theorem configured_at {start : Timeval} (boots : Nat) (engineID : List Byte)
    (oldEngineID : Option (List Byte)) (later : start.micros ≤ now.micros)
    (soon : now.micros ≤ start.micros + (2 ^ 31 - 1) * 1000000) :
    let boots' := if oldEngineID = some engineID then boots else 1
    let configured := initSnmpv3PostConfig ⟨boots, engineID, oldEngineID, start, 0⟩ now
    configured.1.At start boots' now ∧ configured.1.engineID = engineID ∧
      configured.2 = ⟨now, boots' + secondsSince start now / 2 ^ 31,
        secondsSince start now % 2 ^ 31⟩ := by
  have initial (boots : Nat) : EngineClock.At ⟨boots, engineID, oldEngineID, start, 0⟩ start boots
      start := by
    refine ⟨rfl, le_rfl, ?_, ?_⟩
    · simp [secondsSince]
    · simp [secondsSince]
  have read (boots : Nat) := readEngine_at (initial boots) later soon
  cases oldEngineID with
  | none =>
      simp only [initSnmpv3PostConfig, reduceCtorEq, if_false, readEngine_engineID]
      exact ⟨(read 1).1, trivial, (read 1).2⟩
  | some oldEngineID =>
      have same_iff : (engineID.length ≠ oldEngineID.length ∨
          memcmp oldEngineID engineID engineID.length ≠ 0) ↔ ¬ oldEngineID = engineID := by
        rw [ne_eq, ne_eq, memcmp_eq_zero_iff, List.take_length, ← not_and_or]
        apply not_congr
        constructor
        · rintro ⟨length_eq, same⟩
          rwa [length_eq, List.take_length] at same
        · rintro rfl
          exact ⟨rfl, List.take_length⟩
      simp only [initSnmpv3PostConfig, same_iff, Option.some.injEq]
      by_cases same : oldEngineID = engineID
      · simp only [same, not_true_eq_false, if_false, if_true, readEngine_engineID]
        subst same
        exact ⟨(read boots).1, trivial, (read boots).2⟩
      · simp only [same, not_false_eq_true, if_true, if_false, readEngine_engineID]
        exact ⟨(read 1).1, trivial, (read 1).2⟩

/-- A run reads the time in order and often enough. -/
def EngineRun.Regular (run : EngineRun) : Prop :=
    ReadRegularly run.start (run.configured :: run.reads)

/-- What is stored by an engine with an engine ID and some boots, or by none. -/
inductive StoredBy (engineID : List Byte) : (boots : Nat) → List (List Byte) → Prop
  | none : StoredBy engineID 0 []
  | engine {engine : EngineClock} (same : engine.engineID = engineID) :
      StoredBy engineID engine.engineBoots (snmpv3Store engine)

variable {run : EngineRun} {stored : List (List Byte)}

theorem readings_of_storedBy {boots : Nat} (long : 5 ≤ engineID.length)
    (short : engineID.length ≤ 32)
    (storedBy : StoredBy engineID boots stored) (small : boots < 2 ^ 31 - 1)
    (regular : run.Regular) :
    (run.readings engineID stored).2 = (run.configured :: run.reads).map (fun now =>
      ⟨now, boots + 1 + secondsSince run.start now / 2 ^ 31,
        secondsSince run.start now % 2 ^ 31⟩) ∧
    (run.readings engineID stored).1.engineID = engineID ∧
    (∃ reading ∈ (run.readings engineID stored).2,
      reading.boots = (run.readings engineID stored).1.engineBoots) ∧
    ∀ reading ∈ (run.readings engineID stored).2,
      reading.boots ≤ (run.readings engineID stored).1.engineBoots := by
  have configured : ∃ oldEngineID boots',
      readConfigs (initSnmpv3 engineID run.start) stored =
        ⟨boots', engineID, oldEngineID, run.start, 0⟩ ∧
      (if oldEngineID = some engineID then boots' else 1) = boots + 1 := by
    cases storedBy with
    | none => exact ⟨none, 1, rfl, by simp⟩
    | @engine engine same =>
        subst same
        exact ⟨some engine.engineID, engine.engineBoots + 1,
          readConfigs_snmpv3Store _ _ small long short, if_pos rfl⟩
  rcases configured with ⟨oldEngineID, boots', found, boots_eq⟩
  rcases regular with ⟨⟨later, soon⟩, regular⟩
  rcases configured_at boots' engineID oldEngineID later soon with ⟨holds, same, reading⟩
  rw [boots_eq] at holds reading
  rcases readAll_at holds regular with ⟨rest, ⟨last, mem, latest, ended⟩, same'⟩
  have readings : (run.readings engineID stored).2 = (run.configured :: run.reads).map (fun now =>
      ⟨now, boots + 1 + secondsSince run.start now / 2 ^ 31,
        secondsSince run.start now % 2 ^ 31⟩) := by
    simp only [EngineRun.readings, found, reading, rest, List.map_cons]
  have boots_end : (run.readings engineID stored).1.engineBoots =
      boots + 1 + secondsSince run.start last / 2 ^ 31 := by
    simp only [EngineRun.readings, found, ended.boots_eq]
  refine ⟨readings, ?_, ?_, ?_⟩
  · simp only [EngineRun.readings, found, same', same]
  · rw [readings]
    exact ⟨_, List.mem_map_of_mem mem, boots_end.symm⟩
  · rw [readings, boots_end]
    intro reading readingMem
    rcases List.mem_map.mp readingMem with ⟨now, nowMem, rfl⟩
    have le := latest now nowMem
    simp only [secondsSince]
    omega

theorem toLex_seconds_lt {boots seconds seconds' : Nat} (lt : seconds < seconds') :
    toLex (boots + seconds / 2 ^ 31, seconds % 2 ^ 31) <
      toLex (boots + seconds' / 2 ^ 31, seconds' % 2 ^ 31) := by
  apply Prod.Lex.toLex_lt_toLex.mpr
  rcases Nat.lt_or_ge (seconds / 2 ^ 31) (seconds' / 2 ^ 31) with less | notLess
  · left
    simp only
    omega
  · right
    simp only
    omega

/-- Readings of one run never go back, and go on when a second has passed. -/
def Advances (reading reading' : EngineReading) : Prop :=
  reading.clock ≤ reading'.clock ∧
    (reading.now.micros + 1000000 ≤ reading'.now.micros → reading.clock < reading'.clock)

theorem ReadRegularly.sorted {since : Timeval} (regular : ReadRegularly since reads) :
    (since :: reads).Pairwise fun now later => now.micros ≤ later.micros := by
  induction reads generalizing since with
  | nil => exact List.pairwise_singleton _ _
  | cons now reads ih =>
      rcases regular with ⟨⟨later, -⟩, regular⟩
      have rest := ih regular
      refine List.pairwise_cons.mpr ⟨?_, rest⟩
      intro now' mem
      rcases List.mem_cons.mp mem with rfl | mem'
      · exact later
      · exact later.trans ((List.pairwise_cons.mp rest).1 now' mem')

theorem advances_of_regular {boots : Nat} {start : Timeval} (regular : ReadRegularly start reads) :
    (reads.map fun now => (⟨now, boots + secondsSince start now / 2 ^ 31,
      secondsSince start now % 2 ^ 31⟩ : EngineReading)).Pairwise Advances := by
  rcases List.pairwise_cons.mp regular.sorted with ⟨started, sorted⟩
  apply List.pairwise_map.mpr
  refine sorted.imp_of_mem ?_
  intro now now' mem mem' le
  have later := started now mem
  refine ⟨?_, ?_⟩
  · rcases Nat.lt_or_ge (secondsSince start now) (secondsSince start now') with less | notLess
    · exact (toLex_seconds_lt less).le
    · have same : secondsSince start now = secondsSince start now' := by
        apply le_antisymm ?_ notLess
        simp only [secondsSince]
        omega
      simp only [EngineReading.clock, same]
      exact le_rfl
  · intro passed
    apply toLex_seconds_lt
    simp only [secondsSince]
    simp only at passed
    omega

theorem readingsOfRuns_of_storedBy {boots : Nat} {runs : List EngineRun}
    (long : 5 ≤ engineID.length) (short : engineID.length ≤ 32)
    (storedBy : StoredBy engineID boots stored) (small : boots < 2 ^ 31 - 1)
    (regular : ∀ run ∈ runs, run.Regular)
    (below : ∀ readings ∈ readingsOfRuns engineID stored runs, ∀ reading ∈ readings,
      reading.boots < 2 ^ 31 - 1) :
    (∀ readings ∈ readingsOfRuns engineID stored runs, ∀ reading ∈ readings,
      boots < reading.boots ∧ reading.time < 2 ^ 31) ∧
    (∀ readings ∈ readingsOfRuns engineID stored runs, readings.Pairwise Advances) ∧
    (readingsOfRuns engineID stored runs).Pairwise fun earlier later =>
      ∀ reading ∈ earlier, ∀ reading' ∈ later, reading.clock < reading'.clock := by
  induction runs generalizing boots stored with
  | nil => simp [readingsOfRuns]
  | cons run runs ih =>
      have runRegular := regular run List.mem_cons_self
      rcases readings_of_storedBy long short storedBy small runRegular with
        ⟨readings, same, ⟨last, lastMem, lastBoots⟩, most⟩
      have lastSmall := below _ List.mem_cons_self last lastMem
      have advancing : ((run.readings engineID stored).2).Pairwise Advances := by
        rw [readings]
        exact advances_of_regular runRegular
      -- no reading of a run has more boots than the engine at its end
      have atMost : ∀ reading ∈ (run.readings engineID stored).2,
          boots < reading.boots ∧ reading.time < 2 ^ 31 ∧
            reading.boots ≤ (run.readings engineID stored).1.engineBoots := by
        intro reading mem
        refine ⟨?_, ?_, most reading mem⟩
        · rw [readings] at mem
          rcases List.mem_map.mp mem with ⟨now, -, rfl⟩
          simp only
          omega
        · rw [readings] at mem
          rcases List.mem_map.mp mem with ⟨now, -, rfl⟩
          simp only
          omega
      rcases ih (StoredBy.engine same) (lastBoots ▸ lastSmall)
        (fun run' mem => regular run' (List.mem_cons_of_mem _ mem))
        (fun readings mem => below readings (List.mem_cons_of_mem _ mem)) with
        ⟨later, laterAdvancing, ordered⟩
      refine ⟨?_, ?_, ?_⟩
      · intro readings mem reading readingMem
        rcases List.mem_cons.mp mem with rfl | mem'
        · exact ⟨(atMost reading readingMem).1, (atMost reading readingMem).2.1⟩
        · have here := later readings mem' reading readingMem
          have before := (atMost last lastMem).1
          exact ⟨(before.trans_le (atMost last lastMem).2.2).trans here.1, here.2⟩
      · intro readings mem
        rcases List.mem_cons.mp mem with rfl | mem'
        · exact advancing
        · exact laterAdvancing readings mem'
      · refine List.pairwise_cons.mpr ⟨?_, ordered⟩
        intro readings mem reading readingMem reading' readingMem'
        apply Prod.Lex.toLex_lt_toLex.mpr
        left
        exact (atMost reading readingMem).2.2.trans_lt (later readings mem reading' readingMem').1

theorem head_boots_of_otherEngineID (other : engine.engineID ≠ engineID)
    (long : 5 ≤ engine.engineID.length) (short : engine.engineID.length ≤ 32)
    (small : engine.engineBoots < 2 ^ 31 - 1) (regular : run.Regular) :
    ((run.readings engineID (snmpv3Store engine)).2.head?).map EngineReading.boots = some 1 := by
  rcases regular with ⟨⟨later, soon⟩, -⟩
  rcases configured_at (engine.engineBoots + 1) engineID (some engine.engineID) later soon with
    ⟨-, -, reading⟩
  have found := readConfigs_snmpv3Store engineID run.start small long short
  rw [if_neg (by simpa using other)] at reading
  simp only [EngineRun.readings, found, reading, List.head?_cons, Option.map_some, secondsSince]
  congr 1
  omega

/-- The clock of the local engine does not go back, within a run or from one run to the next, and
starts again with an engine ID that is not the stored one. -/
theorem localEngine_clock (engineID : List Byte) (runs : List EngineRun)
    (long : 5 ≤ engineID.length) (short : engineID.length ≤ 32)
    (regular : ∀ run ∈ runs, run.Regular)
    (below : ∀ readings ∈ readingsOfRuns engineID [] runs, ∀ reading ∈ readings,
      reading.boots < 2 ^ 31 - 1) :
    (∀ readings ∈ readingsOfRuns engineID [] runs, ∀ reading ∈ readings,
      1 ≤ reading.boots ∧ reading.time < 2 ^ 31) ∧
    (∀ readings ∈ readingsOfRuns engineID [] runs, readings.Pairwise Advances) ∧
    ((readingsOfRuns engineID [] runs).Pairwise fun earlier later =>
      ∀ reading ∈ earlier, ∀ reading' ∈ later, reading.clock < reading'.clock) ∧
    ∀ engine : EngineClock, engine.engineID ≠ engineID → 5 ≤ engine.engineID.length →
      engine.engineID.length ≤ 32 → engine.engineBoots < 2 ^ 31 - 1 →
      ∀ run : EngineRun, run.Regular →
        ((run.readings engineID (snmpv3Store engine)).2.head?).map EngineReading.boots =
          some 1 := by
  rcases readingsOfRuns_of_storedBy long short .none (by decide) regular below with
    ⟨bounds, advancing, ordered⟩
  refine ⟨?_, advancing, ordered, ?_⟩
  · intro readings mem reading readingMem
    exact bounds readings mem reading readingMem
  · intro engine other long' short' small run regular
    exact head_boots_of_otherEngineID other long' short' small regular

theorem localEngine_clock_twoRuns :
    ((readingsOfRuns [1, 2, 3, 4, 5] []
      [⟨.zero, .zero, [⟨30, 0, by decide⟩]⟩, ⟨.zero, .zero, []⟩]).Pairwise fun earlier later =>
      ∀ reading ∈ earlier, ∀ reading' ∈ later, reading.clock < reading'.clock) := by
  refine (localEngine_clock [1, 2, 3, 4, 5] _ (by decide) (by decide) ?_ ?_).2.2.1
  · simp only [List.mem_cons, List.not_mem_nil, or_false, forall_eq_or_imp, forall_eq]
    simp [EngineRun.Regular, ReadRegularly, Timeval.zero, Timeval.micros]
  · decide

end NetSnmp
