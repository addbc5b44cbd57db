import Mathlib.Algebra.Group.Nat.Defs
import NetSnmp.Timeval

/-!
# The cache helper

When the cache helper loads the data of a module and when they are freed, by the requests that pass
through its handler, by the reload timer and by the auto-release routine.
-/

namespace NetSnmp

namespace CacheHelper

/-- The members of a `netsnmp_cache` that stay as they are. It has both hooks. -/
structure CacheSettings where
  timeout : Int
  enabled : Bool := true
  dontInvalidateOnSet : Bool := false
  dontFreeBeforeLoad : Bool := false
  dontFreeExpired : Bool := false
  dontAutoRelease : Bool := false
  resetTimerOnUse : Bool := false

inductive RequestMode where
  | get
  | getNext
  | getBulk
  | setReserve1
  | setReserve2
  | setAction
  | setCommit
  | setFree
  | setUndo
  | unrecognised
  deriving DecidableEq, Repr

inductive FreeCause where
  | reload
  | commit
  | release
  deriving DecidableEq, Repr

/-- What can be observed: calls of the load hook, for a request or the timer, with what they return,
calls of the free hook, and requests that are passed on to the next handler. -/
inductive Happened where
  | load (request : Option Nat) (time : Timeval) (succeeds : Bool)
  | free (cause : FreeCause)
  | passedOn (request : Nat) (mode : RequestMode) (time : Timeval) (valid : Bool)
  deriving DecidableEq, Repr

/-- The cache, the clock, the requests that know the cache, and what has happened, the latest
first. -/
structure CacheState where
  valid : Bool := false
  expired : Bool := false
  timestampM : Option Timeval := none
  now : Timeval := .zero
  reqinfos : List Nat := []
  happened : List Happened := []

namespace CacheState

def record (cache : CacheState) (entry : Happened) : CacheState :=
  { cache with happened := entry :: cache.happened }

/-- `netsnmp_cache_is_valid` -/
def isValid (cache : CacheState) (request : Nat) : Bool :=
  cache.reqinfos.contains request && cache.valid

/-- `netsnmp_cache_reqinfo_insert` -/
def reqinfoInsert (cache : CacheState) (request : Nat) : CacheState :=
  if cache.reqinfos.contains request then cache
  else { cache with reqinfos := request :: cache.reqinfos }

def passOn (cache : CacheState) (request : Nat) (mode : RequestMode) : CacheState :=
  cache.record (.passedOn request mode cache.now (cache.isValid request))

def freeCache (cache : CacheState) (cause : FreeCause) : CacheState :=
  { cache.record (.free cause) with valid := false }

end CacheState

/-- `netsnmp_ready_monotonic` -/
def readyMonotonic (pm : Option Timeval) (now : Timeval) (deltaMs : Int) : Bool :=
  match pm with
  | none => false
  | some pm =>
      let diff := now.sub pm
      let sec := deltaMs.tdiv 1000
      let usec := deltaMs.tmod 1000 * 1000
      if diff.1 = sec then decide (usec ≤ diff.2) else decide (sec ≤ diff.1)

/-- `netsnmp_cache_check_expired`, which sets `expired`. -/
def checkExpired (settings : CacheSettings) (cache : CacheState) : CacheState :=
  if cache.expired then cache
  else if !cache.valid || cache.timestampM.isNone || settings.timeout = -1 then
    { cache with expired := true }
  else
    let deltaMs := (1000 * settings.timeout).bmod (2 ^ 32)
    { cache with expired := readyMonotonic cache.timestampM cache.now deltaMs }

/-- `_cache_load`. Whether the load hook succeeds is up to the module. -/
def cacheLoad (settings : CacheSettings) (request : Option Nat) (succeeds : Bool)
    (cache : CacheState) : CacheState :=
  let cache :=
    if cache.valid && !settings.dontFreeBeforeLoad then cache.freeCache .reload else cache
  let cache := cache.record (.load request cache.now succeeds)
  if succeeds then { cache with valid := true, expired := false, timestampM := some cache.now }
  else { cache with valid := false }

/-- `netsnmp_cache_check_and_reload` -/
def checkAndReload (settings : CacheSettings) (request : Nat) (succeeds : Bool)
    (cache : CacheState) : CacheState :=
  if !cache.valid then cacheLoad settings (some request) succeeds cache
  else
    let cache := checkExpired settings cache
    if cache.expired then cacheLoad settings (some request) succeeds cache else cache

/-- `netsnmp_cache_helper_handler` in the modes that check the cache, which is touched once for each
request. -/
def touchCache (settings : CacheSettings) (request : Nat) (succeeds : Bool) (cache : CacheState) :
    CacheState :=
  if cache.isValid request then cache
  else (checkAndReload settings request succeeds cache).reqinfoInsert request

/-- `netsnmp_cache_helper_handler` -/
def cacheHelperHandler (settings : CacheSettings) (request : Nat) (mode : RequestMode)
    (succeeds : Bool) (cache : CacheState) : CacheState :=
  let use (cache : CacheState) : CacheState :=
    if settings.resetTimerOnUse then { cache with timestampM := some cache.now } else cache
  if !settings.enabled then cache.passOn request mode
  else
    match mode with
    | .get | .getNext | .getBulk | .setReserve1 =>
        (use (touchCache settings request succeeds cache)).passOn request mode
    | .setReserve2 | .setFree | .setAction | .setUndo => (use cache).passOn request mode
    | .setCommit =>
        (use (if cache.valid && !settings.dontInvalidateOnSet then cache.freeCache .commit
          else cache)).passOn request mode
    | .unrecognised => cache

def timerReload (settings : CacheSettings) (succeeds : Bool) (cache : CacheState) : CacheState :=
  cacheLoad settings none succeeds { cache with expired := true }

/-- `release_cached_resources` for this cache. -/
def releaseCachedResources (settings : CacheSettings) (cache : CacheState) : CacheState :=
  if cache.valid && !settings.dontAutoRelease then
    let cache := checkExpired settings cache
    if cache.expired && !settings.dontFreeExpired then cache.freeCache .release else cache
  else cache

/-- What can happen to a cache, with the outcome of a load if there is one. -/
inductive CacheEvent where
  | request (request : Nat) (mode : RequestMode) (succeeds : Bool)
  | advance (elapsed : Timeval)
  | timer (succeeds : Bool)
  | release

def afterEvent (settings : CacheSettings) (cache : CacheState) : CacheEvent → CacheState
  | .request request mode succeeds => cacheHelperHandler settings request mode succeeds cache
  | .advance elapsed => { cache with now := cache.now.add elapsed }
  | .timer succeeds => timerReload settings succeeds cache
  | .release => releaseCachedResources settings cache

def afterEvents (settings : CacheSettings) (events : List CacheEvent) : CacheState :=
  events.foldl (afterEvent settings) {}

/-- The settings for which the data are freed whenever they are loaded anew or have expired. -/
structure CacheSettings.Plain (settings : CacheSettings) : Prop where
  positive : 1 ≤ settings.timeout
  bounded : settings.timeout ≤ 2147483
  freeBeforeLoad : settings.dontFreeBeforeLoad = false
  freeExpired : settings.dontFreeExpired = false
  timer : settings.resetTimerOnUse = false

def RequestMode.checks (mode : RequestMode) : Bool :=
  mode = .get || mode = .getNext || mode = .getBulk || mode = .setReserve1

def EachTime (property : Happened → List Happened → Prop) : List Happened → Prop
  | [] => True
  | entry :: before => property entry before ∧ EachTime property before

def holdsData : List Happened → Bool
  | [] => false
  | .load _ _ true :: _ => true
  | .free _ :: _ => false
  | _ :: before => holdsData before

def loadedAt : List Happened → Option Timeval
  | [] => none
  | .load _ time true :: _ => some time
  | _ :: before => loadedAt before

def Alternates : Happened → List Happened → Prop
  | .load _ _ true, before => holdsData before = false
  | .free _, before => holdsData before = true
  | _, _ => True

def isLoadFor (request : Nat) : Happened → Bool
  | .load (some request') _ true => request' = request
  | _ => false

def isPassFor (request : Nat) (which : RequestMode → Bool) : Happened → Bool
  | .passedOn request' mode _ _ => request' = request && which mode
  | _ => false

def LoadsOnce : Happened → List Happened → Prop
  | .load (some request) _ true, before =>
      before.any (isPassFor request (· = .setCommit)) = false →
        before.any (isLoadFor request) = false
  | _, _ => True

/-- The last load was one for the request, or came behind a call of the handler for it. -/
def loadedDuring (request : Nat) : List Happened → Bool
  | [] => false
  | .load loader _ true :: before =>
      loader = some request || before.any (isPassFor request fun _ => true)
  | _ :: before => loadedDuring request before

/-- At most `timeout` seconds have passed. -/
def Within (settings : CacheSettings) (time later : Timeval) : Prop :=
  (later.micros : Int) ≤ time.micros + settings.timeout * 1000000

instance (settings : CacheSettings) (time later : Timeval) :
    Decidable (Within settings time later) :=
  inferInstanceAs (Decidable (_ ≤ _))

/-- The data that a request is passed on with are not too old, or were loaded during the request. -/
def IsFresh (settings : CacheSettings) : Happened → List Happened → Prop
  | .passedOn request mode time true, before => mode.checks = true →
      ∃ loaded ∈ loadedAt before, Within settings loaded time ∨ loadedDuring request before = true
  | _, _ => True

structure ServesRequests (settings : CacheSettings) (happened : List Happened) : Prop where
  alternates : EachTime Alternates happened
  loadsOnce : EachTime LoadsOnce happened
  fresh : EachTime (IsFresh settings) happened

/-- The data that a request has loaded are there, as no auto-release and no commit has freed them,
and no other load has failed. -/
def keepsData (request : Nat) : List Happened → Bool
  | [] => false
  | .load loader _ true :: before => loader = some request || keepsData request before
  | .load loader _ false :: before => loader = some request && keepsData request before
  | .free cause :: before => cause = .reload && keepsData request before
  | .passedOn .. :: before => keepsData request before

def LoadsUnlessKept : Happened → List Happened → Prop
  | .load (some request) _ true, before => keepsData request before = false
  | _, _ => True

/-- The data were not too old for this call of the handler, or for an earlier one for the same
request. -/
def IsFreshFor (settings : CacheSettings) : Happened → List Happened → Prop
  | .passedOn request mode time true, before => mode.checks = true →
      ∃ loaded ∈ loadedAt before, Within settings loaded time ∨
        ∃ mode' time' valid', .passedOn request mode' time' valid' ∈ before ∧
          mode'.checks = true ∧ Within settings loaded time'
  | _, _ => True

/-- Requests are served from one load as long as it is kept, however long they take. -/
structure ServesFromOneLoad (settings : CacheSettings) (happened : List Happened) : Prop where
  alternates : EachTime Alternates happened
  loads : EachTime LoadsUnlessKept happened
  fresh : EachTime (IsFreshFor settings) happened

theorem readyMonotonic_iff {pm now : Timeval} {seconds : Int} :
    readyMonotonic (some pm) now (1000 * seconds) = true ↔
      pm.micros + seconds * 1000000 ≤ now.micros := by
  have diff := Timeval.micros_sub now pm
  have sec : (1000 * seconds).tdiv 1000 = seconds := Int.mul_tdiv_cancel_left _ (by decide)
  have usec : (1000 * seconds).tmod 1000 = 0 := Int.mul_tmod_right _ _
  simp only [readyMonotonic, sec, usec, Int.zero_mul]
  split
  · rw [decide_eq_true_iff]
    omega
  · rw [decide_eq_true_iff]
    omega

section Settings

variable {settings : CacheSettings}

theorem checkExpired_fresh (plain : settings.Plain) {cache : CacheState}
    (fresh : (checkExpired settings cache).expired = false) :
    ∃ pm, cache.timestampM = some pm ∧ Within settings pm cache.now := by
  rw [checkExpired] at fresh
  split at fresh
  · rename_i wasExpired
    rw [wasExpired] at fresh
    exact absurd fresh (by decide)
  · split at fresh
    · exact absurd fresh.symm Bool.false_ne_true
    · rename_i known
      rcases stamp : cache.timestampM with _ | pm
      · simp [stamp] at known
      · have positive := plain.positive
        have bounded := plain.bounded
        have delta : (1000 * settings.timeout).bmod (2 ^ 32) = 1000 * settings.timeout := by
          apply Int.bmod_eq_of_le
          · omega
          · omega
        refine ⟨pm, rfl, ?_⟩
        simp only [stamp, delta] at fresh
        have notReady :=
          (@readyMonotonic_iff pm cache.now settings.timeout).not.mp (by simp [fresh])
        rw [Within]
        omega

theorem checkExpired_eq (settings : CacheSettings) (cache : CacheState) :
    ∃ expired, checkExpired settings cache = { cache with expired } := by
  rw [checkExpired]
  split
  · exact ⟨cache.expired, rfl⟩
  · split
    · exact ⟨_, rfl⟩
    · exact ⟨_, rfl⟩

/-- The state agrees with what has happened. The handler may be busy with a request that is not
passed on yet. -/
structure Inv (settings : CacheSettings) (busy : Option Nat) (cache : CacheState) : Prop where
  serves : ServesFromOneLoad settings cache.happened
  holds : holdsData cache.happened = cache.valid
  stamp : cache.valid = true →
    ∃ pm, cache.timestampM = some pm ∧ loadedAt cache.happened = some pm
  past : ∀ request mode time valid, .passedOn request mode time valid ∈ cache.happened →
    time.micros ≤ cache.now.micros
  keeps : ∀ request, busy ≠ some request → keepsData request cache.happened = true →
    cache.isValid request = true
  users : ∀ request ∈ cache.reqinfos, busy ≠ some request → ∃ mode time valid,
    .passedOn request mode time valid ∈ cache.happened ∧ mode.checks = true ∧
      (cache.valid = true → ∀ pm ∈ loadedAt cache.happened, Within settings pm time)

theorem Inv.start (settings : CacheSettings) : Inv settings none {} := by
  refine ⟨⟨trivial, trivial, trivial⟩, rfl, ?_, ?_, ?_, ?_⟩
  · exact fun valid => absurd valid (by decide)
  · exact fun request mode time valid mem => absurd mem List.not_mem_nil
  · exact fun request _ keeps => absurd keeps Bool.false_ne_true
  · exact fun request mem => absurd mem List.not_mem_nil

variable {busy : Option Nat} {cache : CacheState}

theorem Inv.setExpired (inv : Inv settings busy cache) (expired : Bool) :
    Inv settings busy { cache with expired } :=
  ⟨inv.serves, inv.holds, inv.stamp, inv.past, inv.keeps, inv.users⟩

theorem Inv.advance (inv : Inv settings busy cache) (elapsed : Timeval) :
    Inv settings busy { cache with now := cache.now.add elapsed } := by
  refine ⟨inv.serves, inv.holds, inv.stamp, ?_, inv.keeps, inv.users⟩
  intro request mode time valid mem
  rw [Timeval.micros_add]
  exact Nat.le_add_right_of_le (inv.past request mode time valid mem)

theorem Inv.freeCache (inv : Inv settings busy cache) {cause : FreeCause}
    (valid : cache.valid = true) (final : cause ≠ .reload) :
    Inv settings busy (cache.freeCache cause) := by
  refine ⟨⟨⟨inv.holds.trans valid, inv.serves.alternates⟩, ⟨trivial, inv.serves.loads⟩,
    ⟨trivial, inv.serves.fresh⟩⟩, rfl, ?_, ?_, ?_, ?_⟩
  · exact fun isValid => absurd isValid Bool.false_ne_true
  · intro request mode time valid mem
    rcases List.mem_cons.mp mem with wrong | mem
    · exact absurd wrong (by simp)
    · exact inv.past request mode time valid mem
  · intro request _ keeps
    simp [CacheState.freeCache, CacheState.record, keepsData, final] at keeps
  · intro request mem idle
    rcases inv.users request mem idle with ⟨mode, time, valid, passed, checks, -⟩
    refine ⟨mode, time, valid, List.mem_cons_of_mem _ passed, checks, ?_⟩
    exact fun isValid => absurd isValid Bool.false_ne_true

def beforeLoad (cache : CacheState) : List Happened :=
  if cache.valid then .free .reload :: cache.happened else cache.happened

theorem cacheLoad_eq (plain : settings.Plain) (loader : Option Nat) (succeeds : Bool)
    (cache : CacheState) :
    cacheLoad settings loader succeeds cache =
      { cache with
        valid := succeeds
        expired := if succeeds then false else cache.expired
        timestampM := if succeeds then some cache.now else cache.timestampM
        happened := .load loader cache.now succeeds :: beforeLoad cache } := by
  rw [cacheLoad, plain.freeBeforeLoad, beforeLoad]
  cases cache.valid with
  | false => cases succeeds with
    | false => rfl
    | true => rfl
  | true => cases succeeds with
    | false => rfl
    | true => rfl

theorem mem_beforeLoad {entry : Happened} (other : entry ≠ .free .reload) :
    entry ∈ beforeLoad cache ↔ entry ∈ cache.happened := by
  rw [beforeLoad]
  split
  · rw [List.mem_cons, or_iff_right other]
  · rfl

theorem keepsData_beforeLoad (request : Nat) :
    keepsData request (beforeLoad cache) = keepsData request cache.happened := by
  rw [beforeLoad]
  split
  · simp [keepsData]
  · rfl

theorem Inv.beforeLoad (inv : Inv settings busy cache) :
    ServesFromOneLoad settings (beforeLoad cache) ∧ holdsData (beforeLoad cache) = false := by
  rw [CacheHelper.beforeLoad]
  split
  · rename_i valid
    exact ⟨⟨⟨inv.holds.trans valid, inv.serves.alternates⟩, ⟨trivial, inv.serves.loads⟩,
      ⟨trivial, inv.serves.fresh⟩⟩, rfl⟩
  · rename_i notValid
    refine ⟨inv.serves, inv.holds.trans ?_⟩
    simpa using notValid

theorem Inv.cacheLoad (plain : settings.Plain) (inv : Inv settings none cache)
    (loader : Option Nat) (succeeds : Bool)
    (idle : ∀ request, loader = some request → cache.isValid request = false) :
    Inv settings loader (cacheLoad settings loader succeeds cache) := by
  rw [cacheLoad_eq plain]
  rcases inv.beforeLoad with ⟨serves, empty⟩
  have notKept : ∀ request, loader = some request →
      keepsData request (CacheHelper.beforeLoad cache) = false := by
    intro request isLoader
    rw [keepsData_beforeLoad]
    by_contra kept
    have valid := inv.keeps request (by simp) (by simpa using kept)
    rw [idle request isLoader] at valid
    exact absurd valid Bool.false_ne_true
  have past : ∀ request mode time valid,
      .passedOn request mode time valid ∈ CacheHelper.beforeLoad cache →
        time.micros ≤ cache.now.micros := by
    intro request mode time valid mem
    exact inv.past request mode time valid ((mem_beforeLoad (by simp)).mp mem)
  cases succeeds with
  | false =>
      refine ⟨⟨⟨trivial, serves.alternates⟩, ⟨by cases loader <;> trivial, serves.loads⟩,
        ⟨trivial, serves.fresh⟩⟩, empty, ?_, ?_, ?_, ?_⟩
      · exact fun valid => absurd valid Bool.false_ne_true
      · intro request mode time valid mem
        rcases List.mem_cons.mp mem with wrong | mem
        · exact absurd wrong (by simp)
        · exact past request mode time valid mem
      · intro request other kept
        simp [keepsData, other] at kept
      · intro request mem other
        rcases inv.users request mem (by simp) with ⟨mode, time, valid, passed, checks, -⟩
        refine ⟨mode, time, valid, ?_, checks, fun wrong => absurd wrong Bool.false_ne_true⟩
        exact List.mem_cons_of_mem _ ((mem_beforeLoad (by simp)).mpr passed)
  | true =>
      have loads : LoadsUnlessKept (.load loader cache.now true)
          (CacheHelper.beforeLoad cache) := by
        cases loader with
        | none => trivial
        | some request => exact notKept request rfl
      refine ⟨⟨⟨empty, serves.alternates⟩, ⟨loads, serves.loads⟩, ⟨trivial, serves.fresh⟩⟩, rfl,
        fun _ => ⟨cache.now, rfl, rfl⟩, ?_, ?_, ?_⟩
      · intro request mode time valid mem
        rcases List.mem_cons.mp mem with wrong | mem
        · exact absurd wrong (by simp)
        · exact past request mode time valid mem
      · intro request other kept
        rw [keepsData, decide_eq_false other, Bool.false_or, keepsData_beforeLoad] at kept
        have known := inv.keeps request (by simp) kept
        simp only [CacheState.isValid, Bool.and_eq_true] at known ⊢
        exact ⟨known.1, trivial⟩
      · intro request mem other
        rcases inv.users request mem (by simp) with ⟨mode, time, valid, passed, checks, -⟩
        refine ⟨mode, time, valid, ?_, checks, ?_⟩
        · exact List.mem_cons_of_mem _ ((mem_beforeLoad (by simp)).mpr passed)
        · rintro - pm loaded
          rw [loadedAt, Option.mem_some_iff] at loaded
          have early := inv.past request mode time valid passed
          have positive := plain.positive
          rw [Within, ← loaded]
          omega

theorem Inv.reqinfoInsert {request : Nat} (inv : Inv settings (some request) cache) :
    Inv settings (some request) (cache.reqinfoInsert request) := by
  rw [CacheState.reqinfoInsert]
  split
  · exact inv
  · refine ⟨inv.serves, inv.holds, inv.stamp, inv.past, ?_, ?_⟩
    · intro other idle kept
      have known := inv.keeps other idle kept
      simp only [CacheState.isValid, Bool.and_eq_true, List.contains_iff_mem] at known ⊢
      exact ⟨List.mem_cons_of_mem _ known.1, known.2⟩
    · intro other mem idle
      rcases List.mem_cons.mp mem with rfl | mem
      · exact absurd rfl idle
      · exact inv.users other mem idle

/-- The request that the handler is busy with knows the cache, and its data are not too old. -/
structure Touched (settings : CacheSettings) (request : Nat) (cache : CacheState) : Prop where
  inv : Inv settings (some request) cache
  known : cache.reqinfos.contains request = true
  kept : keepsData request cache.happened = true → cache.valid = true
  fresh : cache.valid = true → ∀ pm ∈ loadedAt cache.happened, Within settings pm cache.now

theorem reqinfoInsert_eq (cache : CacheState) (request : Nat) :
    ∃ reqinfos, cache.reqinfoInsert request = { cache with reqinfos } ∧
      reqinfos.contains request = true := by
  rw [CacheState.reqinfoInsert]
  split
  · rename_i known
    exact ⟨cache.reqinfos, rfl, known⟩
  · exact ⟨request :: cache.reqinfos, rfl, by simp⟩

theorem Touched.insert {request : Nat} (inv : Inv settings (some request) cache)
    (kept : keepsData request cache.happened = true → cache.valid = true)
    (fresh : cache.valid = true → ∀ pm ∈ loadedAt cache.happened, Within settings pm cache.now) :
    Touched settings request (cache.reqinfoInsert request) := by
  rcases reqinfoInsert_eq cache request with ⟨reqinfos, inserted, known⟩
  have invInserted := inv.reqinfoInsert
  rw [inserted] at invInserted ⊢
  exact ⟨invInserted, known, kept, fresh⟩

theorem Touched.load (plain : settings.Plain) {request : Nat} (inv : Inv settings none cache)
    (notValid : cache.isValid request = false) (succeeds : Bool) :
    Touched settings request
      ((CacheHelper.cacheLoad settings (some request) succeeds cache).reqinfoInsert request) := by
  have notKept : keepsData request cache.happened = false := by
    by_contra kept
    have valid := inv.keeps request (by simp) (by simpa using kept)
    rw [notValid] at valid
    exact absurd valid Bool.false_ne_true
  apply Touched.insert
  · apply inv.cacheLoad plain
    rintro other same
    rwa [← Option.some.inj same]
  · rw [cacheLoad_eq plain]
    cases succeeds with
    | true => exact fun _ => rfl
    | false =>
        intro kept
        simp [keepsData, keepsData_beforeLoad, notKept] at kept
  · rw [cacheLoad_eq plain]
    cases succeeds with
    | true =>
        rintro - pm loaded
        rw [loadedAt, Option.mem_some_iff] at loaded
        have positive := plain.positive
        rw [Within, ← loaded]
        simp only
        omega
    | false => exact fun wrong => absurd wrong Bool.false_ne_true

theorem Inv.weaken (inv : Inv settings none cache) (busy : Option Nat) :
    Inv settings busy cache :=
  ⟨inv.serves, inv.holds, inv.stamp, inv.past, fun request _ => inv.keeps request (by simp),
    fun request mem _ => inv.users request mem (by simp)⟩

theorem Touched.checkAndReload (plain : settings.Plain) {request : Nat}
    (inv : Inv settings none cache) (notValid : cache.isValid request = false) (succeeds : Bool) :
    Touched settings request
      ((CacheHelper.checkAndReload settings request succeeds cache).reqinfoInsert request) := by
  rw [CacheHelper.checkAndReload]
  split
  · exact .load plain inv notValid succeeds
  · rename_i valid
    rcases checkExpired_eq settings cache with ⟨expired, checked⟩
    simp only
    split
    · rw [checked]
      exact .load plain (inv.setExpired expired) notValid succeeds
    · rename_i notExpired
      rcases checkExpired_fresh plain (by simpa using notExpired) with ⟨pm, stamp, within⟩
      rw [checked]
      apply Touched.insert ((inv.setExpired expired).weaken (some request))
      · exact fun _ => by simpa using valid
      · intro isValid pm' loaded
        rcases inv.stamp isValid with ⟨pm'', stamp', loaded'⟩
        have same : pm'' = pm := Option.some.inj (stamp'.symm.trans stamp)
        rw [loaded', Option.mem_some_iff, same] at loaded
        rwa [← loaded]

theorem Inv.recordPassed {request : Nat} {mode : RequestMode} (inv : Inv settings busy cache)
    (mine : ∀ other, busy = some other → other = request ∧
      (keepsData request cache.happened = true → cache.isValid request = true) ∧
      mode.checks = true ∧
      (cache.valid = true → ∀ pm ∈ loadedAt cache.happened, Within settings pm cache.now)) :
    Inv settings none (cache.passOn request mode) := by
  have fresh : IsFreshFor settings
      (.passedOn request mode cache.now (cache.isValid request)) cache.happened := by
    cases valid : cache.isValid request with
    | false => trivial
    | true =>
        intro checks
        simp only [CacheState.isValid, Bool.and_eq_true, List.contains_iff_mem] at valid
        rcases inv.stamp valid.2 with ⟨pm, -, loaded⟩
        refine ⟨pm, loaded, ?_⟩
        by_cases isBusy : busy = some request
        · exact .inl ((mine request isBusy).2.2.2 valid.2 pm loaded)
        · rcases inv.users request valid.1 isBusy with
            ⟨mode', time, valid', passed, checks', within⟩
          exact .inr ⟨mode', time, valid', passed, checks', within valid.2 pm loaded⟩
  refine ⟨⟨⟨trivial, inv.serves.alternates⟩, ⟨trivial, inv.serves.loads⟩,
    ⟨fresh, inv.serves.fresh⟩⟩, inv.holds, inv.stamp, ?_, ?_, ?_⟩
  · intro other mode' time valid mem
    rcases List.mem_cons.mp mem with same | mem
    · rw [(Happened.passedOn.inj same).2.2.1]
      exact Nat.le_refl _
    · exact inv.past other mode' time valid mem
  · intro other _ kept
    by_cases isBusy : busy = some other
    · rcases mine other isBusy with ⟨rfl, valid, -⟩
      exact valid kept
    · exact inv.keeps other isBusy kept
  · intro other mem _
    by_cases isBusy : busy = some other
    · rcases mine other isBusy with ⟨rfl, -, checks, within⟩
      exact ⟨mode, cache.now, _, List.mem_cons_self, checks, within⟩
    · rcases inv.users other mem isBusy with ⟨mode', time, valid, passed, checks, within⟩
      exact ⟨mode', time, valid, List.mem_cons_of_mem _ passed, checks, within⟩

theorem Inv.passOn (inv : Inv settings none cache) (request : Nat) (mode : RequestMode) :
    Inv settings none (cache.passOn request mode) :=
  inv.recordPassed fun other isBusy => absurd isBusy.symm (Option.some_ne_none other)

theorem Touched.passOn {request : Nat} (touched : Touched settings request cache)
    {mode : RequestMode} (checks : mode.checks = true) :
    Inv settings none (cache.passOn request mode) := by
  apply touched.inv.recordPassed
  rintro other isBusy
  refine ⟨(Option.some.inj isBusy).symm, ?_, checks, touched.fresh⟩
  intro kept
  rw [CacheState.isValid, touched.known, touched.kept kept]
  rfl

theorem Inv.touchCache (plain : settings.Plain) (inv : Inv settings none cache) (request : Nat)
    {mode : RequestMode} (checks : mode.checks = true) (succeeds : Bool) :
    Inv settings none ((CacheHelper.touchCache settings request succeeds cache).passOn request
      mode) := by
  rw [CacheHelper.touchCache]
  split
  · exact inv.passOn request mode
  · rename_i notValid
    exact (Touched.checkAndReload plain inv (by simpa using notValid) succeeds).passOn checks

theorem Inv.cacheHelperHandler (plain : settings.Plain) (inv : Inv settings none cache)
    (request : Nat) (mode : RequestMode) (succeeds : Bool) :
    Inv settings none (CacheHelper.cacheHelperHandler settings request mode succeeds cache) := by
  simp only [CacheHelper.cacheHelperHandler, plain.timer, Bool.false_eq_true, if_false]
  split
  · exact inv.passOn request mode
  · cases mode with
    | get => exact inv.touchCache plain request rfl succeeds
    | getNext => exact inv.touchCache plain request rfl succeeds
    | getBulk => exact inv.touchCache plain request rfl succeeds
    | setReserve1 => exact inv.touchCache plain request rfl succeeds
    | setReserve2 => exact inv.passOn request _
    | setAction => exact inv.passOn request _
    | setFree => exact inv.passOn request _
    | setUndo => exact inv.passOn request _
    | unrecognised => exact inv
    | setCommit =>
        simp only
        split
        · rename_i invalidates
          have valid := (Bool.and_eq_true_iff.mp invalidates).1
          exact (inv.freeCache valid (by decide)).passOn request _
        · exact inv.passOn request _

theorem Inv.releaseCachedResources (inv : Inv settings none cache) :
    Inv settings none (CacheHelper.releaseCachedResources settings cache) := by
  rw [CacheHelper.releaseCachedResources]
  split
  · rename_i releases
    have valid := (Bool.and_eq_true_iff.mp releases).1
    rcases checkExpired_eq settings cache with ⟨expired, checked⟩
    simp only [checked]
    split
    · exact (inv.setExpired expired).freeCache valid (by decide)
    · exact inv.setExpired expired
  · exact inv

theorem Inv.afterEvent (plain : settings.Plain) (inv : Inv settings none cache)
    (event : CacheEvent) : Inv settings none (CacheHelper.afterEvent settings cache event) := by
  cases event with
  | request request mode succeeds => exact inv.cacheHelperHandler plain request mode succeeds
  | advance elapsed => exact inv.advance elapsed
  | timer succeeds =>
      apply (inv.setExpired true).cacheLoad plain
      exact fun request isLoader => absurd isLoader.symm (Option.some_ne_none request)
  | release => exact inv.releaseCachedResources

theorem Inv.afterEvents (plain : settings.Plain) (inv : Inv settings none cache)
    (events : List CacheEvent) :
    Inv settings none (events.foldl (CacheHelper.afterEvent settings) cache) := by
  induction events generalizing cache with
  | nil => exact inv
  | cons event events ih => exact ih (inv.afterEvent plain event)

end Settings

/-- In every run loads and calls of the free hook alternate, a request loads the data once as long
as nothing else takes them away, and is passed on with data that were not too old when it came. -/
theorem servesFromOneLoad_afterEvents (settings : CacheSettings) (plain : settings.Plain)
    (events : List CacheEvent) :
    ServesFromOneLoad settings (afterEvents settings events).happened :=
  ((Inv.start settings).afterEvents plain events).serves

def oneSecond : CacheSettings := { timeout := 1 }

theorem plain_oneSecond : oneSecond.Plain := ⟨by decide, by decide, rfl, rfl, rfl⟩

def elapsed (usec : Nat) (normalized : usec < 1000000) : CacheEvent :=
  .advance ⟨0, usec, normalized⟩

/-- A request is passed on for the second time when its data have become too old. -/
def slowRequest : List CacheEvent :=
  [.request 1 .get true, elapsed 600000 (by decide), .request 2 .getNext true,
    elapsed 600000 (by decide), .request 2 .getNext true]

theorem servesFromOneLoad_afterEvents_slowRequest : oneSecond.Plain ∧
    ServesFromOneLoad oneSecond (afterEvents oneSecond slowRequest).happened :=
  ⟨plain_oneSecond, servesFromOneLoad_afterEvents oneSecond plain_oneSecond slowRequest⟩

theorem not_servesRequests_slowRequest :
    ¬ ServesRequests oneSecond (afterEvents oneSecond slowRequest).happened := by
  intro serves
  rcases serves.fresh.1 rfl with ⟨loaded, loaded_eq, within | during⟩
  · have zero : loaded = .zero := (Option.some.inj loaded_eq).symm
    subst zero
    revert within
    decide
  · exact absurd during (by decide)

end CacheHelper

end NetSnmp
