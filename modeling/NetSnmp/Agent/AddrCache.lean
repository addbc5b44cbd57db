import NetSnmp.CString
import NetSnmp.Timeval

/-!
# The cache of addresses

`netsnmp_addrcache_add` with its scan of the slots.  What a call does to the slots is
either that the entry of the address is hit again, or that entries that are too old are
dropped and one slot gets the address.
-/

namespace NetSnmp

def snmpAddrcacheSize : Nat := 10

/-- `SNMP_ADDRCACHE_MAXAGE`, in seconds. -/
def snmpAddrcacheMaxage : Nat := 300

/-- A used entry of `addrCache`. -/
structure AddrEntry where
  addr : CString
  lastHitM : Timeval
  deriving DecidableEq, Repr

/-- `addrCache`; there is nothing in an entry that is unused. -/
structure AddrCache where
  slots : List (Option AddrEntry)
  size : slots.length = snmpAddrcacheSize
  deriving DecidableEq, Repr

/-- `netsnmp_addrcache_initialise` -/
def AddrCache.initial : AddrCache :=
  ⟨List.replicate snmpAddrcacheSize none, List.length_replicate ..⟩

/-- `timercmp` with `<` of a time and `aged`, whose seconds may be negative. -/
def isAged (now time : Timeval) : Bool :=
  let agedSec : Int := now.tvSec - snmpAddrcacheMaxage
  if time.tvSec = agedSec then time.tvUsec < now.tvUsec else time.tvSec < agedSec

structure AddrScan where
  slots : List (Option AddrEntry)
  rc : Option Int
  unused : Option Nat
  oldest : Option (Nat × AddrEntry)

/-- The slot in front of the others stays as it is given. -/
def AddrScan.behind (slot : Option AddrEntry) (scan : AddrScan) : AddrScan :=
  { scan with slots := slot :: scan.slots }

/-- The candidate for the replacement, after the entry in slot `i`. -/
def olderOf (oldest : Option (Nat × AddrEntry)) (i : Nat) (entry : AddrEntry) : Nat × AddrEntry :=
  match oldest with
  | none => (i, entry)
  | some best => if entry.lastHitM.before best.2.lastHitM then (i, entry) else best

/-- The loop of `netsnmp_addrcache_add` over the slots, from slot `i` on. -/
def addrcacheScan (now : Timeval) (addr : Option CString) : (i : Nat) → (unused : Option Nat) →
    (oldest : Option (Nat × AddrEntry)) → List (Option AddrEntry) → AddrScan
  | _, unused, oldest, [] => ⟨[], none, unused, oldest⟩
  | i, unused, oldest, none :: slots =>
      (addrcacheScan now addr (i + 1) (unused.or (some i)) oldest slots).behind none
  | i, unused, oldest, some entry :: slots =>
      if addr.any fun addr => strcmp entry.addr addr = 0 then
        -- the time is set before it is compared
        ⟨some { entry with lastHitM := now } :: slots, some (if isAged now now then 1 else 0),
          unused, oldest⟩
      else if isAged now entry.lastHitM then
        (addrcacheScan now addr (i + 1) (unused.or (some i)) oldest slots).behind none
      else
        (addrcacheScan now addr (i + 1) unused (some (olderOf oldest i entry)) slots).behind
          (some entry)

theorem length_addrcacheScan (now : Timeval) (addr : Option CString) (i : Nat)
    (unused : Option Nat) (oldest : Option (Nat × AddrEntry)) (slots : List (Option AddrEntry)) :
    (addrcacheScan now addr i unused oldest slots).slots.length = slots.length := by
  induction slots generalizing i unused oldest with
  | nil => rfl
  | cons slot slots ih =>
      cases slot with
      | none => simp [addrcacheScan, AddrScan.behind, ih]
      | some entry =>
          rw [addrcacheScan]
          split
          · rfl
          · split
            · simp [AddrScan.behind, ih]
            · simp [AddrScan.behind, ih]

/-- What `netsnmp_addrcache_add` returns, and the address that it purges for another one. -/
structure AddrcacheAdded where
  rc : Int
  cache : AddrCache
  purging : Option CString
  deriving DecidableEq, Repr

/-- `netsnmp_addrcache_add`, also without an address.  There is no result where the slot of the
oldest entry would be written without one. -/
def netsnmpAddrcacheAdd (cache : AddrCache) (now : Timeval) (addr : Option CString) :
    Option AddrcacheAdded :=
  let scan := addrcacheScan now addr 0 none none cache.slots
  have size : scan.slots.length = snmpAddrcacheSize :=
    (length_addrcacheScan ..).trans cache.size
  match scan.rc, addr with
  | some rc, _ => some ⟨rc, ⟨scan.slots, size⟩, none⟩
  | none, none => some ⟨-1, ⟨scan.slots, size⟩, none⟩
  | none, some addr =>
      have sizeSet (i : Nat) (slot : Option AddrEntry) :
          (scan.slots.set i slot).length = snmpAddrcacheSize := by
        rw [List.length_set, size]
      match scan.unused, scan.oldest with
      | some unused, _ => some ⟨1, ⟨scan.slots.set unused (some ⟨addr, now⟩), sizeSet ..⟩, none⟩
      | none, some (oldest, entry) =>
          some ⟨1, ⟨scan.slots.set oldest (some ⟨addr, now⟩), sizeSet ..⟩, some entry.addr⟩
      | none, none => none

theorem isAged_iff {now time : Timeval} :
    isAged now time = true ↔ time.micros + snmpAddrcacheMaxage * 1000000 < now.micros := by
  have := now.normalized
  have := time.normalized
  have age : snmpAddrcacheMaxage = 300 := rfl
  simp only [isAged, Timeval.micros]
  split
  · rw [decide_eq_true_eq]
    omega
  · rw [decide_eq_true_eq]
    omega

theorem isAged_self (now : Timeval) : isAged now now = false := by
  rw [Bool.eq_false_iff, ne_eq, isAged_iff]
  simp only [snmpAddrcacheMaxage]
  omega

theorem isAged_mono {clock now time : Timeval} (later : clock.micros ≤ now.micros)
    (aged : isAged clock time = true) : isAged now time = true := by
  rw [isAged_iff] at aged ⊢
  omega

def purge (now : Timeval) (slot : Option AddrEntry) : Option AddrEntry :=
  slot.filter fun entry => !isAged now entry.lastHitM

variable {now : Timeval} {addr : Option CString} {slots visited : List (Option AddrEntry)}
  {unused : Option Nat} {oldest : Option (Nat × AddrEntry)}

def IsAbsent (addr : Option CString) (slots : List (Option AddrEntry)) : Prop :=
  ∀ entry, some entry ∈ slots → addr ≠ some entry.addr

theorem olderOf_cases (oldest : Option (Nat × AddrEntry)) (i : Nat) (entry : AddrEntry) :
    (olderOf oldest i entry = (i, entry) ∧ ∀ best, oldest = some best →
        entry.lastHitM.micros ≤ best.2.lastHitM.micros) ∨
      ∃ best, oldest = some best ∧ olderOf oldest i entry = best ∧
        best.2.lastHitM.micros ≤ entry.lastHitM.micros := by
  cases oldest with
  | none => exact .inl ⟨rfl, fun _ same => nomatch same⟩
  | some best =>
      by_cases older : entry.lastHitM.before best.2.lastHitM = true
      · refine .inl ⟨if_pos older, ?_⟩
        intro other same
        rw [← Option.some.inj same]
        exact ((Timeval.before_iff ..).mp older).le
      · refine .inr ⟨best, rfl, if_neg older, ?_⟩
        rw [Timeval.before_iff] at older
        exact not_lt.mp older

/-- What `unused` and `oldest` say about the slots that were visited. -/
structure Scanned (visited : List (Option AddrEntry)) (unused : Option Nat)
    (oldest : Option (Nat × AddrEntry)) : Prop where
  free : ∀ i, unused = some i → visited[i]? = some none
  full : unused = none → none ∉ visited
  used : ∀ i entry, oldest = some (i, entry) → visited[i]? = some (some entry)
  least : ∀ i entry, oldest = some (i, entry) → ∀ other, some other ∈ visited →
    entry.lastHitM.micros ≤ other.lastHitM.micros
  empty : oldest = none → ∀ entry, some entry ∉ visited

theorem scanned_nil : Scanned [] none none where
  free := fun _ same => nomatch same
  full := fun _ => List.not_mem_nil
  used := fun _ _ same => nomatch same
  least := fun _ _ same => nomatch same
  empty := fun _ _ => List.not_mem_nil

theorem Scanned.freed (scanned : Scanned visited unused oldest) :
    Scanned (visited ++ [none]) (unused.or (some visited.length)) oldest where
  free := by
    intro i same
    cases unused with
    | none =>
        obtain rfl : visited.length = i := Option.some.inj same
        exact List.getElem?_concat_length
    | some k =>
        have here := scanned.free k rfl
        obtain rfl : k = i := Option.some.inj same
        rw [List.getElem?_append_left (List.getElem?_eq_some_iff.mp here).1]
        exact here
  full := by
    intro same
    cases unused <;> nomatch same
  used := by
    intro i entry same
    have here := scanned.used i entry same
    rw [List.getElem?_append_left (List.getElem?_eq_some_iff.mp here).1]
    exact here
  least := by
    intro i entry same other mem
    apply scanned.least i entry same
    simpa using mem
  empty := by
    intro same entry mem
    apply scanned.empty same entry
    simpa using mem

theorem Scanned.entered (scanned : Scanned visited unused oldest) (entry : AddrEntry) :
    Scanned (visited ++ [some entry]) unused (some (olderOf oldest visited.length entry)) where
  free := by
    intro i same
    have here := scanned.free i same
    rw [List.getElem?_append_left (List.getElem?_eq_some_iff.mp here).1]
    exact here
  full := by
    intro same mem
    apply scanned.full same
    simpa using mem
  used := by
    intro i entry' same
    have same := Option.some.inj same
    rcases olderOf_cases oldest visited.length entry with ⟨here, -⟩ | ⟨best, known, here, -⟩
    · obtain ⟨rfl, rfl⟩ := Prod.mk.inj (here.symm.trans same)
      exact List.getElem?_concat_length
    · have kept := scanned.used i entry' (known.trans (congrArg some (here.symm.trans same)))
      rw [List.getElem?_append_left (List.getElem?_eq_some_iff.mp kept).1]
      exact kept
  least := by
    intro i entry' same other mem
    have same := Option.some.inj same
    rcases olderOf_cases oldest visited.length entry with ⟨here, older⟩ | ⟨best, known, here, newer⟩
    · obtain ⟨rfl, rfl⟩ := Prod.mk.inj (here.symm.trans same)
      rcases List.mem_append.mp mem with mem | mem
      · cases oldest with
        | none => exact absurd mem (scanned.empty rfl other)
        | some best => exact (older best rfl).trans (scanned.least best.1 best.2 rfl other mem)
      · rw [Option.some.inj (List.mem_singleton.mp mem)]
    · obtain rfl := here.symm.trans same
      rcases List.mem_append.mp mem with mem | mem
      · exact scanned.least i entry' known other mem
      · rw [Option.some.inj (List.mem_singleton.mp mem)]
        exact newer
  empty := fun same => nomatch same

theorem addrcacheScan_of_absent (absent : IsAbsent addr slots)
    (scanned : Scanned visited unused oldest) :
    ∃ unused' oldest', addrcacheScan now addr visited.length unused oldest slots =
      ⟨slots.map (purge now), none, unused', oldest'⟩ ∧
        Scanned (visited ++ slots.map (purge now)) unused' oldest' := by
  induction slots generalizing visited unused oldest with
  | nil => exact ⟨unused, oldest, rfl, by rwa [List.map_nil, List.append_nil]⟩
  | cons slot slots ih =>
      have later : IsAbsent addr slots := fun entry mem =>
        absent entry (List.mem_cons_of_mem _ mem)
      have step {slot' : Option AddrEntry} {unused oldest}
          (scanned : Scanned (visited ++ [slot']) unused oldest) :
          ∃ unused' oldest',
            (addrcacheScan now addr (visited.length + 1) unused oldest slots).behind slot' =
              ⟨slot' :: slots.map (purge now), none, unused', oldest'⟩ ∧
            Scanned (visited ++ slot' :: slots.map (purge now)) unused' oldest' := by
        rcases ih later scanned with ⟨unused', oldest', scan_eq, scanned'⟩
        rw [List.length_append, List.length_singleton] at scan_eq
        rw [List.append_assoc, List.singleton_append] at scanned'
        exact ⟨unused', oldest', by rw [scan_eq]; rfl, scanned'⟩
      cases slot with
      | none => exact step scanned.freed
      | some entry =>
          have other : ¬ (addr.any fun addr => strcmp entry.addr addr = 0) = true := by
            intro same
            rcases Option.any_eq_true _ _ |>.mp same with ⟨addr', rfl, same⟩
            have same := strcmp_eq_zero_iff.mp (of_decide_eq_true same)
            exact absent entry List.mem_cons_self (congrArg some same.symm)
          rw [addrcacheScan, if_neg other]
          by_cases aged : isAged now entry.lastHitM = true
          · have purged : purge now (some entry) = none := by simp [purge, aged]
            rw [if_pos aged, List.map_cons, purged]
            exact step scanned.freed
          · have purged : purge now (some entry) = some entry := by simp [purge, aged]
            rw [if_neg aged, List.map_cons, purged]
            exact step (scanned.entered entry)

theorem addrcacheScan_of_matched {front back : List (Option AddrEntry)} {entry : AddrEntry}
    (absent : IsAbsent (some entry.addr) front) (i : Nat) :
    let scan := addrcacheScan now (some entry.addr) i unused oldest (front ++ some entry :: back)
    scan.slots = front.map (purge now) ++ some ⟨entry.addr, now⟩ :: back ∧ scan.rc = some 0 := by
  induction front generalizing i unused oldest with
  | nil =>
      have same : strcmp entry.addr entry.addr = 0 := strcmp_eq_zero_iff.mpr rfl
      simp [addrcacheScan, same, isAged_self]
  | cons slot front ih =>
      have later : IsAbsent (some entry.addr) front := fun other mem =>
        absent other (List.mem_cons_of_mem _ mem)
      cases slot with
      | none =>
          have rest := @ih (unused.or (some i)) oldest later (i + 1)
          simp only [List.cons_append, addrcacheScan, AddrScan.behind]
          exact ⟨congrArg _ rest.1, rest.2⟩
      | some other =>
          have differs : ¬ strcmp other.addr entry.addr = 0 := by
            intro same
            exact absent other List.mem_cons_self
              (congrArg some (strcmp_eq_zero_iff.mp same).symm)
          simp only [List.cons_append, addrcacheScan, Option.any_some, decide_eq_true_eq,
            if_neg differs, List.map_cons, purge]
          by_cases aged : isAged now other.lastHitM = true
          · have rest := @ih (unused.or (some i)) oldest later (i + 1)
            simp only [AddrScan.behind, Option.filter_some, aged, Bool.not_true]
            exact ⟨congrArg _ rest.1, rest.2⟩
          · have rest := @ih unused (some (olderOf oldest i other)) later (i + 1)
            simp only [AddrScan.behind, Option.filter_some, aged, Bool.not_false, if_true]
            exact ⟨congrArg _ rest.1, rest.2⟩

end NetSnmp
