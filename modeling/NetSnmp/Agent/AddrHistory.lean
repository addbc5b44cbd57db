import Mathlib.Data.Set.Card
import NetSnmp.Agent.AddrCache

/-!
# What the cache of addresses remembers

The entries that are not too old are those of the addresses that were last added not too
long ago and were not purged since.  An address whose entry is still there but too old is
taken for one that is not, since its time is set before it is compared.
-/

namespace NetSnmp

/-- A call of `netsnmp_addrcache_add`, and the address that it purged. -/
structure AddrEvent where
  now : Timeval
  addr : Option CString
  purging : Option CString

/-- When an address was last added, if it was not purged since; the latest call is in front. -/
def lastAdded : List AddrEvent → CString → Option Timeval
  | [], _ => none
  | event :: earlier, addr =>
      if event.addr = some addr then some event.now
      else if event.purging = some addr then none
      else lastAdded earlier addr

def IsFresh (trace : List AddrEvent) (now : Timeval) (addr : CString) : Prop :=
  ∃ time, lastAdded trace addr = some time ∧ isAged now time = false

def ClockAt (trace : List AddrEvent) (now : Timeval) : Prop :=
  ∀ previous ∈ trace.head?, previous.now.micros ≤ now.micros

inductive AddrRun : List AddrEvent → AddrCache → Prop
  | start : AddrRun [] .initial
  | add {trace : List AddrEvent} {cache : AddrCache} {now : Timeval} {addr : Option CString}
      {added : AddrcacheAdded} : AddrRun trace cache → ClockAt trace now →
      netsnmpAddrcacheAdd cache now addr = some added →
      AddrRun (⟨now, addr, added.purging⟩ :: trace) added.cache

def addressesOf (slots : List (Option AddrEntry)) : List CString :=
  slots.filterMap (·.map AddrEntry.addr)

variable {trace : List AddrEvent} {cache : AddrCache} {clock now : Timeval} {addr : CString}
  {slots front back : List (Option AddrEntry)} {slot : Option AddrEntry}

theorem mem_addressesOf : addr ∈ addressesOf slots ↔ ∃ entry, some entry ∈ slots ∧
    entry.addr = addr := by
  simp only [addressesOf, List.mem_filterMap, Option.map_eq_some_iff]
  constructor
  · rintro ⟨_, mem, entry, rfl, same⟩
    exact ⟨entry, mem, same⟩
  · rintro ⟨entry, mem, same⟩
    exact ⟨_, mem, entry, rfl, same⟩

theorem addressesOf_middle : addressesOf (front ++ slot :: back) =
    addressesOf front ++ (addressesOf [slot] ++ addressesOf back) := by
  simp only [addressesOf, ← List.filterMap_append, List.singleton_append]

/-- What the entries have to do with the history. -/
structure Follows (trace : List AddrEvent) (now : Timeval) (slots : List (Option AddrEntry)) :
    Prop where
  distinct : (addressesOf slots).Nodup
  lastHit : ∀ entry, some entry ∈ slots → lastAdded trace entry.addr = some entry.lastHitM
  kept : ∀ addr time, lastAdded trace addr = some time →
    some ⟨addr, time⟩ ∈ slots ∨ isAged now time = true

theorem follows_initial (now : Timeval) : Follows [] now AddrCache.initial.slots where
  distinct := by simp [addressesOf, AddrCache.initial]
  lastHit := by
    intro entry mem
    nomatch List.eq_of_mem_replicate mem
  kept := fun _ _ same => nomatch same

theorem Follows.mono (follows : Follows trace clock slots) (later : clock.micros ≤ now.micros) :
    Follows trace now slots where
  distinct := follows.distinct
  lastHit := follows.lastHit
  kept := by
    intro addr time added
    rcases follows.kept addr time added with mem | aged
    · exact .inl mem
    · exact .inr (isAged_mono later aged)

theorem mem_map_purge {entry : AddrEntry} : some entry ∈ slots.map (purge now) ↔
    some entry ∈ slots ∧ isAged now entry.lastHitM = false := by
  simp only [List.mem_map, purge, Option.filter_eq_some_iff, Bool.not_eq_true']
  constructor
  · rintro ⟨_, mem, rfl, fresh⟩
    exact ⟨mem, fresh⟩
  · rintro ⟨mem, fresh⟩
    exact ⟨_, mem, rfl, fresh⟩

theorem addressesOf_purge_sublist (slots : List (Option AddrEntry)) :
    (addressesOf (slots.map (purge now))).Sublist (addressesOf slots) := by
  induction slots with
  | nil => exact List.Sublist.refl _
  | cons slot slots ih =>
      have front : (addressesOf [purge now slot]).Sublist (addressesOf [slot]) := by
        cases slot with
        | none => exact List.Sublist.refl _
        | some entry =>
            by_cases aged : isAged now entry.lastHitM = true
            · simp [addressesOf, purge, aged]
            · simp [addressesOf, purge, aged]
      have split (slot : Option AddrEntry) (slots : List (Option AddrEntry)) :=
        @addressesOf_middle [] slots slot
      simp only [List.nil_append] at split
      rw [List.map_cons, split, split slot]
      exact front.append ih

theorem Follows.purge (follows : Follows trace now (front ++ back)) :
    Follows trace now (front.map (purge now) ++ back) where
  distinct := by
    have sublist := List.Sublist.append_right (@addressesOf_purge_sublist now front)
      (addressesOf back)
    have distinct := follows.distinct
    simp only [addressesOf, List.filterMap_append] at sublist distinct ⊢
    exact distinct.sublist sublist
  lastHit := by
    intro entry mem
    apply follows.lastHit
    rcases List.mem_append.mp mem with mem | mem
    · exact List.mem_append_left _ (mem_map_purge.mp mem).1
    · exact List.mem_append_right _ mem
  kept := by
    intro addr time added
    rcases follows.kept addr time added with mem | aged
    · by_cases aged : isAged now time = true
      · exact .inr aged
      · refine .inl ?_
        rcases List.mem_append.mp mem with mem | mem
        · exact List.mem_append_left _ (mem_map_purge.mpr ⟨mem, Bool.eq_false_iff.mpr aged⟩)
        · exact List.mem_append_right _ mem
    · exact .inr aged

theorem Follows.replace {purging : Option CString}
    (follows : Follows trace now (front ++ slot :: back))
    (elsewhere : addr ∉ addressesOf front ∧ addr ∉ addressesOf back)
    (replaced : ∀ entry, slot = some entry → entry.addr = addr ∨ purging = some entry.addr)
    (purged : ∀ victim, purging = some victim → addressesOf [slot] = [victim]) :
    Follows (⟨now, some addr, purging⟩ :: trace) now (front ++ some ⟨addr, now⟩ :: back) := by
  have distinct := follows.distinct
  rw [addressesOf_middle] at distinct
  have others : (addressesOf front ++ addressesOf back).Nodup :=
    distinct.sublist (List.Sublist.append_left (List.sublist_append_right _ _) _)
  -- an address in one of the other slots is neither the new one nor purged
  have other {entry : AddrEntry} (mem : entry.addr ∈ addressesOf front ∨
      entry.addr ∈ addressesOf back) :
      lastAdded (⟨now, some addr, purging⟩ :: trace) entry.addr = lastAdded trace entry.addr := by
    have notNew : some addr ≠ some entry.addr := by
      intro same
      have same := Option.some.inj same
      rcases mem with mem | mem
      · exact elsewhere.1 (same ▸ mem)
      · exact elsewhere.2 (same ▸ mem)
    have notPurged : purging ≠ some entry.addr := by
      intro same
      rw [purged _ same] at distinct
      have moved := (List.nodup_middle.mp distinct)
      exact (List.nodup_cons.mp moved).1 (List.mem_append.mpr mem)
    rw [lastAdded, if_neg notNew, if_neg notPurged]
  constructor
  · rw [addressesOf_middle]
    exact List.nodup_middle.mpr (List.nodup_cons.mpr
      ⟨fun mem => (List.mem_append.mp mem).elim elsewhere.1 elsewhere.2, others⟩)
  · intro entry mem
    rcases List.mem_append.mp mem with mem | mem
    · rw [other (.inl (mem_addressesOf.mpr ⟨entry, mem, rfl⟩))]
      exact follows.lastHit entry (List.mem_append_left _ mem)
    · rcases List.mem_cons.mp mem with same | mem
      · rw [Option.some.inj same, lastAdded, if_pos rfl]
      · rw [other (.inr (mem_addressesOf.mpr ⟨entry, mem, rfl⟩))]
        exact follows.lastHit entry (List.mem_append_right _ (List.mem_cons_of_mem _ mem))
  · intro addr' time added
    rw [lastAdded] at added
    split at added
    · rename_i same
      obtain rfl : now = time := Option.some.inj added
      obtain rfl : addr = addr' := Option.some.inj same
      exact .inl (List.mem_append_right _ List.mem_cons_self)
    · rename_i differs
      split at added
      · nomatch added
      · rename_i notPurged
        rcases follows.kept addr' time added with mem | aged
        · refine .inl ?_
          rcases List.mem_append.mp mem with mem | mem
          · exact List.mem_append_left _ mem
          · rcases List.mem_cons.mp mem with same | mem
            · rcases replaced _ same.symm with here | gone
              · exact absurd (congrArg some here.symm) differs
              · exact absurd gone notPurged
            · exact List.mem_append_right _ (List.mem_cons_of_mem _ mem)
        · exact .inr aged

theorem Follows.set {i : Nat} {purging : Option CString} (follows : Follows trace now slots)
    (there : slots[i]? = some slot) (elsewhere : addr ∉ addressesOf slots)
    (replaced : ∀ entry, slot = some entry → purging = some entry.addr)
    (purged : ∀ victim, purging = some victim → addressesOf [slot] = [victim]) :
    Follows (⟨now, some addr, purging⟩ :: trace) now (slots.set i (some ⟨addr, now⟩)) := by
  rcases List.getElem?_eq_some_iff.mp there with ⟨inside, here⟩
  have whole : slots = slots.take i ++ slot :: slots.drop (i + 1) := by
    rw [← here, ← List.drop_eq_getElem_cons inside, List.take_append_drop]
  rw [List.set_eq_take_append_cons_drop, if_pos inside]
  rw [whole, addressesOf_middle, List.mem_append, List.mem_append, not_or, not_or] at elsewhere
  have follows' : Follows trace now (slots.take i ++ slot :: slots.drop (i + 1)) := whole ▸ follows
  apply follows'.replace
  · exact ⟨elsewhere.1, elsewhere.2.2⟩
  · exact fun entry same => .inr (replaced entry same)
  · exact purged

theorem Follows.isFresh_iff (follows : Follows trace now slots) :
    IsFresh trace now addr ↔ ∃ entry, some entry ∈ slots ∧ entry.addr = addr ∧
      isAged now entry.lastHitM = false := by
  constructor
  · rintro ⟨time, added, fresh⟩
    rcases follows.kept addr time added with mem | aged
    · exact ⟨⟨addr, time⟩, mem, rfl, fresh⟩
    · rw [fresh] at aged
      nomatch aged
  · rintro ⟨entry, mem, rfl, fresh⟩
    exact ⟨entry.lastHitM, follows.lastHit entry mem, fresh⟩

/-- The entry that is replaced was hit least recently of ten fresh ones. -/
structure PurgesOldest (trace : List AddrEvent) (now : Timeval) (victim : CString) : Prop where
  ten : {addr | IsFresh trace now addr}.ncard = snmpAddrcacheSize
  fresh : IsFresh trace now victim
  least : ∀ time addr time', lastAdded trace victim = some time →
    lastAdded trace addr = some time' → isAged now time' = false → time.micros ≤ time'.micros

/-- What a call does to the cache, and what it answers if it has an address. -/
structure AddsAddress (trace : List AddrEvent) (cache : AddrCache) (now : Timeval)
    (addr : Option CString) (added : AddrcacheAdded) : Prop where
  follows : Follows (⟨now, addr, added.purging⟩ :: trace) now added.cache.slots
  purges : ∀ victim, added.purging = some victim → PurgesOldest trace now victim
  answers : ∀ entry, some entry ∈ cache.slots → addr = some entry.addr → added.rc = 0
  misses : IsAbsent addr cache.slots → addr ≠ none → added.rc = 1

theorem length_addressesOf (full : none ∉ slots) : (addressesOf slots).length = slots.length := by
  induction slots with
  | nil => rfl
  | cons slot slots ih =>
      rw [List.mem_cons, not_or] at full
      cases slot with
      | none => exact absurd rfl full.1
      | some entry => exact congrArg Nat.succ (ih full.2)

theorem addresses_ncard (follows : Follows trace now slots) (full : none ∉ slots)
    (fresh : ∀ entry, some entry ∈ slots → isAged now entry.lastHitM = false) :
    {addr | IsFresh trace now addr}.ncard = slots.length := by
  have members : {addr | IsFresh trace now addr} = (addressesOf slots).toFinset := by
    ext addr
    simp only [Set.mem_ofPred_eq, follows.isFresh_iff, List.coe_toFinset, mem_addressesOf]
    constructor
    · rintro ⟨entry, mem, same, -⟩
      exact ⟨entry, mem, same⟩
    · rintro ⟨entry, mem, same⟩
      exact ⟨entry, mem, same, fresh entry mem⟩
  rw [members, Set.ncard_coe_finset, List.toFinset_card_of_nodup follows.distinct,
    length_addressesOf full]

theorem netsnmpAddrcacheAdd_of_matched {entry : AddrEntry}
    (follows : Follows trace now cache.slots) (mem : some entry ∈ cache.slots) :
    ∃ added, netsnmpAddrcacheAdd cache now (some entry.addr) = some added ∧
      AddsAddress trace cache now (some entry.addr) added := by
  rcases cache with ⟨slots, size⟩
  rcases List.append_of_mem mem with ⟨front, back, rfl⟩
  have distinct := follows.distinct
  rw [addressesOf_middle] at distinct
  have elsewhere := (List.nodup_cons.mp (List.nodup_middle.mp distinct)).1
  rw [List.mem_append, not_or] at elsewhere
  have absent : IsAbsent (some entry.addr) front := by
    intro other mem same
    exact elsewhere.1 (mem_addressesOf.mpr ⟨other, mem, (Option.some.inj same).symm⟩)
  rcases @addrcacheScan_of_matched now none none front back entry absent 0 with
    ⟨slots_eq, rc_eq⟩
  refine ⟨⟨0, ⟨front.map (purge now) ++ some ⟨entry.addr, now⟩ :: back, ?_⟩, none⟩, ?_, ?_⟩
  · rw [← slots_eq, length_addrcacheScan]
    exact size
  · simp only [netsnmpAddrcacheAdd, rc_eq, slots_eq]
  · refine ⟨?_, (fun _ same => nomatch same), fun _ _ _ => rfl, ?_⟩
    · have purged := @Follows.purge _ _ front _ follows
      apply purged.replace
      · exact ⟨fun mem => elsewhere.1 ((addressesOf_purge_sublist front).subset mem), elsewhere.2⟩
      · intro other same
        exact .inl (congrArg AddrEntry.addr (Option.some.inj same).symm)
      · exact fun _ same => nomatch same
    · intro absent
      exact absurd rfl (absent entry mem)

theorem netsnmpAddrcacheAdd_of_absent {addr : Option CString}
    (follows : Follows trace now cache.slots) (absent : IsAbsent addr cache.slots) :
    ∃ added, netsnmpAddrcacheAdd cache now addr = some added ∧
      AddsAddress trace cache now addr added := by
  rcases @addrcacheScan_of_absent now addr _ _ _ _ absent scanned_nil with
    ⟨unused, oldest, scan_eq, scanned⟩
  rw [List.length_nil] at scan_eq
  rw [List.nil_append] at scanned
  have purged : Follows trace now (cache.slots.map (purge now)) := by
    have purged := @Follows.purge trace now cache.slots [] (by rwa [List.append_nil])
    rwa [List.append_nil] at purged
  have size : (cache.slots.map (purge now)).length = snmpAddrcacheSize := by
    rw [List.length_map, cache.size]
  have never (entry : AddrEntry) (mem : some entry ∈ cache.slots) (same : addr = some entry.addr) :
      False := absent entry mem same
  cases addr with
  | none =>
      refine ⟨⟨-1, ⟨_, size⟩, none⟩, by simp only [netsnmpAddrcacheAdd, scan_eq], ?_⟩
      refine ⟨⟨purged.distinct, purged.lastHit, purged.kept⟩, (fun _ same => nomatch same), ?_, ?_⟩
      · exact fun entry mem same => (never entry mem same).elim
      · exact fun _ absurdity => absurd rfl absurdity
  | some addr =>
      have elsewhere : addr ∉ addressesOf (cache.slots.map (purge now)) := by
        intro mem
        rcases mem_addressesOf.mp mem with ⟨entry, mem', same⟩
        exact never entry (mem_map_purge.mp mem').1 (congrArg some same.symm)
      cases unused with
      | some i =>
          have free := scanned.free i rfl
          refine ⟨⟨1, ⟨(cache.slots.map (purge now)).set i (some ⟨addr, now⟩), ?_⟩, none⟩, ?_, ?_⟩
          · rw [List.length_set, size]
          · simp only [netsnmpAddrcacheAdd, scan_eq]
          · refine ⟨?_, (fun _ same => nomatch same), ?_, fun _ _ => rfl⟩
            · exact purged.set free elsewhere (fun _ same => nomatch same)
                (fun _ same => nomatch same)
            · exact fun entry mem same => (never entry mem same).elim
      | none =>
          cases oldest with
          | none =>
              -- there are slots, and each of them is free or has an entry
              have full := scanned.full rfl
              have empty := scanned.empty rfl
              cases slots_eq : cache.slots.map (purge now) with
              | nil =>
                  rw [slots_eq] at size
                  nomatch size
              | cons slot slots =>
                  rw [slots_eq] at full empty
                  cases slot with
                  | none => exact absurd List.mem_cons_self full
                  | some entry => exact absurd List.mem_cons_self (empty entry)
          | some best =>
              rcases best with ⟨i, victim⟩
              have there := scanned.used i victim rfl
              have fresh (entry : AddrEntry) (mem : some entry ∈ cache.slots.map (purge now)) :=
                (mem_map_purge.mp mem).2
              refine ⟨⟨1, ⟨(cache.slots.map (purge now)).set i (some ⟨addr, now⟩), ?_⟩,
                some victim.addr⟩, ?_, ?_⟩
              · rw [List.length_set, size]
              · simp only [netsnmpAddrcacheAdd, scan_eq]
              · have here := List.mem_of_getElem? there
                refine ⟨?_, ?_, ?_, fun _ _ => rfl⟩
                · apply purged.set there elsewhere
                  · intro entry same
                    rw [Option.some.inj same]
                  · intro _ same
                    rw [← Option.some.inj same]
                    rfl
                · intro _ same
                  obtain rfl := Option.some.inj same
                  refine ⟨?_, ?_, ?_⟩
                  · exact (addresses_ncard purged (scanned.full rfl) fresh).trans size
                  · exact purged.isFresh_iff.mpr ⟨victim, here, rfl, fresh victim here⟩
                  · intro time addr' time' addedVictim addedOther notAged
                    rw [purged.lastHit victim here] at addedVictim
                    obtain rfl : victim.lastHitM = time := Option.some.inj addedVictim
                    rcases purged.kept addr' time' addedOther with mem | aged
                    · exact scanned.least i victim rfl ⟨addr', time'⟩ mem
                    · rw [notAged] at aged
                      nomatch aged
                · exact fun entry mem same => (never entry mem same).elim

theorem netsnmpAddrcacheAdd_adds (follows : Follows trace now cache.slots)
    (addr : Option CString) :
    ∃ added, netsnmpAddrcacheAdd cache now addr = some added ∧
      AddsAddress trace cache now addr added := by
  by_cases absent : IsAbsent addr cache.slots
  · exact netsnmpAddrcacheAdd_of_absent follows absent
  · simp only [IsAbsent, not_forall, not_not] at absent
    rcases absent with ⟨entry, mem, rfl⟩
    exact netsnmpAddrcacheAdd_of_matched follows mem

theorem AddrRun.follows (run : AddrRun trace cache) (later : ClockAt trace now) :
    Follows trace now cache.slots := by
  induction run generalizing now with
  | start => exact follows_initial now
  | @add trace cache clock addr added _ earlier added_eq ih =>
      rcases netsnmpAddrcacheAdd_adds (ih earlier) addr with ⟨added', added_eq', adds⟩
      obtain rfl : added' = added := Option.some.inj (added_eq'.symm.trans added_eq)
      exact adds.follows.mono (later ⟨clock, addr, added'.purging⟩ rfl)

/-- What a call with an address has to do: no address is in the cache twice, only the one that was
hit least recently of ten fresh ones is purged, and the answer says whether the address is new. -/
structure AnswersCall (trace : List AddrEvent) (now : Timeval) (addr : CString)
    (added : AddrcacheAdded) : Prop where
  distinct : (addressesOf added.cache.slots).Nodup
  purges : ∀ victim, added.purging = some victim → PurgesOldest trace now victim
  known : added.rc = 0 ↔ IsFresh trace now addr
  new : added.rc = 1 ↔ ¬ IsFresh trace now addr

/-- The address is still in the cache, but too old. -/
def HoldsAged (cache : AddrCache) (now : Timeval) (addr : CString) : Prop :=
  ∃ entry, some entry ∈ cache.slots ∧ entry.addr = addr ∧ isAged now entry.lastHitM = true

/-- Each call of a sequence does so exactly if it does not meet an entry that is too old. -/
theorem netsnmpAddrcacheAdd_answers_iff (run : AddrRun trace cache) (later : ClockAt trace now)
    (addr : CString) :
    ∃ added, netsnmpAddrcacheAdd cache now (some addr) = some added ∧
      (AnswersCall trace now addr added ↔ ¬ HoldsAged cache now addr) := by
  have follows := run.follows later
  rcases netsnmpAddrcacheAdd_adds follows (some addr) with ⟨added, added_eq, adds⟩
  refine ⟨added, added_eq, ?_⟩
  by_cases absent : IsAbsent (some addr) cache.slots
  · have rc_eq := adds.misses absent (Option.some_ne_none addr)
    have notFresh : ¬ IsFresh trace now addr := by
      intro fresh
      rcases follows.isFresh_iff.mp fresh with ⟨entry, mem, same, -⟩
      exact absent entry mem (congrArg some same.symm)
    have notHeld : ¬ HoldsAged cache now addr := by
      rintro ⟨entry, mem, same, -⟩
      exact absent entry mem (congrArg some same.symm)
    refine iff_of_true ⟨adds.follows.distinct, adds.purges, ?_, ?_⟩ notHeld
    · exact iff_of_false (by rw [rc_eq]; decide) notFresh
    · exact iff_of_true rc_eq notFresh
  · simp only [IsAbsent, not_forall, not_not] at absent
    rcases absent with ⟨entry, mem, same⟩
    obtain rfl : addr = entry.addr := Option.some.inj same
    have rc_eq := adds.answers entry mem rfl
    have lastHit := follows.lastHit entry mem
    have fresh_iff : IsFresh trace now entry.addr ↔ isAged now entry.lastHitM = false := by
      rw [IsFresh, lastHit]
      simp
    have held_iff : HoldsAged cache now entry.addr ↔ isAged now entry.lastHitM = true := by
      constructor
      · rintro ⟨other, otherMem, sameAddr, aged⟩
        have otherHit := follows.lastHit other otherMem
        rw [sameAddr, lastHit] at otherHit
        rw [Option.some.inj otherHit]
        exact aged
      · exact fun aged => ⟨entry, mem, rfl, aged⟩
    rw [held_iff, Bool.not_eq_true, ← fresh_iff]
    constructor
    · exact fun answers => answers.known.mp rc_eq
    · intro fresh
      refine ⟨adds.follows.distinct, adds.purges, ?_, ?_⟩
      · exact iff_of_true rc_eq fresh
      · exact iff_of_false (by rw [rc_eq]; decide) (not_not.mpr fresh)

def firstAddr : CString := ⟨[0x61], by decide⟩

def secondAddr : CString := ⟨[0x62], by decide⟩

def atSeconds (seconds : Nat) : Timeval := ⟨seconds, 0, Timeval.zero.normalized⟩

def oneAddr : AddrCache := ⟨some ⟨firstAddr, .zero⟩ :: List.replicate 9 none, rfl⟩

def twoAddrs : AddrCache :=
  ⟨some ⟨firstAddr, .zero⟩ :: some ⟨secondAddr, atSeconds 10⟩ :: List.replicate 8 none, rfl⟩

theorem oneAddr_run : AddrRun [⟨.zero, some firstAddr, none⟩] oneAddr := by
  have added : netsnmpAddrcacheAdd .initial .zero (some firstAddr) = some ⟨1, oneAddr, none⟩ := by
    decide +kernel
  exact .add .start (fun _ mem => nomatch mem) added

def twoCalls : List AddrEvent :=
  [⟨atSeconds 10, some secondAddr, none⟩, ⟨.zero, some firstAddr, none⟩]

theorem twoAddrs_run : AddrRun twoCalls twoAddrs := by
  have added : netsnmpAddrcacheAdd oneAddr (atSeconds 10) (some secondAddr) =
      some ⟨1, twoAddrs, none⟩ := by
    decide +kernel
  refine .add oneAddr_run ?_ added
  intro previous mem
  rw [← Option.some.inj mem]
  decide

theorem netsnmpAddrcacheAdd_answers_again :
    (AddrRun twoCalls twoAddrs ∧ ClockAt twoCalls (atSeconds 20)) ∧
      ∃ added, netsnmpAddrcacheAdd twoAddrs (atSeconds 20) (some firstAddr) = some added ∧
        (AnswersCall twoCalls (atSeconds 20) firstAddr added ↔
          ¬ HoldsAged twoAddrs (atSeconds 20) firstAddr) := by
  have clock : ClockAt twoCalls (atSeconds 20) := by
    intro previous mem
    rw [← Option.some.inj mem]
    decide
  exact ⟨⟨twoAddrs_run, clock⟩, netsnmpAddrcacheAdd_answers_iff twoAddrs_run clock firstAddr⟩

/-- An address that comes back after 301 seconds is taken for a known one. -/
theorem not_netsnmpAddrcacheAdd_answers :
    ¬ ∀ (trace : List AddrEvent) (cache : AddrCache) (now : Timeval) (addr : CString),
      AddrRun trace cache → ClockAt trace now →
        ∃ added, netsnmpAddrcacheAdd cache now (some addr) = some added ∧
          AnswersCall trace now addr added := by
  intro all
  have later : ClockAt [⟨.zero, some firstAddr, none⟩] (atSeconds 301) := by
    intro previous mem
    rw [← Option.some.inj mem]
    decide
  rcases all _ oneAddr (atSeconds 301) firstAddr oneAddr_run later with ⟨again, again_eq, answers⟩
  have known : (netsnmpAddrcacheAdd oneAddr (atSeconds 301) (some firstAddr)).map
      AddrcacheAdded.rc = some 0 := by
    decide +kernel
  rw [again_eq] at known
  rcases answers.known.mp (Option.some.inj known) with ⟨time, lastAdded_eq, notAged⟩
  obtain rfl : Timeval.zero = time := Option.some.inj lastAdded_eq
  exact absurd notAged (by decide)

end NetSnmp
