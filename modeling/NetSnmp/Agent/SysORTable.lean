import NetSnmp.CString
import NetSnmp.Fuel
import NetSnmp.OidCompare
import NetSnmp.RingList

/-!
# The sysORTable

The entries are in a ring that `table` points into.  A walk over the ring that removes
entries ends where it comes to `table`, which a removal may have moved: if the first
entry is removed, the walk ends behind it.
-/

namespace NetSnmp

open Links

def snmpFlagsSubsession : UInt64 := 0x20

def sysOrtableRegisteredOk : Int := 0

def sysOrtableUnregisteredOk : Int := 0

def sysOrtableNoSuchRegistration : Int := -1

/-- `struct sysORTable` -/
structure SysORTable where
  orDescr : CString
  orOid : Oid
  orSess : Option Addr
  orUptime : Nat
  deriving DecidableEq, Repr

structure OwnerSession where
  flags : UInt64
  subsession : Option Addr

structure SysORNodes where
  data : Addr → SysORTable
  links : Links
  table : Option Addr

namespace SysORNodes

/-- `erase`, without the callbacks -/
def erase (s : SysORNodes) (entry : Addr) : Option SysORNodes := do
  let next ← s.links.next entry
  if next = entry then some { s with table := none }
  else
    let prev ← s.links.prev entry
    some { s with
      links := s.links.unlink next prev
      table := if s.table = some entry then some next else s.table }

/-- `register_sysORTable_sess` with the address of the new node. -/
def registerSysORTableSess (s : SysORNodes) (entry : Addr) (oidin : Oid) (descr : CString)
    (ss : Option Addr) (uptime : Nat) : Option (Int × SysORNodes) := do
  let data := Function.update s.data entry ⟨descr, oidin, ss, uptime⟩
  match s.table with
  | some table =>
      let prev ← s.links.prev table
      some (sysOrtableRegisteredOk, { s with data, links := s.links.linkBefore table entry prev })
  | none =>
      let links := (s.links.setPrev entry (some entry)).setNext entry (some entry)
      some (sysOrtableRegisteredOk, { data, links, table := some entry })

def eraseIf (selects : SysORTable → Bool) (s : SysORNodes) (tmp : Addr) : Option SysORNodes :=
  if selects (s.data tmp) then s.erase tmp else some s

/-- The loop that erases the entries that are selected, from `run` on, and whether there were
any. -/
def eraseSelected (selects : SysORTable → Bool) : (fuel : Nat) → (run : Addr) → (any : Bool) →
    SysORNodes → Option (Bool × SysORNodes)
  | 0, _, _, _ => none
  | fuel + 1, run, any, s => do
      let tmp := run
      let run ← s.links.next tmp
      let any := any || selects (s.data tmp)
      let s ← s.eraseIf selects tmp
      if s.table = none ∨ s.table = some run then some (any, s)
      else eraseSelected selects fuel run any s

/-- `if (table)` and the loop. -/
def unregisterSelected (selects : SysORTable → Bool) (fuel : Nat) (s : SysORNodes) :
    Option (Bool × SysORNodes) :=
  match s.table with
  | none => some (false, s)
  | some table => eraseSelected selects fuel table false s

def isRegistration (oidin : Oid) (ss : Option Addr) (data : SysORTable) : Bool :=
  data.orSess = ss && snmpOidCompare oidin data.orOid = 0

def unregisterSysORTableSess (oidin : Oid) (ss : Option Addr) (fuel : Nat) (s : SysORNodes) :
    Option (Int × SysORNodes) :=
  (unregisterSelected (isRegistration oidin ss) fuel s).map fun (anyUnregistered, s) =>
    (if anyUnregistered then sysOrtableUnregisteredOk else sysOrtableNoSuchRegistration, s)

/-- The entries of a subsession, or of the subsessions of a session. -/
def isOwned (sessions : Addr → OwnerSession) (ss : Addr) (data : SysORTable) : Bool :=
  let isSubsession := (sessions ss).flags &&& snmpFlagsSubsession ≠ 0
  isSubsession && data.orSess = some ss ||
    !isSubsession && data.orSess.any fun owner => (sessions owner).subsession = some ss

def unregisterSysORTableBySession (sessions : Addr → OwnerSession) (ss : Addr) (fuel : Nat)
    (s : SysORNodes) : Option SysORNodes :=
  (unregisterSelected (isOwned sessions ss) fuel s).map Prod.snd

variable {s s' : SysORNodes} {selects : SysORTable → Bool} {head cell : Addr}
  {cells front back : List Addr}

/-- The nodes of the table are the cells of a ring. -/
def HasCells (s : SysORNodes) (cells : List Addr) : Prop := Ring s.links s.table cells

def keptCells (selects : SysORTable → Bool) (data : Addr → SysORTable) (cells : List Addr) :
    List Addr :=
  cells.filter fun cell => !selects (data cell)

theorem keptCells_cons (data : Addr → SysORTable) : keptCells selects data (cell :: cells) =
    keptCells selects data [cell] ++ keptCells selects data cells :=
  List.filter_append [cell] cells

theorem HasCells.table_eq (hasCells : s.HasCells cells) : s.table = cells.head? := hasCells.head_eq

theorem pass_behind (hasCells : s.HasCells (head :: (front ++ cell :: back))) :
    ∃ next s', s.links.next cell = some next ∧ some next = (back ++ [head]).head? ∧
      s.eraseIf selects cell = some s' ∧ s'.data = s.data ∧
        s'.table = some head ∧
          s'.HasCells (head :: (front ++ keptCells selects s.data [cell] ++ back)) := by
  have table_eq : s.table = some head := hasCells.table_eq
  have ring : Ring s.links (some head) (head :: (front ++ cell :: back)) := table_eq ▸ hasCells
  rcases ring.unlinkBehind with ⟨next, prev, next_eq, prev_eq, other, next_head, unlinked⟩
  refine ⟨next, ?_⟩
  cases selected : selects (s.data cell) with
  | false =>
      refine ⟨s, next_eq, next_head, by simp [eraseIf, selected], rfl, table_eq, ?_⟩
      simpa [keptCells, selected] using hasCells
  | true =>
      have notHead : some head ≠ some cell := by
        intro same
        rw [Option.some.inj same] at ring
        apply (List.nodup_cons.mp ring.nodup).1
        exact List.mem_append_right _ List.mem_cons_self
      refine ⟨{ s with links := s.links.unlink next prev }, next_eq, next_head, ?_, rfl, table_eq,
        ?_⟩
      · simp only [eraseIf, selected, if_true, erase, next_eq, prev_eq, table_eq,
          Option.bind_eq_bind, Option.bind_some, if_neg other, if_neg notHead]
      · simpa [keptCells, selected, HasCells, table_eq] using unlinked

theorem eraseSelected_behind (selects : SysORTable → Bool)
    (hasCells : s.HasCells (head :: (front ++ cell :: back))) (any : Bool) :
    ∃ s', (∀ fuel, back.length < fuel → eraseSelected selects fuel cell any s =
        some (any || (cell :: back).any fun other => selects (s.data other), s')) ∧
      s'.data = s.data ∧
      s'.HasCells (head :: (front ++ keptCells selects s.data (cell :: back))) := by
  induction back generalizing front cell any s with
  | nil =>
      rcases @pass_behind s selects _ _ _ _ hasCells with
        ⟨next, s', next_eq, next_head, erased, data_eq, table_eq, hasCells'⟩
      obtain rfl : next = head := Option.some.inj next_head
      refine ⟨s', ?_, data_eq, by rwa [List.append_nil] at hasCells'⟩
      intro fuel enough
      rcases Nat.exists_eq_add_of_lt enough with ⟨more, rfl⟩
      simp [eraseSelected, next_eq, erased, table_eq]
  | cons cell' back ih =>
      rcases @pass_behind s selects _ _ _ _ hasCells with
        ⟨next, s', next_eq, next_head, erased, data_eq, table_eq, hasCells'⟩
      obtain rfl : next = cell' := Option.some.inj next_head
      have goesOn : ¬ (s'.table = none ∨ s'.table = some next) := by
        rw [table_eq]
        rintro (absurdity | same)
        · nomatch absurdity
        · have distinct := (List.nodup_cons.mp hasCells.nodup).1
          apply distinct
          rw [Option.some.inj same]
          exact List.mem_append_right _ (List.mem_cons_of_mem _ List.mem_cons_self)
      rcases ih hasCells' (any || selects (s.data cell)) with ⟨s'', walked, data_eq', ring⟩
      refine ⟨s'', ?_, data_eq'.trans data_eq, ?_⟩
      · intro fuel enough
        rcases fuel with _ | fuel
        · exact absurd enough (Nat.not_lt_zero _)
        · rw [eraseSelected]
          simp only [next_eq, Option.bind_eq_bind, Option.bind_some, erased, if_neg goesOn]
          rw [walked fuel (Nat.lt_of_succ_lt_succ enough), data_eq, List.any_cons, List.any_cons,
            List.any_cons, Bool.or_assoc]
      · rw [data_eq, List.append_assoc, ← keptCells_cons] at ring
        exact ring

def remainingCells (selects : SysORTable → Bool) (data : Addr → SysORTable) :
    List Addr → List Addr
  | [] => []
  | head :: cells =>
      if selects (data head) then cells else head :: keptCells selects data cells

theorem unregisterSelected_spec (selects : SysORTable → Bool) (hasCells : s.HasCells cells) :
    ∃ s', Settles (fun fuel => unregisterSelected selects fuel s)
        (cells.any fun cell => selects (s.data cell), s') ∧
      s'.data = s.data ∧ s'.HasCells (remainingCells selects s.data cells) := by
  have table_eq := hasCells.table_eq
  cases cells with
  | nil =>
      refine ⟨s, ⟨0, fun fuel _ => ?_⟩, rfl, hasCells⟩
      simp [unregisterSelected, table_eq]
  | cons head cells =>
      rw [List.head?_cons] at table_eq
      have ring : Ring s.links (some head) (head :: cells) := table_eq ▸ hasCells
      have next_head := ring.links_eq.1
      rcases (⟨_, ring.links_eq.2.trans (List.getLast?_eq_some_getLast (List.cons_ne_nil _ _))⟩ :
        ∃ prev, s.links.prev head = some prev) with ⟨prev, prev_eq⟩
      have distinct := (List.nodup_cons.mp ring.nodup).1
      -- the first pass; the loop goes on with `next` only if `table` is not there yet
      have first (fuel : Nat) : unregisterSelected selects (fuel + 1) s =
          eraseSelected selects (fuel + 1) head false s := by
        rw [unregisterSelected, table_eq]
      cases selected : selects (s.data head) with
      | true =>
          cases cells with
          | nil =>
              have next_eq : s.links.next head = some head := next_head
              refine ⟨{ s with table := none }, ⟨1, fun fuel enough => ?_⟩, rfl, ?_⟩
              · rcases Nat.exists_eq_add_of_le' enough with ⟨more, rfl⟩
                simp [first, eraseSelected, eraseIf, next_eq, erase, selected]
              · simp only [remainingCells, selected, if_true]
                exact ring_nil s.links
          | cons next cells =>
              have next_eq : s.links.next head = some next := next_head
              have other : next ≠ head := ne_of_mem_of_not_mem List.mem_cons_self distinct
              refine ⟨{ s with links := s.links.unlink next prev, table := some next },
                ⟨1, fun fuel enough => ?_⟩, rfl, ?_⟩
              · rcases Nat.exists_eq_add_of_le' enough with ⟨more, rfl⟩
                simp [first, eraseSelected, eraseIf, next_eq, erase, selected, prev_eq, table_eq,
                  other]
              · simp only [remainingCells, selected, if_true]
                exact ring.unlink next_eq prev_eq other
      | false =>
          cases cells with
          | nil =>
              have next_eq : s.links.next head = some head := next_head
              refine ⟨s, ⟨1, fun fuel enough => ?_⟩, rfl, ?_⟩
              · rcases Nat.exists_eq_add_of_le' enough with ⟨more, rfl⟩
                simp [first, eraseSelected, eraseIf, next_eq, table_eq, selected]
              · simpa [remainingCells, selected, keptCells] using hasCells
          | cons next cells =>
              have next_eq : s.links.next head = some next := next_head
              have other : head ≠ next :=
                (ne_of_mem_of_not_mem List.mem_cons_self distinct).symm
              rcases @eraseSelected_behind s head next [] cells selects hasCells false with
                ⟨s', walked, data_eq, ring'⟩
              refine ⟨s', ⟨cells.length + 2, fun fuel enough => ?_⟩, data_eq, ?_⟩
              · rcases Nat.exists_eq_add_of_le' enough with ⟨more, rfl⟩
                have rest := walked (more + (cells.length + 1)) (by omega)
                change unregisterSelected selects (more + (cells.length + 1) + 1) s = _
                rw [first, eraseSelected]
                simpa [eraseIf, next_eq, table_eq, other, selected] using rest
              · simpa [remainingCells, selected] using ring'

/-- Just the entries that are selected are gone, and the others are still in their order. -/
structure RemovesSelected (selects : SysORTable → Bool) (cells : List Addr)
    (s s' : SysORNodes) : Prop where
  ring : s'.HasCells (keptCells selects s.data cells)
  data : s'.data = s.data

/-- If the first entry is selected, it is the only one. -/
def HeadAlone (selects : SysORTable → Bool) (data : Addr → SysORTable) : List Addr → Prop
  | [] => True
  | head :: cells => selects (data head) = true → ∀ cell ∈ cells, selects (data cell) = false

theorem remainingCells_eq_iff (data : Addr → SysORTable) :
    remainingCells selects data cells = keptCells selects data cells ↔
      HeadAlone selects data cells := by
  cases cells with
  | nil => exact iff_of_true rfl trivial
  | cons head cells =>
      rw [remainingCells, HeadAlone]
      cases selected : selects (data head) with
      | true =>
          have kept_eq : keptCells selects data (head :: cells) = keptCells selects data cells := by
            simp [keptCells, selected]
          rw [if_pos rfl, kept_eq, eq_comm, keptCells, List.filter_eq_self]
          simp
      | false => simp [keptCells, selected]

theorem removesSelected_iff (hasCells : s'.HasCells (remainingCells selects s.data cells))
    (data_eq : s'.data = s.data) :
    RemovesSelected selects cells s s' ↔ HeadAlone selects s.data cells := by
  rw [← remainingCells_eq_iff]
  constructor
  · exact fun removes => hasCells.unique removes.ring
  · exact fun same => ⟨same ▸ hasCells, data_eq⟩

/-- A walk ends, leaves a ring, and removes just what is selected exactly if the first entry is not
one of several that are. -/
theorem unregisterSysORTable_removes_iff (hasCells : s.HasCells cells) :
    (∀ oidin ss, ∃ rc s', Settles (fun fuel => s.unregisterSysORTableSess oidin ss fuel) (rc, s') ∧
      (∃ cells', s'.HasCells cells') ∧ (RemovesSelected (isRegistration oidin ss) cells s s' ↔
        HeadAlone (isRegistration oidin ss) s.data cells)) ∧
      ∀ sessions ss, ∃ s',
        Settles (fun fuel => s.unregisterSysORTableBySession sessions ss fuel) s' ∧
        (∃ cells', s'.HasCells cells') ∧ (RemovesSelected (isOwned sessions ss) cells s s' ↔
          HeadAlone (isOwned sessions ss) s.data cells) := by
  constructor
  · intro oidin ss
    rcases unregisterSelected_spec (isRegistration oidin ss) hasCells with
      ⟨s', walked, data_eq, hasCells'⟩
    exact ⟨_, s', walked.map _, ⟨_, hasCells'⟩, removesSelected_iff hasCells' data_eq⟩
  · intro sessions ss
    rcases unregisterSelected_spec (isOwned sessions ss) hasCells with
      ⟨s', walked, data_eq, hasCells'⟩
    exact ⟨s', walked.map _, ⟨_, hasCells'⟩, removesSelected_iff hasCells' data_eq⟩

def twoEntries : SysORNodes where
  data := fun _ => ⟨⟨[], CString.noNul_nil⟩, [1, 3], some 7, 0⟩
  links := ⟨fun cell => some (1 - cell), fun cell => some (1 - cell)⟩
  table := some 0

theorem hasCells_twoEntries : twoEntries.HasCells [0, 1] :=
  ⟨rfl, ⟨rfl, rfl, rfl, rfl, rfl⟩, by decide⟩

theorem unregisterSysORTable_removes_twoEntries :
    twoEntries.HasCells [0, 1] ∧
      (∀ oidin ss, ∃ rc s',
        Settles (fun fuel => twoEntries.unregisterSysORTableSess oidin ss fuel) (rc, s') ∧
        (∃ cells', s'.HasCells cells') ∧
          (RemovesSelected (isRegistration oidin ss) [0, 1] twoEntries s' ↔
            HeadAlone (isRegistration oidin ss) twoEntries.data [0, 1])) ∧
        ∀ sessions ss, ∃ s',
          Settles (fun fuel => twoEntries.unregisterSysORTableBySession sessions ss fuel) s' ∧
          (∃ cells', s'.HasCells cells') ∧ (RemovesSelected (isOwned sessions ss) [0, 1] twoEntries
            s' ↔ HeadAlone (isOwned sessions ss) twoEntries.data [0, 1]) :=
  ⟨hasCells_twoEntries, unregisterSysORTable_removes_iff hasCells_twoEntries⟩

/-- Of two entries of one session with the same OID, the second one remains. -/
theorem not_unregisterSysORTable_removes :
    ¬ ∀ (s : SysORNodes) (cells : List Addr), s.HasCells cells → ∀ oidin ss, ∃ rc s',
      Settles (fun fuel => s.unregisterSysORTableSess oidin ss fuel) (rc, s') ∧
        RemovesSelected (isRegistration oidin ss) cells s s' := by
  intro all
  rcases all twoEntries [0, 1] hasCells_twoEntries [1, 3] (some 7) with ⟨rc, s', returned, removes⟩
  rcases unregisterSelected_spec (isRegistration [1, 3] (some 7)) hasCells_twoEntries with
    ⟨s'', walked, data_eq, hasCells⟩
  obtain rfl : s' = s'' := congrArg Prod.snd (returned.unique (walked.map _))
  have alone := (removesSelected_iff hasCells data_eq).mp removes
  have selected : isRegistration [1, 3] (some 7) (twoEntries.data 1) = false :=
    alone (by decide +kernel) 1 List.mem_cons_self
  exact absurd selected (by decide +kernel)

theorem hasCells_registerSysORTableSess (hasCells : s.HasCells cells) {entry : Addr}
    (fresh : entry ∉ cells) (oidin : Oid) (descr : CString) (ss : Option Addr) (uptime : Nat) :
    ∃ s', s.registerSysORTableSess entry oidin descr ss uptime =
        some (sysOrtableRegisteredOk, s') ∧
      s'.data = Function.update s.data entry ⟨descr, oidin, ss, uptime⟩ ∧
      s'.HasCells (cells ++ [entry]) := by
  have table_eq := hasCells.table_eq
  cases cells with
  | nil =>
      refine ⟨_, by rw [registerSysORTableSess, table_eq]; rfl, rfl, ?_⟩
      apply ring_singleton
      · simp
      · simp
  | cons head cells =>
      rw [List.head?_cons] at table_eq
      have ring : Ring s.links (some head) (head :: cells) := table_eq ▸ hasCells
      have prev_eq := ring.links_eq.2
      rw [List.getLast?_eq_some_getLast (List.cons_ne_nil head cells)] at prev_eq
      refine ⟨_, by rw [registerSysORTableSess, table_eq]; simp only [prev_eq]; rfl, rfl, ?_⟩
      exact ring.linkBefore prev_eq fresh

/-- The tables that come from an empty one by registering and removing entries. -/
inductive SysORRun : SysORNodes → Prop
  | start (data : Addr → SysORTable) (links : Links) : SysORRun ⟨data, links, none⟩
  | register {s s' : SysORNodes} {entry : Addr} {oidin : Oid} {descr : CString}
      {ss : Option Addr} {uptime : Nat} {rc : Int} : SysORRun s →
      (∀ cells, s.HasCells cells → entry ∉ cells) →
      s.registerSysORTableSess entry oidin descr ss uptime = some (rc, s') → SysORRun s'
  | unregister {s s' : SysORNodes} {oidin : Oid} {ss : Option Addr} {rc : Int} : SysORRun s →
      Settles (fun fuel => s.unregisterSysORTableSess oidin ss fuel) (rc, s') → SysORRun s'
  | unregisterBySession {s s' : SysORNodes} {sessions : Addr → OwnerSession} {ss : Addr} :
      SysORRun s → Settles (fun fuel => s.unregisterSysORTableBySession sessions ss fuel) s' →
      SysORRun s'

theorem SysORRun.hasCells (run : SysORRun s) : ∃ cells, s.HasCells cells := by
  induction run with
  | start data links => exact ⟨[], ring_nil links⟩
  | @register s s' entry oidin descr ss uptime rc _ fresh registered ih =>
      rcases ih with ⟨cells, hasCells⟩
      rcases hasCells_registerSysORTableSess hasCells (fresh cells hasCells) oidin descr ss uptime
        with ⟨s'', registered', -, hasCells'⟩
      have same : s'' = s' :=
        congrArg Prod.snd (Option.some.inj (registered'.symm.trans registered))
      exact ⟨_, same ▸ hasCells'⟩
  | @unregister s s' oidin ss rc _ returned ih =>
      rcases ih with ⟨cells, hasCells⟩
      rcases unregisterSelected_spec (isRegistration oidin ss) hasCells with
        ⟨s'', walked, -, hasCells'⟩
      have same : s'' = s' := congrArg Prod.snd ((walked.map _).unique returned)
      exact ⟨_, same ▸ hasCells'⟩
  | @unregisterBySession s s' sessions ss _ returned ih =>
      rcases ih with ⟨cells, hasCells⟩
      rcases unregisterSelected_spec (isOwned sessions ss) hasCells with
        ⟨s'', walked, -, hasCells'⟩
      have same : s'' = s' := (walked.map Prod.snd).unique returned
      exact ⟨_, same ▸ hasCells'⟩

/-- The table is a ring of `cells`, and what the next call does with it. -/
structure KeepsEntries (s : SysORNodes) (cells : List Addr) : Prop where
  ring : s.HasCells cells
  register : ∀ entry ∉ cells, ∀ oidin descr ss uptime, ∃ s',
    s.registerSysORTableSess entry oidin descr ss uptime = some (sysOrtableRegisteredOk, s') ∧
      s'.data = Function.update s.data entry ⟨descr, oidin, ss, uptime⟩ ∧
      s'.HasCells (cells ++ [entry])
  unregister : ∀ oidin ss, ∃ s',
    Settles (fun fuel => s.unregisterSysORTableSess oidin ss fuel)
      (if cells.any fun cell => isRegistration oidin ss (s.data cell) then sysOrtableUnregisteredOk
        else sysOrtableNoSuchRegistration, s') ∧
      s'.data = s.data ∧ s'.HasCells (remainingCells (isRegistration oidin ss) s.data cells)
  unregisterBySession : ∀ sessions ss, ∃ s',
    Settles (fun fuel => s.unregisterSysORTableBySession sessions ss fuel) s' ∧
      s'.data = s.data ∧ s'.HasCells (remainingCells (isOwned sessions ss) s.data cells)

theorem SysORRun.keepsEntries (run : SysORRun s) : ∃ cells, s.KeepsEntries cells := by
  rcases run.hasCells with ⟨cells, hasCells⟩
  refine ⟨cells, hasCells, ?_, ?_, ?_⟩
  · intro entry fresh oidin descr ss uptime
    exact hasCells_registerSysORTableSess hasCells fresh oidin descr ss uptime
  · intro oidin ss
    rcases unregisterSelected_spec (isRegistration oidin ss) hasCells with ⟨s', walked, kept⟩
    exact ⟨s', walked.map _, kept⟩
  · intro sessions ss
    rcases unregisterSelected_spec (isOwned sessions ss) hasCells with ⟨s', walked, kept⟩
    exact ⟨s', walked.map _, kept⟩

/-- A table without entries, and the one with an entry of a session for the OID 1.3. -/
def noEntry : SysORNodes :=
  ⟨fun _ => ⟨⟨[], by decide⟩, [], none, 0⟩, ⟨fun _ => none, fun _ => none⟩, none⟩

def oneEntry : SysORNodes where
  data := Function.update noEntry.data 0 ⟨⟨[], by decide⟩, [1, 3], some 7, 0⟩
  links := (noEntry.links.setPrev 0 (some 0)).setNext 0 (some 0)
  table := some 0

theorem oneEntry_run : SysORRun oneEntry := by
  have fresh : ∀ cells, noEntry.HasCells cells → 0 ∉ cells := by
    intro cells hasCells
    rw [List.head?_eq_none_iff.mp hasCells.table_eq.symm]
    exact List.not_mem_nil
  have registered : noEntry.registerSysORTableSess 0 [1, 3] ⟨[], by decide⟩ (some 7) 0 =
      some (0, oneEntry) := rfl
  exact .register (.start _ _) fresh registered

theorem hasCells_oneEntry : oneEntry.HasCells [0] := by
  rcases hasCells_registerSysORTableSess (ring_nil noEntry.links) (s := noEntry) List.not_mem_nil
    [1, 3] ⟨[], by decide⟩ (some 7) 0 with ⟨s', registered, -, hasCells⟩
  obtain rfl : oneEntry = s' := congrArg Prod.snd (Option.some.inj registered)
  exact hasCells

theorem SysORRun.keepsEntries_twoEntries : ∃ s, SysORRun s ∧ s.HasCells [0, 1] ∧
    ∃ cells, s.KeepsEntries cells := by
  have absent : (1 : Addr) ∉ [0] := by decide
  rcases hasCells_registerSysORTableSess hasCells_oneEntry absent [1, 5] ⟨[], by decide⟩ (some 8) 0
    with ⟨s, registered, -, hasCells⟩
  have fresh : ∀ cells, oneEntry.HasCells cells → 1 ∉ cells := by
    intro cells hasCells'
    rwa [hasCells'.unique hasCells_oneEntry]
  have run : SysORRun s := .register oneEntry_run fresh registered
  exact ⟨s, run, hasCells, run.keepsEntries⟩

end SysORNodes

end NetSnmp
