import NetSnmp.Registry.Subtree

/-!
# Registration and unregistration

`netsnmp_subtree_load`, `netsnmp_register_mib` and `unregister_mib_context`, and the
cache of `netsnmp_subtree_find_prev`.
-/

namespace NetSnmp

def mibRegisteredOk : Int := 0
def mibDuplicateRegistration : Int := -1
def mibRegistrationFailed : Int := -2
def mibUnregisteredOk : Int := 0
def mibNoSuchRegistration : Int := -1

/-- The last sub-identifier plus one: `end_a[mibloclen - 1]++`. -/
def incrementLast : Oid → Oid
  | [] => []
  | [subid] => [(subid + 1) % 2 ^ 64]
  | subid :: rest => subid :: incrementLast rest

/-- `name[range_subid - 1] = value`, where the name has this place. -/
def setSubid (name : Oid) (rangeSubid : Int) (value : Nat) : Option Oid :=
  if 1 ≤ rangeSubid ∧ rangeSubid ≤ name.length then some (name.set (rangeSubid - 1).toNat value)
  else none

namespace ContextSubtrees

open ColumnHeap

/-- A loop of `netsnmp_subtree_load` for the place of a new subtree in a column: the cell before it
and the one behind it. -/
def skipChildren (stands : Subtree → Bool) (heap : SubtreeHeap) :
    Nat → (prev next : Option Addr) → Option (Option Addr × Option Addr)
  | _, prev, none => some (prev, none)
  | 0, _, some _ => none
  | fuel + 1, prev, some next => do
      let cell ← heap next
      if stands cell.content then skipChildren stands heap fuel (some next) cell.children
      else some (prev, some next)

/-- The part of `netsnmp_subtree_load` for a subtree that has the same end as the new one: merge the
new one into the list of children. -/
def mergeChild (subtrees : ContextSubtrees) (newSub tree1 : Addr) :
    Option (Int × ContextSubtrees) := do
  let newCell ← subtrees.heap newSub
  let new := newCell.content
  let (prev, next) ← skipChildren (fun next => new.nameA.length < next.nameA.length)
    subtrees.heap subtrees.fresh none (some tree1)
  let (prev, next) ← skipChildren
    (fun next => next.nameA.length = new.nameA.length ∧ next.priority < new.priority)
    subtrees.heap subtrees.fresh prev next
  let nextCell ← match next with
    | none => some none
    | some next => (subtrees.heap next).map some
  if nextCell.any fun cell => cell.content.nameA.length = new.nameA.length ∧
      cell.content.priority = new.priority then
    some (mibDuplicateRegistration, subtrees)
  else
    match prev with
    | some prev => do
        let prevCell ← subtrees.heap prev
        let heap := subtrees.heap.put prev { prevCell with children := some newSub }
        let newCell ← heap newSub
        let heap := heap.put newSub { newCell with children := next }
        let heap ← subtreeChangePrev prevCell.prev heap newSub
        let prevCell ← heap prev
        let heap ← subtreeChangeNext prevCell.next heap newSub
        some (mibRegisteredOk, { subtrees with heap })
    | none => do
        let heap := subtrees.heap.put newSub { newCell with children := next }
        let nextCell ← next.bind heap
        let heap ← subtreeChangePrev nextCell.prev heap newSub
        let nextCell ← next.bind heap
        let heap ← subtreeChangeNext nextCell.next heap newSub
        let newCell ← heap newSub
        let heap ← eachCell (subtreeChangePrev (some newSub)) subtrees.fresh heap newCell.next
        let newCell ← heap newSub
        let heap ← eachCell (subtreeChangeNext (some newSub)) subtrees.fresh heap newCell.prev
        some (mibRegisteredOk, { subtrees with heap })

/-- The part of `netsnmp_subtree_load` for a subtree that starts in virgin territory. -/
def loadVirgin (subtrees : ContextSubtrees) (newSub : Addr) :
    Option (Int × ContextSubtrees) := do
  let newCell ← subtrees.heap newSub
  let tree2 ← subtrees.subtreeFindNext newCell.content.startA
  match tree2 with
  | some tree2 => do
      let cell2 ← subtrees.heap tree2
      let subtrees ←
        if 0 < snmpOidCompare newCell.content.endA cell2.content.startA then
          (subtreeSplit subtrees.fresh subtrees newSub cell2.content.startA).map Prod.snd
        else some subtrees
      let cell2 ← subtrees.heap tree2
      let heap ← subtreeChangePrev cell2.prev subtrees.heap newSub
      let heap ← subtreeChangePrev (some newSub) heap tree2
      some (mibRegisteredOk, { subtrees with heap })
  | none => do
      let prev ← subtrees.subtreeFindPrev newCell.content.startA
      let heap ← subtreeChangePrev prev subtrees.heap newSub
      let subtrees := { subtrees with heap }
      let subtrees ← match prev with
        | some prev => do
            let heap ← subtreeChangeNext (some newSub) subtrees.heap prev
            some { subtrees with heap }
        | none => some { subtrees with firstSubtree := some newSub }
      let heap ← subtreeChangeNext none subtrees.heap newSub
      some (mibRegisteredOk, { subtrees with heap })

/-- `netsnmp_subtree_load` in a context with subtrees -/
def loadSubtree : Nat → ContextSubtrees → Addr → Option (Int × ContextSubtrees)
  | 0, _, _ => none
  | fuel + 1, subtrees, newSub => do
      let newCell ← subtrees.heap newSub
      let tree1 ← subtrees.subtreeFind newCell.content.startA
      match tree1 with
      | none => subtrees.loadVirgin newSub
      | some tree1 => do
          let cell1 ← subtrees.heap tree1
          -- the new subtree may start within an existing one
          let (tree1, subtrees) ←
            if newCell.content.startA ≠ cell1.content.startA then
              subtreeSplit subtrees.fresh subtrees tree1 newCell.content.startA
            else some (some tree1, subtrees)
          match tree1 with
          | none => some (mibRegistrationFailed, subtrees)
          | some tree1 => do
              let cell1 ← subtrees.heap tree1
              let order := snmpOidCompare newCell.content.endA cell1.content.endA
              if 0 < order then do
                -- the new subtree contains the existing one
                let (new2, subtrees) ←
                  subtreeSplit subtrees.fresh subtrees newSub cell1.content.endA
                let (res, subtrees) ← loadSubtree fuel subtrees newSub
                if res ≠ mibRegisteredOk then do
                  let new2 ← new2
                  let subtrees ← subtrees.removeSubtree new2
                  some (res, subtrees.subtreeFree new2)
                else
                  match new2 with
                  | none => some (mibRegisteredOk, subtrees)
                  | some new2 => loadSubtree fuel subtrees new2
              else do
                let subtrees ←
                  if order < 0 then
                    (subtreeSplit subtrees.fresh subtrees tree1 newCell.content.endA).map Prod.snd
                  else some subtrees
                subtrees.mergeChild newSub tree1

/-- The cell of a subtree that is being registered: `calloc`, and the fields that
`netsnmp_register_mib` sets. -/
def registeredCell (vars : Option (List RegistryVariable)) (mibloc : Oid) (priority : Int)
    (reginfo : HandlerRegistration) : ColumnCell Subtree :=
  -- the lengths are stored as `u_char`
  let len := mibloc.length % 256
  { content := { nameA := mibloc.take len, startA := mibloc.take len,
                 endA := (incrementLast mibloc).take len, vars,
                 priority := (toUChar priority).toNat, reginfo }
    next := none, prev := none, children := none, off := 0 }

/-- `netsnmp_register_null_context` in a context without subtrees, or with those of earlier calls;
its result is not read. -/
def registerNullContext (subtrees : ContextSubtrees) (subid : Nat) : Option ContextSubtrees := do
  let newSub := subtrees.fresh
  let cell := registeredCell none [subid] 0 ⟨[], [subid]⟩
  let subtrees := subtrees.alloc cell
  let (res, subtrees) ← loadSubtree (subtrees.fresh + 2) subtrees newSub
  some (if res = mibRegisteredOk then subtrees else subtrees.subtreeFree newSub)

/-- `netsnmp_subtree_load` -/
def subtreeLoad (subtrees : ContextSubtrees) (newSub : Addr) :
    Option (Int × ContextSubtrees) := do
  let subtrees ←
    if subtrees.firstSubtree = none then
      [0, 1, 2].foldlM registerNullContext subtrees
    else some subtrees
  loadSubtree (subtrees.fresh + 2) subtrees newSub

/-- `netsnmp_subtree_unload`, less the invalidation of the cache -/
def subtreeUnload (subtrees : ContextSubtrees) (sub : Addr) (prev : Option Addr) :
    Option ContextSubtrees := do
  let cell ← subtrees.heap sub
  match prev with
  | some prev => do
      let prevCell ← subtrees.heap prev
      some { subtrees with heap := subtrees.heap.put prev { prevCell with
        children := cell.children } }
  | none => do
      -- the neighbours are linked with the next child, or with each other
      let forward := if cell.children = none then cell.next else cell.children
      let backward := if cell.children = none then cell.prev else cell.children
      let heap ← eachCell (subtreeChangeNext forward) subtrees.fresh subtrees.heap cell.prev
      let heap ← eachCell (subtreeChangePrev backward) subtrees.fresh heap cell.next
      some { subtrees with heap, firstSubtree :=
        if cell.prev = none then forward else subtrees.firstSubtree }

/-- The search of a column for the registration of a name with a priority: it and the cell before
it. -/
def findChild (heap : SubtreeHeap) (name : Oid) (priority : Int) :
    Nat → (prev child : Option Addr) → Option (Option (Addr × Option Addr))
  | _, _, none => some none
  | 0, _, some _ => none
  | fuel + 1, prev, some child => do
      let cell ← heap child
      if cell.content.nameA = name ∧ (cell.content.priority : Int) = priority then
        some (some (child, prev))
      else findChild heap name priority fuel (some child) cell.children

/-- The loop of `unregister_mib_context` over the subtrees behind the first one, which a split may
have made of the registration. -/
def unloadFollowing (name : Oid) (priority : Int) :
    Nat → ContextSubtrees → Option Addr → Option ContextSubtrees
  | _, subtrees, none => some subtrees
  | 0, _, some _ => none
  | fuel + 1, subtrees, some list => do
      let cell ← subtrees.heap list
      let found ← findChild subtrees.heap name priority subtrees.fresh none (some list)
      match found with
      | none => some subtrees
      | some (child, prev) => do
          let subtrees ← subtrees.subtreeUnload child prev
          unloadFollowing name priority fuel (subtrees.subtreeFree child) cell.next

/-- The subtree and the registration which a pass of `unregister_mib_context` removes first; the
outer `none` is undefined behaviour, the inner one `MIB_NO_SUCH_REGISTRATION`. -/
def findRegistered (subtrees : ContextSubtrees) (name : Oid) (priority : Int) :
    Option (Option (Addr × Option Addr)) := do
  let list ← subtrees.subtreeFind name
  match list with
  | none => some none
  | some list => findChild subtrees.heap name priority subtrees.fresh none (some list)

/-- A pass of `unregister_mib_context` that finds a registration: what is left, and the cell that
is not yet released. -/
def unloadRegistered (subtrees : ContextSubtrees) (name : Oid) (priority : Int) (child : Addr)
    (prev : Option Addr) : Option ContextSubtrees := do
  let subtrees ← subtrees.subtreeUnload child prev
  let cell ← subtrees.heap child
  unloadFollowing name priority subtrees.fresh subtrees cell.next

end ContextSubtrees

def subtreeDefaultCacheSize : Nat := 8

def subtreeMaxCacheSize : Nat := 32

structure LookupCache where
  next : Option Addr
  previous : Option Addr
  deriving DecidableEq, Repr

structure LookupCacheContext where
  thecachecount : Nat
  currentpos : Nat
  cache : Nat → LookupCache

/-- The lists of all contexts, their caches and the size of a cache.  The lists of two contexts have
no cells in common, so that each has a heap of its own. -/
structure Registry where
  lookupCacheSize : Nat
  subtrees : List Byte → ContextSubtrees
  contextcache : List Byte → LookupCacheContext

namespace Registry

open ContextSubtrees

def empty : Registry where
  lookupCacheSize := 0
  subtrees := fun _ => ⟨none, fun _ => none, 0⟩
  contextcache := fun _ => ⟨0, 0, fun _ => ⟨none, none⟩⟩

/-- `netsnmp_set_lookup_cache_size` -/
def setLookupCacheSize (registry : Registry) (newsize : Int) : Registry :=
  { registry with lookupCacheSize :=
      if newsize < 0 then subtreeDefaultCacheSize
      else if newsize < subtreeMaxCacheSize then newsize.toNat
      else subtreeMaxCacheSize }

def withSubtrees (registry : Registry) (context : List Byte) (subtrees : ContextSubtrees) :
    Registry :=
  { registry with subtrees := Function.update registry.subtrees context subtrees }

def withCache (registry : Registry) (context : List Byte) (cache : LookupCacheContext) : Registry :=
  { registry with contextcache := Function.update registry.contextcache context cache }

def invalidateLookupCache (registry : Registry) (context : List Byte) : Registry :=
  registry.withCache context
    { registry.contextcache context with thecachecount := 0, currentpos := 0 }

def lookupCacheAdd (registry : Registry) (context : List Byte) (entry : LookupCache) : Registry :=
  let cptr := registry.contextcache context
  registry.withCache context
    { thecachecount := if cptr.thecachecount < registry.lookupCacheSize then cptr.thecachecount + 1
        else cptr.thecachecount
      currentpos := if registry.lookupCacheSize ≤ cptr.currentpos + 1 then 0
        else cptr.currentpos + 1
      cache := Function.update cptr.cache cptr.currentpos entry }

def lookupCacheReplace (registry : Registry) (context : List Byte) (i : Nat) (entry : LookupCache) :
    Registry :=
  let cptr := registry.contextcache context
  registry.withCache context { cptr with cache := Function.update cptr.cache i entry }

/-- The loop of `lookup_cache_find` over the first entries: the place of the last one with a name
that is not behind the given one, and the result of its comparison. -/
def lookupCacheFindLoop (heap : SubtreeHeap) (cache : Nat → LookupCache) (name : Oid) :
    Nat → Option (Option (Nat × Int))
  | 0 => some none
  | i + 1 => do
      let found ← lookupCacheFindLoop heap cache name i
      let previous ← (cache i).previous
      let cell ← heap previous
      let cmp := snmpOidCompare name cell.content.startA
      some (if 0 ≤ cmp then some (i, cmp) else found)

def lookupCacheFind (registry : Registry) (context : List Byte) (name : Oid) :
    Option (Option (Nat × Int)) :=
  let cptr := registry.contextcache context
  lookupCacheFindLoop (registry.subtrees context).heap cptr.cache name
    (min cptr.thecachecount registry.lookupCacheSize)

/-- `netsnmp_subtree_find_prev` -/
def subtreeFindPrev (registry : Registry) (name : Oid) (subtree : Option Addr)
    (context : List Byte) : Option (Option Addr × Registry) := do
  let subtrees := registry.subtrees context
  let found ←
    if subtree = none ∧ registry.lookupCacheSize ≠ 0 then registry.lookupCacheFind context name
    else some none
  let entry := match found with
    | some (i, _) => (registry.contextcache context).cache i
    | none => ⟨none, none⟩
  let myptr := (subtree.or entry.next).or subtrees.firstSubtree
  let (previous, stop) ← findPrevLoop subtrees.heap name subtrees.fresh entry.previous myptr 0
  let cmp : Int := match found with
    | some (_, cmp) => cmp
    | none => 1
  if stop ≠ none ∧ registry.lookupCacheSize ≠ 0 ∧ previous ≠ none ∧ cmp ≠ 0 then
    match found with
    | some (i, _) => some (previous, registry.lookupCacheReplace context i ⟨stop, previous⟩)
    | none => some (previous, registry.lookupCacheAdd context ⟨stop, previous⟩)
  else some (previous, registry)

/-- `netsnmp_subtree_find_next` -/
def subtreeFindNext (registry : Registry) (name : Oid) (subtree : Option Addr)
    (context : List Byte) : Option (Option Addr × Registry) := do
  let (myptr, registry) ← registry.subtreeFindPrev name subtree context
  let subtrees := registry.subtrees context
  match myptr, subtree with
  | none, some subtree => do
      let cell ← subtrees.heap subtree
      some (if snmpOidCompare name cell.content.startA < 0 then some subtree else none, registry)
  | myptr, _ => do
      let next ← subtrees.nextOfPrev myptr
      some (next, registry)

/-- `netsnmp_subtree_find` -/
def subtreeFind (registry : Registry) (name : Oid) (subtree : Option Addr) (context : List Byte) :
    Option (Option Addr × Registry) := do
  let (myptr, registry) ← registry.subtreeFindPrev name subtree context
  let found ← (registry.subtrees context).coveringOfPrev name myptr
  some (found, registry)

/-- What a call returns: its result, the array of the name, which it edits, and the registry. -/
structure Returned where
  result : Int
  name : Oid
  registry : Registry

/-- The loop of `unregister_mib_context`, with `orig_subid_val`, or without it where the call is not
for a range. -/
def unregisterLoop (priority : Int) (rangeSubid : Int) (rangeUbound : Nat) (context : List Byte)
    (origSubidVal : Option Int) : Nat → Registry → Oid → Option Returned
  | 0, _, _ => none
  | fuel + 1, registry, name => do
      let subtrees := registry.subtrees context
      let found ← subtrees.findRegistered name priority
      match found with
      | none => some ⟨mibNoSuchRegistration, name, registry⟩
      | some (myptr, prev) => do
          let subtrees ← subtrees.unloadRegistered name priority myptr prev
          let registry := (registry.withSubtrees context subtrees).invalidateLookupCache context
          let done := registry.withSubtrees context (subtrees.subtreeFree myptr)
          match origSubidVal with
          | none => some ⟨mibUnregisteredOk, name, done⟩
          | some origSubidVal => do
              let subid ← name[(rangeSubid - 1).toNat]?
              let subid := (subid + 1) % 2 ^ 64
              if toSizeT (origSubidVal + rangeUbound) ≤ subid then
                let name ← setSubid name rangeSubid (toSizeT origSubidVal)
                some ⟨mibUnregisteredOk, name, done⟩
              else do
                let name ← setSubid name rangeSubid subid
                unregisterLoop priority rangeSubid rangeUbound context origSubidVal fuel registry
                  name

def unregisterMibContext (registry : Registry) (name : Oid) (priority : Int) (rangeSubid : Int)
    (rangeUbound : Nat) (context : List Byte) : Option Returned := do
  let oldLookupCacheVal := registry.lookupCacheSize
  let origSubidVal :=
    if 0 < rangeSubid ∧ rangeSubid ≤ name.length then
      -- `-1` says that there is no range
      (name[(rangeSubid - 1).toNat]?.map fun subid : Nat => toCInt subid).filter (· ≠ -1)
    else none
  let returned ← unregisterLoop priority rangeSubid rangeUbound context origSubidVal
    ((registry.subtrees context).fresh + 1) (registry.setLookupCacheSize 0) name
  if returned.result = mibUnregisteredOk then
    some { returned with registry := returned.registry.setLookupCacheSize oldLookupCacheVal }
  else some returned

/-- The cell for a row of a range: a copy of the first one with the sub-identifier `i`. -/
def rowCell (cell : ColumnCell Subtree) (mibloc : Oid) (rangeSubid : Int) (i : Int) :
    Option (ColumnCell Subtree) := do
  let nameA ← setSubid cell.content.nameA rangeSubid (toSizeT i)
  let startA ← setSubid cell.content.startA rangeSubid (toSizeT i)
  let endA ← setSubid cell.content.endA rangeSubid
    (if rangeSubid = toCInt mibloc.length then (toSizeT i + 1) % 2 ^ 64 else toSizeT i)
  let rootoid ← setSubid cell.content.reginfo.rootoid rangeSubid (toSizeT i)
  some { cell with content := { cell.content with
    nameA, startA, endA, reginfo := { cell.content.reginfo with rootoid } } }

/-- The loop of `netsnmp_register_mib` over the rows of a range behind the first one, from `i`
on. -/
def registerRows (subtree : Addr) (mibloc : Oid) (priority : Int) (rangeSubid : Int)
    (rangeUbound : Nat) (context : List Byte) : Nat → Int → Registry → Option Returned
  -- `i++` overflows behind the largest `int`
  | 0, i, registry => if i = 2 ^ 31 then none else some ⟨mibRegisteredOk, mibloc, registry⟩
  | rows + 1, i, registry => do
      let subtrees := registry.subtrees context
      let cell ← subtrees.heap subtree
      let sub2 := subtrees.fresh
      let subCell ← rowCell cell mibloc rangeSubid i
      let (res, subtrees) ← (subtrees.alloc subCell).subtreeLoad sub2
      let registry := registry.withSubtrees context subtrees
      if res ≠ mibRegisteredOk then do
        let returned ← registry.unregisterMibContext mibloc priority rangeSubid rangeUbound context
        let subtrees ← (returned.registry.subtrees context).removeSubtree sub2
        some ⟨res, returned.name,
          returned.registry.withSubtrees context (subtrees.subtreeFree sub2)⟩
      else registerRows subtree mibloc priority rangeSubid rangeUbound context rows (i + 1) registry

/-- `netsnmp_register_mib` -/
def registerMib (registry : Registry) (vars : Option (List RegistryVariable)) (mibloc : Oid)
    (priority : Int) (rangeSubid : Int) (rangeUbound : Nat) (context : List Byte)
    (reginfo : HandlerRegistration) : Option Returned := do
  guard (mibloc ≠ [])
  let oldLookupCacheVal := registry.lookupCacheSize
  let subtrees := registry.subtrees context
  let subtree := subtrees.fresh
  let registry := registry.setLookupCacheSize 0
  let (res, subtrees) ←
    (subtrees.alloc (registeredCell vars mibloc priority reginfo)).subtreeLoad subtree
  let returned ←
    if res = mibRegisteredOk ∧ rangeSubid ≠ 0 then do
      let subid ← if 1 ≤ rangeSubid then mibloc[(rangeSubid - 1).toNat]? else none
      let first := toCInt (subid + 1 : Nat)
      let last := toCInt rangeUbound
      registerRows subtree mibloc priority rangeSubid rangeUbound context
        (last + 1 - first).toNat first (registry.withSubtrees context subtrees)
    else if res = mibRegisteredOk then
      some ⟨res, mibloc, registry.withSubtrees context subtrees⟩
    else some ⟨res, mibloc, registry.withSubtrees context (subtrees.subtreeFree subtree)⟩
  some { returned with registry :=
    (returned.registry.setLookupCacheSize oldLookupCacheVal).invalidateLookupCache context }

end Registry

end NetSnmp
