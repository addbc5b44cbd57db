import NetSnmp.Registry.Register

/-!
# Failed unregistration

Runs of the registry, and what a failed `unregister_mib_context` leaves behind: it
has no effect just if the first registration is missing and the lookup cache was off.
-/

namespace NetSnmp

inductive RegistryCall where
  | registerMib (vars : Option (List RegistryVariable)) (mibloc : Oid) (priority : Int)
      (rangeSubid : Int) (rangeUbound : Nat) (context : List Byte) (reginfo : HandlerRegistration)
  | unregisterMib (name : Oid) (priority : Int) (rangeSubid : Int) (rangeUbound : Nat)
      (context : List Byte)
  | findPrev (name : Oid) (subtree : Option Addr) (context : List Byte)
  | setLookupCacheSize (newsize : Int)

namespace Registry

open ContextSubtrees

def call (registry : Registry) : RegistryCall → Option Registry
  | .registerMib vars mibloc priority rangeSubid rangeUbound context reginfo =>
      (registry.registerMib vars mibloc priority rangeSubid rangeUbound context reginfo).map
        Returned.registry
  | .unregisterMib name priority rangeSubid rangeUbound context =>
      (registry.unregisterMibContext name priority rangeSubid rangeUbound context).map
        Returned.registry
  | .findPrev name subtree context =>
      (registry.subtreeFindPrev name subtree context).map Prod.snd
  | .setLookupCacheSize newsize => some (registry.setLookupCacheSize newsize)

def Reachable (registry : Registry) : Prop :=
  ∃ calls : List RegistryCall, calls.foldlM call empty = some registry

/-- What a failed call must not change: the lists, the array of the name and the size of the
cache. -/
def Unchanged (registry : Registry) (name : Oid) (returned : Returned) : Prop :=
  returned.registry.subtrees = registry.subtrees ∧ returned.name = name ∧
    returned.registry.lookupCacheSize = registry.lookupCacheSize

variable {registry : Registry} {name : Oid} {priority rangeSubid origSubidVal : Int}
  {rangeUbound fuel : Nat} {context : List Byte} {returned : Returned}

theorem setSubid_getElem? {value : Nat} {name' : Oid}
    (set : setSubid name rangeSubid value = some name') :
    name'[(rangeSubid - 1).toNat]? = some value := by
  rw [setSubid] at set
  split at set
  · cases set
    apply List.getElem?_set_self
    omega
  · cases set

theorem unregisterLoop_name {subid first : Nat}
    (subid_eq : name[(rangeSubid - 1).toNat]? = some subid) (larger : first < subid)
    (before : subid < toSizeT (origSubidVal + rangeUbound))
    (returns : unregisterLoop priority rangeSubid rangeUbound context (some origSubidVal) fuel
      registry name = some returned)
    (failed : returned.result ≠ mibUnregisteredOk) :
    ∃ last, returned.name[(rangeSubid - 1).toNat]? = some last ∧ first < last := by
  induction fuel generalizing registry name subid with
  | zero => exact nomatch returns
  | succ fuel ih =>
      simp only [unregisterLoop, Option.bind_eq_bind, Option.bind_eq_some_iff] at returns
      rcases returns with ⟨found, -, returns⟩
      cases found with
      | none =>
          cases returns
          exact ⟨subid, subid_eq, larger⟩
      | some found =>
          rcases Option.bind_eq_some_iff.mp returns with ⟨subtrees, -, returns⟩
          have next_eq : (subid + 1) % 2 ^ 64 = subid + 1 := by
            have small := toSizeT_lt (origSubidVal + rangeUbound)
            exact Nat.mod_eq_of_lt (by omega)
          simp only [subid_eq, Option.bind_some, next_eq] at returns
          split at returns
          · rcases Option.bind_eq_some_iff.mp returns with ⟨_, -, returns⟩
            cases returns
            exact absurd rfl failed
          · rename_i continues
            rcases Option.bind_eq_some_iff.mp returns with ⟨name', set, returns⟩
            exact ih (setSubid_getElem? set) (by omega) (by omega) returns

theorem unregisterLoop_failed_iff {orig : Option Int}
    (isOid : ∀ subid ∈ name, subid < 2 ^ 64)
    (orig_eq : ∀ origSubidVal ∈ orig, origSubidVal ≠ -1 ∧
      ∃ subid, name[(rangeSubid - 1).toNat]? = some subid ∧ origSubidVal = toCInt subid)
    (returns : unregisterLoop priority rangeSubid rangeUbound context orig (fuel + 1)
      registry name = some returned)
    (failed : returned.result ≠ mibUnregisteredOk) :
    (returned.registry.subtrees = registry.subtrees ∧ returned.name = name) ↔
      (registry.subtrees context).findRegistered name priority = some none := by
  simp only [unregisterLoop, Option.bind_eq_bind, Option.bind_eq_some_iff] at returns
  rcases returns with ⟨found, found_eq, returns⟩
  cases found with
  | none =>
      cases returns
      exact iff_of_true ⟨rfl, rfl⟩ found_eq
  | some found =>
      rcases Option.bind_eq_some_iff.mp returns with ⟨subtrees, -, returns⟩
      refine iff_of_false ?_ (by simp [found_eq])
      rintro ⟨-, same⟩
      cases orig with
      | none =>
          cases returns
          exact failed rfl
      | some origSubidVal =>
          rcases orig_eq _ rfl with ⟨ranged, subid, subid_eq, rfl⟩
          have small : subid + 1 < 2 ^ 64 := by
            have bound := isOid subid (List.mem_of_getElem? subid_eq)
            by_contra large
            obtain rfl : subid = 2 ^ 64 - 1 := by omega
            exact ranged rfl
          simp only [subid_eq, Option.bind_some, Nat.mod_eq_of_lt small] at returns
          split at returns
          · rcases Option.bind_eq_some_iff.mp returns with ⟨_, -, returns⟩
            cases returns
            exact failed rfl
          · rename_i continues
            rcases Option.bind_eq_some_iff.mp returns with ⟨name', set, returns⟩
            rcases unregisterLoop_name (setSubid_getElem? set) (Nat.lt_succ_self subid) (by omega)
              returns failed with ⟨last, last_eq, larger⟩
            rw [same, subid_eq] at last_eq
            cases last_eq
            exact absurd larger (lt_irrefl _)

theorem unregisterLoop_lookupCacheSize {orig : Option Int}
    (returns : unregisterLoop priority rangeSubid rangeUbound context orig fuel registry name =
      some returned) : returned.registry.lookupCacheSize = registry.lookupCacheSize := by
  induction fuel generalizing registry name with
  | zero => exact nomatch returns
  | succ fuel ih =>
      simp only [unregisterLoop, Option.bind_eq_bind, Option.bind_eq_some_iff] at returns
      rcases returns with ⟨found, -, returns⟩
      cases found with
      | none =>
          cases returns
          rfl
      | some found =>
          rcases Option.bind_eq_some_iff.mp returns with ⟨subtrees, -, returns⟩
          cases orig with
          | none =>
              cases returns
              rfl
          | some origSubidVal =>
              rcases Option.bind_eq_some_iff.mp returns with ⟨subid, -, returns⟩
              split at returns
              · rcases Option.bind_eq_some_iff.mp returns with ⟨_, -, returns⟩
                cases returns
                rfl
              · rcases Option.bind_eq_some_iff.mp returns with ⟨_, -, returns⟩
                have same := ih returns
                exact same

/-- A failed unregistration leaves everything as it was just if the lookup cache was off and the
registration of the given name itself is missing. -/
theorem unregisterMibContext_unchanged_iff (isOid : ∀ subid ∈ name, subid < 2 ^ 64)
    (returns : registry.unregisterMibContext name priority rangeSubid rangeUbound context =
      some returned) (failed : returned.result ≠ mibUnregisteredOk) :
    Unchanged registry name returned ↔
      registry.lookupCacheSize = 0 ∧
        (registry.subtrees context).findRegistered name priority = some none := by
  rcases Option.bind_eq_some_iff.mp returns with ⟨loopReturned, loopReturns, returns⟩
  split at returns
  · rename_i succeeded
    cases returns
    exact absurd succeeded failed
  · cases returns
    have size_eq : returned.registry.lookupCacheSize = 0 :=
      unregisterLoop_lookupCacheSize loopReturns
    have same_iff := unregisterLoop_failed_iff isOid ?_ loopReturns failed
    · have subtrees_eq : (registry.setLookupCacheSize 0).subtrees = registry.subtrees := rfl
      rw [subtrees_eq] at same_iff
      rw [Unchanged, size_eq, ← and_assoc, same_iff, and_comm, eq_comm]
    · intro origSubidVal mem
      split at mem
      · rcases Option.filter_eq_some_iff.mp mem with ⟨mapped, ranged⟩
        rcases Option.map_eq_some_iff.mp mapped with ⟨subid, subid_eq, rfl⟩
        exact ⟨of_decide_eq_true ranged, subid, subid_eq, rfl⟩
      · cases mem

def nestedAgent : List RegistryCall :=
  [.registerMib none [1, 3] 127 0 0 [] ⟨[], [1, 3]⟩,
    .registerMib none [1, 3, 6] 127 0 0 [] ⟨[], [1, 3, 6]⟩]

theorem unregisterMibContext_unchanged_nested : ∃ registry returned,
    nestedAgent.foldlM call empty = some registry ∧
      registry.unregisterMibContext [1, 3, 5] 127 0 0 [] = some returned ∧
        Unchanged registry [1, 3, 5] returned := by
  have runs : (nestedAgent.foldlM call empty).map (fun registry => (registry.lookupCacheSize,
      ((registry.subtrees []).findRegistered [1, 3, 5] 127).map Option.isNone,
      (registry.unregisterMibContext [1, 3, 5] 127 0 0 []).map Returned.result)) =
      some (0, some true, some mibNoSuchRegistration) := by
    decide +kernel
  rcases Option.map_eq_some_iff.mp runs with ⟨registry, reached, all⟩
  rcases Prod.mk.inj all with ⟨size_eq, both⟩
  rcases Prod.mk.inj both with ⟨absent, fails⟩
  rcases Option.map_eq_some_iff.mp absent with ⟨found, found_eq, isNone⟩
  rcases Option.map_eq_some_iff.mp fails with ⟨returned, returns, result_eq⟩
  refine ⟨registry, returned, reached, returns, ?_⟩
  refine (unregisterMibContext_unchanged_iff (by decide) returns ?_).mpr ⟨size_eq, ?_⟩
  · rw [result_eq]
    decide
  · rw [found_eq, Option.isNone_iff_eq_none.mp isNone]

def cachedAgent : List RegistryCall :=
  [.registerMib none [1, 3] 127 0 0 [] ⟨[], [1, 3]⟩, .setLookupCacheSize (-1)]

theorem not_unregisterMibContext_unchanged :
    ¬ ∀ registry, Reachable registry →
      ∀ (name : Oid) (priority rangeSubid : Int) (rangeUbound : Nat) (context : List Byte)
        (returned : Returned),
      registry.unregisterMibContext name priority rangeSubid rangeUbound context = some returned →
      returned.result ≠ mibUnregisteredOk → Unchanged registry name returned := by
  intro alwaysUnchanged
  have runs : (cachedAgent.foldlM call empty).map (fun registry => (registry.lookupCacheSize,
      (registry.unregisterMibContext [2, 7] 127 0 0 []).map Returned.result)) =
      some (8, some mibNoSuchRegistration) := by
    decide +kernel
  rcases Option.map_eq_some_iff.mp runs with ⟨registry, reachable, both⟩
  rcases Prod.mk.inj both with ⟨size_eq, fails⟩
  rcases Option.map_eq_some_iff.mp fails with ⟨returned, returns, result_eq⟩
  have failed : returned.result ≠ mibUnregisteredOk := by
    rw [result_eq]
    decide
  have unchanged := alwaysUnchanged registry ⟨_, reachable⟩ _ _ _ _ _ returned returns failed
  have off := ((unregisterMibContext_unchanged_iff (by decide) returns failed).mp unchanged).1
  rw [size_eq] at off
  cases off

end Registry

end NetSnmp
