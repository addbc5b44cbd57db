import NetSnmp.OidStash.GetNext
import NetSnmp.Snmp.VarValue

/-!
# The stash cache

`netsnmp_stash_cache_helper` answers the requests of a list from a stash of varbinds. Both of
its loops look up the name of the first request of the list, `requests`.
-/

namespace NetSnmp

open OidStash

/-- `val.string` is not `NULL`. -/
def isSet : Vardata → Bool
  | .unset _ => false
  | _ => true

/-- `val.string` is not `NULL`, and `val_len` is not 0. -/
def hasValue : Vardata → Bool
  | .string octets => !octets.isEmpty
  | .objid subids => !subids.isEmpty
  | .unset _ => false
  | _ => true

inductive StashMode where
  | get
  | getNext
  deriving DecidableEq, Repr

def cachedGet (cdata : Option VariableList) (requestvb : VariableList) : VariableList :=
  match cdata with
  | some cdata =>
      if hasValue cdata.val then snmpSetVarTypedValue requestvb cdata.type cdata.val
      else requestvb
  | none => requestvb

def cachedGetNext (cdata : Option VariableList) (requestvb : VariableList) : VariableList :=
  match cdata with
  | some cdata =>
      if isSet cdata.val ∧ cdata.name ≠ [] then
        { snmpSetVarTypedValue requestvb cdata.type cdata.val with name := cdata.name }
      else requestvb
  | none => requestvb

/-- The passes of a loop behind the first one, with the name of the first request. -/
def answerOthers (find : Oid → Option (Option VariableList))
    (answer : Option VariableList → VariableList → VariableList) (name : Oid)
    (requests : List VariableList) : Option (List VariableList) :=
  match requests with
  | [] => some []
  | request :: requests =>
      match find name with
      | none => none
      | some cdata => (answerOthers find answer name requests).map (answer cdata request :: ·)

/-- A loop over the requests; its first pass may change the name of the first one. -/
def stashCacheLoop (find : Oid → Option (Option VariableList))
    (answer : Option VariableList → VariableList → VariableList) (requests : List VariableList) :
    Option (List VariableList) :=
  match requests with
  | [] => some []
  | request :: requests =>
      match find request.name with
      | none => none
      | some cdata =>
          let request := answer cdata request
          (answerOthers find answer request.name requests).map (request :: ·)

/-- `netsnmp_stash_cache_helper`, with the varbinds of the requests. -/
def netsnmpStashCacheHelper (fuel : Nat) (mode : StashMode) (cache : OidStash VariableList)
    (requests : List VariableList) : Option (List VariableList) :=
  match mode with
  | .get => stashCacheLoop (fun name => some (cache.getData name)) cachedGet requests
  | .getNext =>
      stashCacheLoop
        (fun name => (cache.getnextNode fuel name).map fun cnode => cnode.bind cache.thedata)
        cachedGetNext requests

/-- A varbind with a value that `snmp_set_var_value` has stored. -/
structure StashedVarbind where
  var : VariableList
  nonEmpty : hasValue var.val = true
  stored : snmpSetVarValue var.type var.val = some var.val
  small : ∀ subid ∈ var.name, subid < 2 ^ 32

/-- The calls of `netsnmp_oid_stash_add_data`. -/
def stashOps (varbinds : List StashedVarbind) : List (StashOp VariableList) :=
  varbinds.map fun varbind => (varbind.var.name, some varbind.var)

def stashOf (varbinds : List StashedVarbind) : OidStash VariableList :=
  addAll empty (stashOps varbinds)

def storedVarbind (varbinds : List StashedVarbind) (name : Oid) : Option VariableList :=
  added (stashOps varbinds) name

def nextVarbind (varbinds : List StashedVarbind) (name : Oid) : Option VariableList :=
  ((sortedRows (stashOps varbinds)).find? (name < ·)).bind (storedVarbind varbinds)

variable {varbinds : List StashedVarbind} {name : Oid} {cdata request : VariableList}

theorem storedVarbind_eq_some (stored : storedVarbind varbinds name = some cdata) :
    cdata.name = name ∧ ∃ varbind ∈ varbinds, varbind.var = cdata := by
  unfold storedVarbind added at stored
  split at stored
  · nomatch stored
  · rcases List.exists_of_findSome?_eq_some stored with ⟨op, mem, found⟩
    rcases List.mem_map.mp mem with ⟨varbind, mem', rfl⟩
    split at found
    next here =>
      cases found
      exact ⟨here, varbind, mem', rfl⟩
    · nomatch found

theorem small_stashOps (varbinds : List StashedVarbind) :
    ∀ op ∈ stashOps varbinds, ∀ subid ∈ op.1, subid < 2 ^ 32 := by
  intro op mem
  rcases List.mem_map.mp mem with ⟨varbind, _, rfl⟩
  exact varbind.small

theorem isNext_find? (varbinds : List StashedVarbind) (name : Oid) :
    IsNext id (sortedRows (stashOps varbinds)) name
      ((sortedRows (stashOps varbinds)).find? (name < ·)) := by
  have sorted : SortedBy id (sortedRows (stashOps varbinds)) :=
    (Finset.sortedLT_sort _).pairwise.imp le_of_lt
  apply (isNext_find?_iff sorted (fun row _ => decide_eq_true_iff) ?_).mpr
  · intro row _
    exact Iff.rfl
  · intro row _ row' _ behind le
    exact lt_of_lt_of_le behind le

theorem nextVarbind_cases (varbinds : List StashedVarbind) (name : Oid) :
    ((sortedRows (stashOps varbinds)).find? (name < ·) = none ∧
        nextVarbind varbinds name = none) ∨
      ∃ cdata, (sortedRows (stashOps varbinds)).find? (name < ·) = some cdata.name ∧
        nextVarbind varbinds name = some cdata ∧
          storedVarbind varbinds cdata.name = some cdata ∧ name < cdata.name := by
  cases found : (sortedRows (stashOps varbinds)).find? (name < ·) with
  | none => exact .inl ⟨rfl, by rw [nextVarbind, found]; rfl⟩
  | some row =>
      have isNext := isNext_find? varbinds name
      rw [found] at isNext
      have data := mem_sortedRows.mp isNext.1.1
      rcases Option.isSome_iff_exists.mp data with ⟨cdata, stored⟩
      have named := (storedVarbind_eq_some stored).1
      subst named
      refine .inr ⟨cdata, rfl, ?_, stored, isNext.1.2⟩
      rw [nextVarbind, found]
      exact stored

def holdingValue (cdata : Option VariableList) (request : VariableList) : VariableList :=
  match cdata with
  | some cdata => { request with type := cdata.type, val := cdata.val }
  | none => request

def holdingVarbind (cdata : Option VariableList) (request : VariableList) : VariableList :=
  cdata.getD request

theorem cachedGet_stored (name : Oid) (request : VariableList) :
    cachedGet (storedVarbind varbinds name) request =
      holdingValue (storedVarbind varbinds name) request := by
  cases found : storedVarbind varbinds name with
  | none => rfl
  | some cdata =>
      rcases (storedVarbind_eq_some found).2 with ⟨varbind, _, rfl⟩
      rw [cachedGet, if_pos varbind.nonEmpty, snmpSetVarTypedValue, varbind.stored]
      rfl

theorem isSet_of_hasValue {val : Vardata} (some_octets : hasValue val = true) :
    isSet val = true := by
  cases val with
  | unset _ => exact some_octets
  | _ => rfl

theorem storedVarbind_nil (varbinds : List StashedVarbind) : storedVarbind varbinds [] = none := by
  rw [storedVarbind, added, if_pos rfl]

theorem cachedGetNext_stored (name : Oid) (request : VariableList) :
    cachedGetNext (storedVarbind varbinds name) request =
      holdingVarbind (storedVarbind varbinds name) request := by
  cases found : storedVarbind varbinds name with
  | none => rfl
  | some cdata =>
      rcases storedVarbind_eq_some found with ⟨named, varbind, _, rfl⟩
      have notRoot : varbind.var.name ≠ [] := by
        intro isRoot
        rw [← named, isRoot, storedVarbind_nil] at found
        nomatch found
      rw [cachedGetNext, if_pos ⟨isSet_of_hasValue varbind.nonEmpty, notRoot⟩,
        snmpSetVarTypedValue, varbind.stored]
      rfl

variable {find : Oid → Option (Option VariableList)}
  {answer : Option VariableList → VariableList → VariableList} {requests : List VariableList}

theorem answerOthers_eq {found : Option VariableList} (finds : find name = some found)
    (requests : List VariableList) :
    answerOthers find answer name requests = some (requests.map (answer found)) := by
  induction requests with
  | nil => rfl
  | cons request requests ih =>
      rw [answerOthers, finds, ih]
      rfl

theorem stashCacheLoop_eq {found found' : Option VariableList}
    (finds : find request.name = some found)
    (finds' : find (answer found request).name = some found') :
    stashCacheLoop find answer (request :: requests) =
      some (answer found request :: requests.map (answer found')) := by
  rw [stashCacheLoop, finds]
  simp only [answerOthers_eq finds', Option.map_some]

theorem getnextLoop_data {α : Type} {root : OidStash α} {fuel : Nat} {curnode node : Oid}
    {bigger : Option Nat} (returned : root.getnextLoop fuel curnode bigger = some (some node)) :
    (root.thedata node).isSome := by
  induction fuel generalizing curnode bigger with
  | zero => cases returned
  | succ fuel ih =>
      rw [getnextLoop] at returned
      split at returned
      · split at returned
        next data =>
          cases returned
          exact data
        · exact ih returned
      · split at returned
        · cases returned
        · exact ih returned

theorem getnextNode_data {α : Type} {root : OidStash α} {fuel : Nat} {lookup node : Oid}
    (returned : root.getnextNode fuel lookup = some (some node)) :
    (root.thedata node).isSome := by
  unfold getnextNode at returned
  split at returned
  · exact getnextLoop_data returned
  · nomatch returned

theorem thedata_stashOf (varbinds : List StashedVarbind) (name : Oid) :
    (stashOf varbinds).thedata name = storedVarbind varbinds name :=
  (holds_addAll (stashOps varbinds)).thedata_eq name

theorem getnextNode_stashOf {name : Oid} (small : ∀ subid ∈ name, subid < 2 ^ 32) :
    ∃ node, (∀ fuel, enoughPasses (stashOps varbinds) ≤ fuel →
        (stashOf varbinds).getnextNode fuel name = some node) ∧
      (TurnsRight (stashOps varbinds) name ↔
        node.bind (stashOf varbinds).thedata = nextVarbind varbinds name) ∧
      (node.isSome → (node.bind (stashOf varbinds).thedata).isSome) := by
  rcases getnextNode_spec (small_stashOps varbinds) small with ⟨node, returned, right⟩
  have data : node.isSome → (node.bind (stashOf varbinds).thedata).isSome := by
    intro isNode
    rcases Option.isSome_iff_exists.mp isNode with ⟨path, rfl⟩
    exact getnextNode_data (returned _ (le_refl _))
  refine ⟨node, returned, ?_, data⟩
  rw [← right]
  constructor
  · intro isNext
    have same : node = (sortedRows (stashOps varbinds)).find? (name < ·) := by
      apply leastFrom_unique
      · exact isNext_iff_leastFrom.mp isNext
      · exact isNext_iff_leastFrom.mp (isNext_find? varbinds name)
    rw [same, nextVarbind]
    exact congrArg _ (funext (thedata_stashOf varbinds))
  · intro same
    have isNext := isNext_find? varbinds name
    rcases nextVarbind_cases varbinds name with ⟨none, noNext⟩ | ⟨cdata, found, next, stored, _⟩
    · cases node with
      | none =>
          rw [none] at isNext
          exact isNext
      | some path =>
          rw [same, noNext] at data
          nomatch data rfl
    · rw [next] at same
      cases node with
      | none => nomatch same
      | some path =>
          have named := (storedVarbind_eq_some ((thedata_stashOf varbinds path).symm.trans same)).1
          subst named
          rw [found] at isNext
          exact isNext

/-- What a request holds if the cache answers it from its own name. -/
def ownAnswer (mode : StashMode) (varbinds : List StashedVarbind) (request : VariableList) :
    VariableList :=
  match mode with
  | .get => holdingValue (storedVarbind varbinds request.name) request
  | .getNext => holdingVarbind (nextVarbind varbinds request.name) request

/-- The other requests would get the same from the name that the first one has after its pass, and
the search for this one turns right. -/
def SharesAnswers (mode : StashMode) (varbinds : List StashedVarbind)
    (requests : List VariableList) : Prop :=
  match requests with
  | [] => True
  | first :: others =>
      match mode with
      | .get => ∀ request ∈ others,
          holdingValue (storedVarbind varbinds first.name) request =
            holdingValue (storedVarbind varbinds request.name) request
      | .getNext => TurnsRight (stashOps varbinds) first.name ∧ ∀ request ∈ others,
          holdingVarbind (nextVarbind varbinds (ownAnswer .getNext varbinds first).name) request =
            holdingVarbind (nextVarbind varbinds request.name) request

theorem settles_iff_eq {α : Type} {f : Nat → Option α} {result value : α}
    (returns : Settles f result) : Settles f value ↔ result = value := by
  constructor
  · exact returns.unique
  · rintro rfl
    exact returns

theorem helper_get (requests : List VariableList) :
    Settles (fun fuel => netsnmpStashCacheHelper fuel .get (stashOf varbinds) requests)
        (requests.map (ownAnswer .get varbinds)) ↔
      SharesAnswers .get varbinds requests := by
  cases requests with
  | nil => exact iff_of_true ⟨0, fun _ _ => rfl⟩ trivial
  | cons first others =>
      have finds (name : Oid) : some ((stashOf varbinds).getData name) =
          some (storedVarbind varbinds name) :=
        congrArg some ((holds_addAll (stashOps varbinds)).getData_eq name)
      have same : (cachedGet (storedVarbind varbinds first.name) first).name = first.name := by
        rw [cachedGet_stored]
        cases storedVarbind varbinds first.name <;> rfl
      have returns : Settles
          (fun fuel => netsnmpStashCacheHelper fuel .get (stashOf varbinds) (first :: others))
          (ownAnswer .get varbinds first ::
            others.map (holdingValue (storedVarbind varbinds first.name))) := by
        refine ⟨0, fun fuel _ => ?_⟩
        simp only [netsnmpStashCacheHelper]
        rw [stashCacheLoop_eq (finds first.name) (finds _), same, cachedGet_stored,
          funext (cachedGet_stored first.name)]
        rfl
      rw [settles_iff_eq returns, List.map_cons, List.cons_inj_right, List.map_inj_left]
      exact Iff.rfl

theorem turnsRight_of_holdingVarbind {node : Option Oid}
    (right : TurnsRight (stashOps varbinds) request.name ↔
      node.bind (stashOf varbinds).thedata = nextVarbind varbinds request.name)
    (data : node.isSome → (node.bind (stashOf varbinds).thedata).isSome)
    (same : holdingVarbind (node.bind (stashOf varbinds).thedata) request =
      ownAnswer .getNext varbinds request) :
    TurnsRight (stashOps varbinds) request.name := by
  rw [ownAnswer] at same
  rcases nextVarbind_cases varbinds request.name with ⟨-, noNext⟩ | ⟨cdata, -, next, -, behind⟩
  · cases node with
    | none => exact right.mpr noNext.symm
    | some path =>
        rcases Option.isSome_iff_exists.mp (data rfl) with ⟨cdata, found⟩
        rw [found, noNext] at same
        change cdata = request at same
        subst same
        change (stashOf varbinds).thedata path = some cdata at found
        rw [thedata_stashOf] at found
        -- a stored name is a path of the tree
        apply turnsRight_of_isPath
        apply isPath_of_added
        rw [(storedVarbind_eq_some found).1]
        exact Option.isSome_of_eq_some found
  · rw [next] at same
    cases node with
    | none =>
        change request = cdata at same
        rw [same] at behind
        exact absurd behind (lt_irrefl _)
    | some path =>
        rcases Option.isSome_iff_exists.mp (data rfl) with ⟨cdata', found⟩
        rw [found] at same
        change cdata' = cdata at same
        exact right.mpr (found.trans (by rw [same, next]))

theorem turnsRight_after (turns : TurnsRight (stashOps varbinds) request.name) :
    TurnsRight (stashOps varbinds) (ownAnswer .getNext varbinds request).name := by
  rw [ownAnswer]
  rcases nextVarbind_cases varbinds request.name with ⟨-, noNext⟩ | ⟨cdata, -, next, stored, -⟩
  · rw [noNext]
    exact turns
  · rw [next]
    apply turnsRight_of_isPath
    apply isPath_of_added
    exact Option.isSome_of_eq_some stored

theorem cachedGetNext_node (node : Option Oid) (request : VariableList) :
    cachedGetNext (node.bind (stashOf varbinds).thedata) request =
      holdingVarbind (node.bind (stashOf varbinds).thedata) request := by
  cases node with
  | none => rfl
  | some path =>
      rw [Option.bind_some, thedata_stashOf]
      exact cachedGetNext_stored path request

theorem small_holdingVarbind {node : Option Oid}
    (small : ∀ subid ∈ request.name, subid < 2 ^ 32) :
    ∀ subid ∈ (holdingVarbind (node.bind (stashOf varbinds).thedata) request).name,
      subid < 2 ^ 32 := by
  cases found : node.bind (stashOf varbinds).thedata with
  | none => exact small
  | some cdata =>
      rcases Option.bind_eq_some_iff.mp found with ⟨path, -, stored⟩
      rw [thedata_stashOf] at stored
      rcases (storedVarbind_eq_some stored).2 with ⟨varbind, _, rfl⟩
      exact varbind.small

theorem helper_getNext {requests : List VariableList}
    (small : ∀ request ∈ requests, ∀ subid ∈ request.name, subid < 2 ^ 32) :
    Settles (fun fuel => netsnmpStashCacheHelper fuel .getNext (stashOf varbinds) requests)
        (requests.map (ownAnswer .getNext varbinds)) ↔
      SharesAnswers .getNext varbinds requests := by
  cases requests with
  | nil => exact iff_of_true ⟨0, fun _ _ => rfl⟩ trivial
  | cons first others =>
      have smallFirst := small first List.mem_cons_self
      rcases @getnextNode_stashOf varbinds _ smallFirst with ⟨node, finds, right, data⟩
      rcases @getnextNode_stashOf varbinds _ (small_holdingVarbind smallFirst) with
        ⟨node', finds', right', -⟩
      have returns : Settles
          (fun fuel => netsnmpStashCacheHelper fuel .getNext (stashOf varbinds) (first :: others))
          (holdingVarbind (node.bind (stashOf varbinds).thedata) first ::
            others.map (holdingVarbind (node'.bind (stashOf varbinds).thedata))) := by
        refine ⟨enoughPasses (stashOps varbinds), fun fuel enough => ?_⟩
        have found : ((stashOf varbinds).getnextNode fuel first.name).map
            (fun cnode => cnode.bind (stashOf varbinds).thedata) =
              some (node.bind (stashOf varbinds).thedata) := by
          rw [finds fuel enough]
          rfl
        have found' : ((stashOf varbinds).getnextNode fuel
            (cachedGetNext (node.bind (stashOf varbinds).thedata) first).name).map
            (fun cnode => cnode.bind (stashOf varbinds).thedata) =
              some (node'.bind (stashOf varbinds).thedata) := by
          rw [cachedGetNext_node, finds' fuel enough]
          rfl
        simp only [netsnmpStashCacheHelper]
        rw [stashCacheLoop_eq found found', cachedGetNext_node, funext (cachedGetNext_node node')]
      rw [settles_iff_eq returns, List.map_cons, List.cons.injEq, List.map_inj_left]
      have others_eq (turns : TurnsRight (stashOps varbinds) first.name) :
          node'.bind (stashOf varbinds).thedata =
            nextVarbind varbinds (ownAnswer .getNext varbinds first).name := by
        have after := turnsRight_after turns
        rw [right.mp turns] at right'
        exact right'.mp after
      constructor
      · rintro ⟨head, tail⟩
        have turns := turnsRight_of_holdingVarbind right data head
        refine ⟨turns, ?_⟩
        rw [← others_eq turns]
        exact tail
      · rintro ⟨turns, tail⟩
        rw [← others_eq turns] at tail
        refine ⟨?_, tail⟩
        rw [right.mp turns]
        rfl

/-- The cache answers every request from its own name exactly if the others share the answers for
the name of the first one. -/
theorem netsnmpStashCacheHelper_answers_iff (mode : StashMode) (varbinds : List StashedVarbind)
    (requests : List VariableList)
    (small : ∀ request ∈ requests, ∀ subid ∈ request.name, subid < 2 ^ 32) :
    Settles (fun fuel => netsnmpStashCacheHelper fuel mode (stashOf varbinds) requests)
        (requests.map (ownAnswer mode varbinds)) ↔
      SharesAnswers mode varbinds requests := by
  cases mode with
  | get => exact helper_get requests
  | getNext => exact helper_getNext small

def storedFive : StashedVarbind where
  var := { name := [1, 1], type := asnInteger, val := .integer 5 }
  nonEmpty := rfl
  stored := rfl
  small := by decide

def nullRequest (name : Oid) : VariableList :=
  { name, type := asnNull, val := .unset 0 }

theorem netsnmpStashCacheHelper_answers_five :
    (∀ request ∈ [nullRequest [1, 1], nullRequest [1, 1]], ∀ subid ∈ request.name,
        subid < 2 ^ 32) ∧
      (Settles (fun fuel => netsnmpStashCacheHelper fuel .get (stashOf [storedFive])
          [nullRequest [1, 1], nullRequest [1, 1]])
        ([nullRequest [1, 1], nullRequest [1, 1]].map (ownAnswer .get [storedFive])) ↔
          SharesAnswers .get [storedFive] [nullRequest [1, 1], nullRequest [1, 1]]) := by
  have small : ∀ request ∈ [nullRequest [1, 1], nullRequest [1, 1]], ∀ subid ∈ request.name,
      subid < 2 ^ 32 := by decide
  exact ⟨small, netsnmpStashCacheHelper_answers_iff .get [storedFive] _ small⟩

/-- The second request gets the value of the entry of the first one. -/
theorem not_netsnmpStashCacheHelper_answers :
    ¬ ∀ (mode : StashMode) (varbinds : List StashedVarbind) (requests : List VariableList),
      (∀ request ∈ requests, ∀ subid ∈ request.name, subid < 2 ^ 32) →
        Settles (fun fuel => netsnmpStashCacheHelper fuel mode (stashOf varbinds) requests)
          (requests.map (ownAnswer mode varbinds)) := by
  intro answers
  have answer := answers .get [storedFive] [nullRequest [1, 1], nullRequest [1, 2]] (by decide)
  have shares := (helper_get _).mp answer (nullRequest [1, 2]) (List.mem_singleton_self _)
  revert shares
  decide +kernel

end NetSnmp
