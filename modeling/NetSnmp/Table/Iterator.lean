import Mathlib
import NetSnmp.Fuel
import NetSnmp.Index.RoundTrip
import NetSnmp.Table.Container

/-!
# Tables that are iterated over

`netsnmp_table_iterator_helper_handler` for GETNEXT requests: the rows of a table come one after
the other, in any order, and each of them is offered to all requests. A data context is a value
here, that of its row.
-/

namespace NetSnmp

variable {Ctx : Type}

/-- A row as `get_first_data_point` and `get_next_data_point` return it. -/
structure IteratorRow (Ctx : Type) where
  indexes : List VariableList
  context : Ctx

/-- A request with its `netsnmp_table_request_info` and its `ti_cache_info`. -/
structure IteratorRequest (Ctx : Type) where
  /-- `requestvb->name` -/
  name : Oid
  colnum : Nat
  processed : Bool := false
  /-- The name of `results`. -/
  results : Option Oid := none
  bestMatch : Oid := []
  dataContext : Option Ctx := none

/-- `netsnmp_check_getnext_reply`: the name of the new result, if it is better. It is not checked
whether the whole name could be built. -/
def netsnmpCheckGetnextReply (order : ByteOrder) (requestName coloid : Oid)
    (newvar : List VariableList) (outvar : Option Oid) : Option Oid :=
  let myname := builtOid order maxOidLen coloid newvar
  let better :=
    match outvar with
    | none => true
    | some name =>
        decide (snmpOidCompare (myname.drop coloid.length) (name.drop coloid.length) < 0)
  if better = true ∧ 0 < snmpOidCompare myname requestName then some myname else none

section

variable (order : ByteOrder) (rootoid : Oid)

def replyOf (row : IteratorRow Ctx) (request : IteratorRequest Ctx) : Option Oid :=
  if request.processed then none
  else
    netsnmpCheckGetnextReply order request.name (rootoid ++ [1, request.colnum]) row.indexes
      request.results

/-- `netsnmp_iterator_remember` -/
def remember (request : IteratorRequest Ctx) (name : Oid) (context : Ctx) : IteratorRequest Ctx :=
  { request with results := some name, bestMatch := name, dataContext := some context }

/-- A row is compared against each request. `request_count` counts down if the rows are sorted. -/
def compareRow (sorted : Bool) (row : IteratorRow Ctx) : (requestCount : Int) →
    List (IteratorRequest Ctx) → Int × List (IteratorRequest Ctx)
  | requestCount, [] => (requestCount, [])
  | requestCount, request :: requests =>
      let (requestCount, request) :=
        match replyOf order rootoid row request with
        | none => (requestCount, request)
        | some name =>
            (if sorted then requestCount - 1 else requestCount, remember request name row.context)
      let (requestCount, requests) := compareRow sorted row requestCount requests
      (requestCount, request :: requests)

def rowLoop (sorted : Bool) : List (IteratorRow Ctx) → (requestCount : Int) →
    List (IteratorRequest Ctx) → Int × List (IteratorRequest Ctx)
  | [], requestCount, requests => (requestCount, requests)
  | row :: rows, requestCount, requests =>
      let (requestCount, requests) := compareRow order rootoid sorted row requestCount requests
      if requestCount = 0 then (requestCount, requests)
      else rowLoop sorted rows requestCount requests

/-- A request without a result goes on to the next column; the second part is set if it does. -/
def nextColumnOf (tblInfo : TableRegistrationInfo) (request : IteratorRequest Ctx) :
    IteratorRequest Ctx × Bool :=
  if request.processed = true ∨ request.results ≠ none then (request, false)
  else
    let nc := tblInfo.nextColumn request.colnum
    if nc = 0 then
      ({ request with name := rootoid ++ [1, (request.colnum + 1) % 2 ^ 32], processed := true },
        false)
    else ({ request with colnum := nc }, true)

def passLoop (tblInfo : TableRegistrationInfo) (sorted : Bool) (rows : List (IteratorRow Ctx)) :
    (fuel : Nat) → (requestCount : Int) → List (IteratorRequest Ctx) →
    Option (List (IteratorRequest Ctx))
  | 0, _, _ => none
  | fuel + 1, requestCount, requests =>
      let (requestCount, requests) := rowLoop order rootoid sorted rows requestCount requests
      let moved := requests.map (nextColumnOf rootoid tblInfo)
      if moved.any Prod.snd then passLoop tblInfo sorted rows fuel requestCount (moved.map Prod.fst)
      else some (moved.map Prod.fst)

def analyse (tblInfo : TableRegistrationInfo) (request : IteratorRequest Ctx) :
    IteratorRequest Ctx :=
  let belowMin := (tblInfo.minColumn + 2 ^ 32 - 1) % 2 ^ 32
  if request.processed then request
  else if request.colnum < belowMin then { request with colnum := belowMin }
  else if tblInfo.maxColumn < request.colnum then { request with processed := true }
  else request

def finish (tblInfo : TableRegistrationInfo) (request : IteratorRequest Ctx) :
    IteratorRequest Ctx :=
  if request.processed then request
  else if request.bestMatch.length ≠ 0 then { request with name := request.bestMatch }
  else
    let nc := tblInfo.nextColumn request.colnum
    let nc := if nc = 0 then (tblInfo.maxColumn + 1) % 2 ^ 32 else nc
    { request with name := rootoid ++ [1, nc], processed := true }

/-- `netsnmp_table_iterator_helper_handler` in mode `MODE_GETNEXT`, up to the call of the handler
below. -/
def tableIteratorHelperHandler (tblInfo : TableRegistrationInfo) (sorted : Bool)
    (rows : List (IteratorRow Ctx)) (fuel : Nat) (requests : List (IteratorRequest Ctx)) :
    Option (List (IteratorRequest Ctx)) :=
  let requests := requests.map (analyse tblInfo)
  let requestCount := requests.countP fun request => !request.processed
  (passLoop order rootoid tblInfo sorted rows fuel requestCount requests).map
    (List.map (finish rootoid tblInfo))

end

variable {order : ByteOrder} {rootoid name : Oid} {sorted : Bool} {row : IteratorRow Ctx}
  {rows front : List (IteratorRow Ctx)} {request : IteratorRequest Ctx}
  {requests : List (IteratorRequest Ctx)} {requestCount : Int}

def IteratorRow.index (order : ByteOrder) (row : IteratorRow Ctx) : Oid :=
  segmentsOf order row.indexes

/-- The name of each instance of the row can be built. -/
def IteratorRow.Fits (order : ByteOrder) (rootoid : Oid) (row : IteratorRow Ctx) : Prop :=
  ∀ column, (buildOidNoalloc order maxOidLen (rootoid ++ [1, column]) row.indexes).isSome = true

def instanceOf (order : ByteOrder) (rootoid : Oid) (request : IteratorRequest Ctx)
    (row : IteratorRow Ctx) : Oid :=
  instanceName rootoid request.colnum (row.index order)

theorem IteratorRow.Fits.built (fits : row.Fits order rootoid) (column : Nat) :
    buildOidNoalloc order maxOidLen (rootoid ++ [1, column]) row.indexes =
      some (instanceName rootoid column (row.index order)) := by
  obtain ⟨oid, built⟩ := Option.isSome_iff_exists.mp (fits column)
  rw [built]
  rw [buildOidNoalloc] at built
  split at built
  · cases built
  · rw [appendSegments_eq built, instanceName, IteratorRow.index]
    simp

theorem IteratorRow.Fits.builtOid (fits : row.Fits order rootoid) (column : Nat) :
    NetSnmp.builtOid order maxOidLen (rootoid ++ [1, column]) row.indexes =
      instanceName rootoid column (row.index order) := by
  have built := fits.built column
  rw [buildOidNoalloc] at built
  split at built
  · cases built
  · exact builtOid_eq built

theorem replyOf_eq (fits : row.Fits order rootoid) (active : request.processed = false)
    (hasColumn : ∀ result, request.results = some result →
      ∃ index, result = instanceName rootoid request.colnum index) :
    replyOf order rootoid row request =
      if (∀ result, request.results = some result → instanceOf order rootoid request row < result) ∧
          request.name < instanceOf order rootoid request row then
        some (instanceOf order rootoid request row)
      else none := by
  have drop_index (index : Oid) : (instanceName rootoid request.colnum index).drop
      (rootoid ++ [1, request.colnum]).length = index := by
    have whole : instanceName rootoid request.colnum index =
        (rootoid ++ [1, request.colnum]) ++ index := by simp [instanceName]
    rw [whole, List.drop_left]
  have behind : 0 < snmpOidCompare (instanceName rootoid request.colnum (row.index order))
      request.name ↔ request.name < instanceName rootoid request.colnum (row.index order) :=
    lexCompare_pos_iff
  rw [replyOf, active, if_neg Bool.false_ne_true]
  cases results_eq : request.results with
  | none =>
      simp only [netsnmpCheckGetnextReply, fits.builtOid, behind]
      simp [instanceOf]
  | some result =>
      obtain ⟨index, rfl⟩ := hasColumn result results_eq
      have better : instanceOf order rootoid request row <
          instanceName rootoid request.colnum index ↔ row.index order < index := by
        simp [instanceOf, instanceName_lt_iff]
      simp only [netsnmpCheckGetnextReply, fits.builtOid, drop_index,
        snmpOidCompare_neg_iff, decide_eq_true_eq, Option.some.injEq, forall_eq', better, behind]
      rfl

def offerRow (order : ByteOrder) (rootoid : Oid) (request : IteratorRequest Ctx)
    (row : IteratorRow Ctx) : IteratorRequest Ctx :=
  match replyOf order rootoid row request with
  | none => request
  | some name => remember request name row.context

/-- What a request holds of the rows that were offered: the least instance behind its name, in its
column. -/
structure Holds (order : ByteOrder) (rootoid : Oid) (rows : List (IteratorRow Ctx))
    (request : IteratorRequest Ctx) : Prop where
  nothing : request.results = none → ∀ row ∈ rows,
    ¬request.name < instanceOf order rootoid request row
  least : ∀ result, request.results = some result → ∃ row ∈ rows,
    result = instanceOf order rootoid request row ∧ request.name < result ∧
      request.bestMatch = result ∧ request.dataContext = some row.context ∧
      ∀ other ∈ rows, request.name < instanceOf order rootoid request other →
        row.index order ≤ other.index order

theorem instanceOf_lt_iff {other : IteratorRow Ctx} :
    instanceOf order rootoid request row < instanceOf order rootoid request other ↔
      row.index order < other.index order := by
  simp [instanceOf, instanceName_lt_iff]

theorem replyOf_of_holds (holds : Holds order rootoid front request) (fits : row.Fits order rootoid)
    (active : request.processed = false) :
    replyOf order rootoid row request =
      if (∀ result, request.results = some result → instanceOf order rootoid request row < result) ∧
          request.name < instanceOf order rootoid request row then
        some (instanceOf order rootoid request row)
      else none := by
  apply replyOf_eq fits active
  intro result found
  obtain ⟨best, -, result_eq, -⟩ := holds.least result found
  exact ⟨best.index order, result_eq⟩

@[simp]
theorem offerRow_name : (offerRow order rootoid request row).name = request.name := by
  rw [offerRow]
  split <;> rfl

@[simp]
theorem offerRow_colnum : (offerRow order rootoid request row).colnum = request.colnum := by
  rw [offerRow]
  split <;> rfl

@[simp]
theorem offerRow_processed :
    (offerRow order rootoid request row).processed = request.processed := by
  rw [offerRow]
  split <;> rfl

theorem offerRow_of_processed (processed : request.processed = true) :
    offerRow order rootoid request row = request := by
  simp [offerRow, replyOf, processed]

theorem holds_offerRow (holds : Holds order rootoid front request) (fits : row.Fits order rootoid)
    (active : request.processed = false) :
    Holds order rootoid (front ++ [row]) (offerRow order rootoid request row) := by
  have reply := replyOf_of_holds holds fits active
  rw [offerRow, reply]
  by_cases better : (∀ result, request.results = some result →
      instanceOf order rootoid request row < result) ∧
        request.name < instanceOf order rootoid request row
  · rw [if_pos better]
    obtain ⟨less, behind⟩ := better
    refine ⟨fun absurdity => (by cases absurdity), ?_⟩
    intro result result_eq
    obtain rfl := Option.some.inj result_eq
    refine ⟨row, by simp, rfl, behind, rfl, rfl, ?_⟩
    intro other mem otherBehind
    rcases List.mem_append.mp mem with inFront | last
    · -- the row before was the least one, and the new one is less
      cases results_eq : request.results with
      | none => exact absurd otherBehind (holds.nothing results_eq other inFront)
      | some result =>
          obtain ⟨best, -, rfl, -, -, -, least⟩ := holds.least result results_eq
          have lt := instanceOf_lt_iff.mp (less _ results_eq)
          exact le_trans (le_of_lt lt) (least other inFront otherBehind)
    · rw [List.mem_singleton.mp last]
  · rw [if_neg better]
    refine ⟨?_, ?_⟩
    · intro results_eq other mem
      rcases List.mem_append.mp mem with inFront | last
      · exact holds.nothing results_eq other inFront
      · rw [List.mem_singleton.mp last]
        intro behind
        apply better
        refine ⟨?_, behind⟩
        intro result found
        rw [results_eq] at found
        cases found
    · intro result results_eq
      obtain ⟨best, mem, rfl, bestBehind, match_eq, context_eq, least⟩ :=
        holds.least result results_eq
      refine ⟨best, List.mem_append_left _ mem, rfl, bestBehind, match_eq, context_eq, ?_⟩
      intro other otherMem otherBehind
      rcases List.mem_append.mp otherMem with inFront | last
      · exact least other inFront otherBehind
      · obtain rfl := List.mem_singleton.mp last
        apply le_of_not_gt
        intro lt
        apply better
        refine ⟨?_, otherBehind⟩
        intro result found
        rw [results_eq] at found
        obtain rfl := Option.some.inj found
        exact instanceOf_lt_iff.mpr lt

theorem holds_foldl_offerRow (fits : ∀ row ∈ rows, row.Fits order rootoid)
    (holds : Holds order rootoid front request) (active : request.processed = false) :
    Holds order rootoid (front ++ rows) (rows.foldl (offerRow order rootoid) request) := by
  induction rows generalizing front request with
  | nil => simpa using holds
  | cons row rows ih =>
      obtain ⟨rowFits, fits⟩ := List.forall_mem_cons.mp fits
      have next := holds_offerRow holds rowFits active
      have all := ih fits next (by simpa using active)
      rwa [List.append_assoc, List.singleton_append] at all

theorem replyOf_eq_none_of_holds (holds : Holds order rootoid rows request)
    (fits : row.Fits order rootoid) (active : request.processed = false)
    (found : request.results ≠ none) (mem : row ∈ rows) :
    replyOf order rootoid row request = none := by
  rw [replyOf_of_holds holds fits active, if_neg]
  rintro ⟨less, behind⟩
  obtain ⟨result, results_eq⟩ := Option.ne_none_iff_exists'.mp found
  obtain ⟨best, -, rfl, -, -, -, least⟩ := holds.least result results_eq
  have lt := instanceOf_lt_iff.mp (less _ results_eq)
  exact absurd lt (not_lt_of_ge (least row mem behind))

theorem compareRow_snd (order : ByteOrder) (rootoid : Oid) (sorted : Bool) (row : IteratorRow Ctx)
    (requestCount : Int) (requests : List (IteratorRequest Ctx)) :
    (compareRow order rootoid sorted row requestCount requests).2 =
      requests.map fun request => offerRow order rootoid request row := by
  induction requests generalizing requestCount with
  | nil => rfl
  | cons request requests ih =>
      simp only [compareRow, ih, List.map_cons, List.cons.injEq, and_true]
      rw [offerRow]
      cases replyOf order rootoid row request <;> rfl

/-- A request that still counts: it is not processed, and for sorted rows has no result. -/
def counts (sorted : Bool) (request : IteratorRequest Ctx) : Bool :=
  !request.processed && !(sorted && request.results.isSome)

def Settled (order : ByteOrder) (rootoid : Oid) (rows : List (IteratorRow Ctx))
    (request : IteratorRequest Ctx) : Prop :=
  request.processed = false → request.results ≠ none →
    ∀ row ∈ rows, replyOf order rootoid row request = none

theorem foldl_offerRow_of_settled (settled : Settled order rootoid rows request)
    (resting : request.processed = true ∨ request.results ≠ none) :
    rows.foldl (offerRow order rootoid) request = request := by
  have unchanged : ∀ row ∈ rows, offerRow order rootoid request row = request := by
    intro row mem
    by_cases processed : request.processed = true
    · exact offerRow_of_processed processed
    · have active : request.processed = false := by simpa using processed
      have found : request.results ≠ none := by
        rcases resting with isProcessed | found
        · exact absurd isProcessed processed
        · exact found
      rw [offerRow, settled active found row mem]
  clear settled
  induction rows with
  | nil => rfl
  | cons row rows ih =>
      obtain ⟨first, rest⟩ := List.forall_mem_cons.mp unchanged
      rw [List.foldl_cons, first]
      exact ih rest

theorem countP_compareRow (settled : sorted = true →
      ∀ request ∈ requests, Settled order rootoid (row :: rows) request) (requestCount : Int) :
    ((compareRow order rootoid sorted row requestCount requests).2.countP (counts sorted) : Int) +
        requestCount =
      requests.countP (counts sorted) +
        (compareRow order rootoid sorted row requestCount requests).1 := by
  induction requests generalizing requestCount with
  | nil => simp [compareRow]
  | cons request requests ih =>
      have rest (requestCount : Int) := ih (fun isSorted other mem =>
        settled isSorted other (List.mem_cons_of_mem _ mem)) requestCount
      rw [compareRow]
      cases reply : replyOf order rootoid row request with
      | none =>
          have counted := rest requestCount
          simp only [List.countP_cons]
          omega
      | some name =>
          have active : request.processed = false := by
            by_contra processed
            have isProcessed : request.processed = true := by simpa using processed
            simp [replyOf, isProcessed] at reply
          cases sorted with
          | false =>
              have counted := rest requestCount
              simp only [List.countP_cons, counts, remember, Bool.false_and, Bool.not_false,
                Bool.and_true, Bool.false_eq_true, if_false] at counted ⊢
              omega
          | true =>
              have unanswered : request.results = none := by
                by_contra found
                have none := settled rfl request List.mem_cons_self active found row
                  List.mem_cons_self
                rw [none] at reply
                cases reply
              have counted := rest (requestCount - 1)
              simp only [List.countP_cons, counts, remember, active, unanswered, Bool.not_false,
                Bool.true_and, Bool.and_true, Option.isSome_some, Option.isSome_none, Bool.not_true,
                Bool.false_eq_true, if_false, if_true] at counted ⊢
              omega

theorem rowLoop_eq (fits : ∀ row ∈ rows, row.Fits order rootoid)
    (increasing : sorted = true → rows.Pairwise fun row other =>
      row.index order < other.index order)
    (holds : ∀ request ∈ requests, request.processed = false →
      ∃ front, Holds order rootoid front request)
    (settled : sorted = true → ∀ request ∈ requests, Settled order rootoid rows request)
    (counted : (requests.countP (counts sorted) : Int) ≤ requestCount) :
    (rowLoop order rootoid sorted rows requestCount requests).2 =
        requests.map (fun request => rows.foldl (offerRow order rootoid) request) ∧
      ((rowLoop order rootoid sorted rows requestCount requests).2.countP (counts sorted) : Int) ≤
        (rowLoop order rootoid sorted rows requestCount requests).1 := by
  induction rows generalizing requests requestCount with
  | nil => exact ⟨by simp [rowLoop], counted⟩
  | cons row rows ih =>
      obtain ⟨rowFits, fits⟩ := List.forall_mem_cons.mp fits
      have offered := compareRow_snd order rootoid sorted row requestCount requests
      have counting := countP_compareRow settled requestCount
      have countedNext : ((compareRow order rootoid sorted row requestCount requests).2.countP
          (counts sorted) : Int) ≤
            (compareRow order rootoid sorted row requestCount requests).1 := by
        omega
      have holdsNext : ∀ request ∈ (compareRow order rootoid sorted row requestCount requests).2,
          request.processed = false → ∃ front, Holds order rootoid front request := by
        intro request mem active
        rw [offered] at mem
        obtain ⟨before, beforeMem, rfl⟩ := List.mem_map.mp mem
        have beforeActive : before.processed = false := by simpa using active
        obtain ⟨front, beforeHolds⟩ := holds before beforeMem beforeActive
        exact ⟨_, holds_offerRow beforeHolds rowFits beforeActive⟩
      have settledNext : sorted = true →
          ∀ request ∈ (compareRow order rootoid sorted row requestCount requests).2,
            Settled order rootoid rows request := by
        intro isSorted request mem active found other otherMem
        obtain ⟨less, -⟩ := List.pairwise_cons.mp (increasing isSorted)
        rw [offered] at mem
        obtain ⟨before, beforeMem, rfl⟩ := List.mem_map.mp mem
        have beforeActive : before.processed = false := by simpa using active
        obtain ⟨front, beforeHolds⟩ := holds before beforeMem beforeActive
        have otherFits := fits other otherMem
        have nextHolds := holds_offerRow beforeHolds rowFits beforeActive
        by_cases known : before.results = none
        · -- the result is this row, and those behind it are greater
          rw [replyOf_of_holds nextHolds otherFits active, if_neg]
          rintro ⟨smaller, -⟩
          have result_eq : (offerRow order rootoid before row).results =
              some (instanceOf order rootoid before row) := by
            have reply := replyOf_of_holds beforeHolds rowFits beforeActive
            rw [offerRow] at found ⊢
            cases reply_eq : replyOf order rootoid row before with
            | none =>
                rw [reply_eq] at found
                exact absurd known found
            | some name =>
                rw [reply_eq] at reply
                split at reply
                · rw [Option.some.inj reply]
                  rfl
                · cases reply
          have lt := smaller _ result_eq
          have ofBefore : instanceOf order rootoid (offerRow order rootoid before row) other =
              instanceOf order rootoid before other := by simp [instanceOf]
          rw [ofBefore, instanceOf_lt_iff] at lt
          exact absurd lt (not_lt_of_gt (less other otherMem))
        · have unchanged : offerRow order rootoid before row = before := by
            rw [offerRow, settled isSorted before beforeMem beforeActive known row
              List.mem_cons_self]
          rw [unchanged]
          exact settled isSorted before beforeMem beforeActive known other
            (List.mem_cons_of_mem _ otherMem)
      have increasingNext : sorted = true →
          rows.Pairwise fun row other => row.index order < other.index order :=
        fun isSorted => (List.pairwise_cons.mp (increasing isSorted)).2
      rw [rowLoop]
      dsimp only
      split
      · rename_i zero
        refine ⟨?_, countedNext⟩
        -- no request counts any more, and so none changes
        have noneCounts : (compareRow order rootoid sorted row requestCount requests).2.countP
            (counts sorted) = 0 := by omega
        have resting : ∀ request ∈ (compareRow order rootoid sorted row requestCount requests).2,
            rows.foldl (offerRow order rootoid) request = request := by
          intro request mem
          have rests := List.countP_eq_zero.mp noneCounts request mem
          by_cases processed : request.processed = true
          · exact foldl_offerRow_of_settled
              (fun active => absurd active (by simp [processed])) (.inl processed)
          · have active : request.processed = false := by simpa using processed
            cases sorted with
            | false => simp [counts, active] at rests
            | true =>
                have found : request.results ≠ none := by
                  intro unanswered
                  simp [counts, active, unanswered] at rests
                exact foldl_offerRow_of_settled (settledNext rfl request mem) (.inr found)
        have same : (compareRow order rootoid sorted row requestCount requests).2.map
            (fun request => rows.foldl (offerRow order rootoid) request) =
            (compareRow order rootoid sorted row requestCount requests).2 :=
          (List.map_congr_left (g := fun request => request) resting).trans (List.map_id' _)
        rw [← same, offered, List.map_map]
        rfl
      · obtain ⟨all, countedAll⟩ := ih fits increasingNext holdsNext settledNext countedNext
        refine ⟨?_, countedAll⟩
        rw [all, offered, List.map_map]
        rfl

end NetSnmp
