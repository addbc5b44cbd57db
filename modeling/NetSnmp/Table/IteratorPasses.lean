import NetSnmp.Table.Iterator

/-!
# Passes of the table iterator

Requests that find nothing in a column go on to the next one, and the rows are passed again. Each
request gets the next name, in whatever order the rows come, unless the number of a column wraps
around and the passes do not end.
-/

namespace NetSnmp

variable {Ctx : Type} {order : ByteOrder} {tblInfo : TableRegistrationInfo} {rootoid name : Oid}
  {sorted : Bool} {rows : List (IteratorRow Ctx)} {request : IteratorRequest Ctx}
  {requests : List (IteratorRequest Ctx)} {requestCount : Int}

/-- A request as the table helper leaves it: the name that is asked for, and whether another handler
has processed it. -/
def decodedRequest (Ctx : Type) (order : ByteOrder) (tblInfo : TableRegistrationInfo)
    (rootoid : Oid)
    (asked : Oid × Bool) : IteratorRequest Ctx :=
  if asked.2 then { name := asked.1, colnum := 0, processed := true }
  else
    match tableHelperHandler order tblInfo rootoid asked.1 with
    | .processed => { name := asked.1, colnum := 0, processed := true }
    | .skipped => { name := asked.1, colnum := 0 }
    | .found name tblreq => { name := name, colnum := tblreq.colnum }

def HasNext (order : ByteOrder) (tblInfo : TableRegistrationInfo) (rootoid : Oid)
    (rows : List (IteratorRow Ctx)) (name : Oid) : Prop :=
  ∃ column row, tblInfo.Column column ∧ row ∈ rows ∧
    name < instanceName rootoid column (row.index order)

/-- A request that is searched for: its column is one of the table, and no instance of an earlier
column is behind the name. -/
structure Searches (order : ByteOrder) (tblInfo : TableRegistrationInfo) (rootoid : Oid)
    (rows : List (IteratorRow Ctx)) (name : Oid) (request : IteratorRequest Ctx) : Prop where
  isColumn : tblInfo.Column request.colnum
  same : ∀ column index, tblInfo.Column column →
    (request.name < instanceName rootoid column index ↔ name < instanceName rootoid column index)
  before : ∀ column, tblInfo.Column column → column < request.colnum → ∀ row ∈ rows,
    ¬name < instanceName rootoid column (row.index order)
  holds : request.results ≠ none → Holds order rootoid rows request

def Ends (order : ByteOrder) (tblInfo : TableRegistrationInfo) (rootoid : Oid)
    (rows : List (IteratorRow Ctx)) (name : Oid) : Prop :=
  tblInfo.validColumns = [] ∨ tblInfo.maxColumn + 1 < 2 ^ 32 ∨
    HasNext order tblInfo rootoid rows name

structure Stands (order : ByteOrder) (tblInfo : TableRegistrationInfo) (rootoid : Oid)
    (rows : List (IteratorRow Ctx)) (asked : Oid × Bool)
      (request : IteratorRequest Ctx) : Prop where
  processed : request.processed = true → asked.2 = false →
    ¬HasNext order tblInfo rootoid rows asked.1
  active : request.processed = false → asked.2 = false ∧ Ends order tblInfo rootoid rows asked.1 ∧
    Searches order tblInfo rootoid rows asked.1 request

structure PassOutcome (order : ByteOrder) (tblInfo : TableRegistrationInfo) (rootoid : Oid)
    (rows : List (IteratorRow Ctx)) (asked : Oid × Bool)
      (request : IteratorRequest Ctx) : Prop where
  processed : request.processed = true → asked.2 = false →
    ¬HasNext order tblInfo rootoid rows asked.1
  active : request.processed = false → asked.2 = false ∧ request.results ≠ none ∧
    Searches order tblInfo rootoid rows asked.1 request

theorem foldl_offerRow_keeps (order : ByteOrder) (rootoid : Oid) (rows : List (IteratorRow Ctx))
    (request : IteratorRequest Ctx) :
    (rows.foldl (offerRow order rootoid) request).name = request.name ∧
      (rows.foldl (offerRow order rootoid) request).colnum = request.colnum ∧
      (rows.foldl (offerRow order rootoid) request).processed = request.processed := by
  induction rows generalizing request with
  | nil => exact ⟨rfl, rfl, rfl⟩
  | cons row rows ih => simpa using ih (offerRow order rootoid request row)

theorem holds_nil (unanswered : request.results = none) : Holds order rootoid [] request := by
  refine ⟨fun _ row mem => (by cases mem), ?_⟩
  intro result found
  rw [unanswered] at found
  cases found

theorem Searches.settled (searches : Searches order tblInfo rootoid rows name request)
    (fits : ∀ row ∈ rows, row.Fits order rootoid) : Settled order rootoid rows request :=
  fun active found row mem =>
    replyOf_eq_none_of_holds (searches.holds found) (fits row mem) active found mem

theorem Searches.pass (searches : Searches order tblInfo rootoid rows name request)
    (fits : ∀ row ∈ rows, row.Fits order rootoid) (active : request.processed = false) :
    Searches order tblInfo rootoid rows name (rows.foldl (offerRow order rootoid) request) ∧
      Holds order rootoid rows (rows.foldl (offerRow order rootoid) request) := by
  obtain ⟨name_eq, colnum_eq, -⟩ := foldl_offerRow_keeps order rootoid rows request
  have holds : Holds order rootoid rows (rows.foldl (offerRow order rootoid) request) := by
    by_cases unanswered : request.results = none
    · exact holds_foldl_offerRow fits (holds_nil unanswered) active
    · rw [foldl_offerRow_of_settled (searches.settled fits) (.inr unanswered)]
      exact searches.holds unanswered
  refine ⟨⟨?_, ?_, ?_, fun _ => holds⟩, holds⟩
  · rw [colnum_eq]
    exact searches.isColumn
  · rw [name_eq]
    exact searches.same
  · rw [colnum_eq]
    exact searches.before

theorem Searches.nextColumnOf (searches : Searches order tblInfo rootoid rows name request)
    (holds : Holds order rootoid rows request) (active : request.processed = false)
    (ends : Ends order tblInfo rootoid rows name) :
    (request.results ≠ none ∧ nextColumnOf rootoid tblInfo request = (request, false)) ∨
    (request.results = none ∧ (nextColumnOf rootoid tblInfo request).2 = false ∧
      (nextColumnOf rootoid tblInfo request).1.processed = true ∧
      ¬HasNext order tblInfo rootoid rows name) ∨
    (request.results = none ∧ (nextColumnOf rootoid tblInfo request).2 = true ∧
      (nextColumnOf rootoid tblInfo request).1.processed = false ∧
      (nextColumnOf rootoid tblInfo request).1.results = none ∧
      request.colnum < (nextColumnOf rootoid tblInfo request).1.colnum ∧
      Searches order tblInfo rootoid rows name (nextColumnOf rootoid tblInfo request).1) := by
  by_cases unanswered : request.results = none
  · right
    -- no instance of the columns up to this one is behind the name
    have upTo : ∀ column, tblInfo.Column column → column ≤ request.colnum → ∀ row ∈ rows,
        ¬name < instanceName rootoid column (row.index order) := by
      intro column isColumn le row mem less
      rcases Nat.lt_or_eq_of_le le with lt | rfl
      · exact searches.before column isColumn lt row mem less
      · exact holds.nothing unanswered row mem ((searches.same _ _ isColumn).mpr less)
    have notLargest : tblInfo.validColumns = [] ∨ request.colnum + 1 < 2 ^ 32 := by
      have range := tblInfo.between _ searches.isColumn
      rcases ends with noColumns | small | ⟨column, row, isColumn, mem, less⟩
      · exact .inl noColumns
      · exact .inr (by omega)
      · have columnRange := tblInfo.between _ isColumn
        have small := tblInfo.small
        have behind : request.colnum < column := by
          by_contra notBehind
          exact upTo column isColumn (not_lt.mp notBehind) row mem less
        exact .inr (by omega)
    have notResting : ¬(request.processed = true ∨ request.results ≠ none) := by
      simp [active, unanswered]
    rcases nextColumn_spec searches.isColumn notLargest with ⟨zero, last⟩ | ⟨set, next⟩
    · left
      simp only [NetSnmp.nextColumnOf, notResting, zero, if_false, if_true]
      refine ⟨unanswered, trivial, trivial, ?_⟩
      rintro ⟨column, row, isColumn, mem, less⟩
      exact upTo column isColumn (last column isColumn) row mem less
    · right
      simp only [NetSnmp.nextColumnOf, notResting, set, if_false]
      refine ⟨unanswered, trivial, active, unanswered, next.behind, ?_⟩
      refine ⟨next.isColumn, searches.same, ?_, fun found => absurd unanswered found⟩
      intro column isColumn lt
      have le : column ≤ request.colnum := by
        by_contra behind
        have ge := next.least column isColumn (not_le.mp behind)
        simp only at lt
        omega
      exact upTo column isColumn le
  · left
    exact ⟨unanswered, by simp [NetSnmp.nextColumnOf, unanswered]⟩

abbrev AskedRequest (Ctx : Type) := (Oid × Bool) × IteratorRequest Ctx

variable {asked : List (AskedRequest Ctx)}

def passed (order : ByteOrder) (rootoid : Oid) (rows : List (IteratorRow Ctx))
    (pair : AskedRequest Ctx) : AskedRequest Ctx :=
  (pair.1, rows.foldl (offerRow order rootoid) pair.2)

def movedOn (order : ByteOrder) (tblInfo : TableRegistrationInfo) (rootoid : Oid)
    (rows : List (IteratorRow Ctx)) (pair : AskedRequest Ctx) : AskedRequest Ctx :=
  (pair.1, (nextColumnOf rootoid tblInfo (passed order rootoid rows pair).2).1)

theorem Stands.passed {pair : AskedRequest Ctx} (fits : ∀ row ∈ rows, row.Fits order rootoid)
    (stands : Stands order tblInfo rootoid rows pair.1 pair.2) :
    Stands order tblInfo rootoid rows pair.1 (passed order rootoid rows pair).2 ∧
      ((passed order rootoid rows pair).2.processed = false →
        Holds order rootoid rows (passed order rootoid rows pair).2) := by
  obtain ⟨-, -, processed_eq⟩ := foldl_offerRow_keeps order rootoid rows pair.2
  by_cases isProcessed : pair.2.processed = true
  · have same : (NetSnmp.passed order rootoid rows pair).2 = pair.2 :=
      foldl_offerRow_of_settled (fun active => absurd active (by simp [isProcessed]))
        (.inl isProcessed)
    rw [same]
    exact ⟨stands, fun active => absurd active (by simp [isProcessed])⟩
  · have active : pair.2.processed = false := by simpa using isProcessed
    obtain ⟨notDone, ends, searches⟩ := stands.active active
    obtain ⟨searchesNext, holds⟩ := searches.pass fits active
    refine ⟨⟨?_, fun _ => ⟨notDone, ends, searchesNext⟩⟩, fun _ => holds⟩
    intro nowProcessed
    rw [NetSnmp.passed, processed_eq, active] at nowProcessed
    cases nowProcessed

theorem unanswered_of_passed {pair : AskedRequest Ctx} (fits : ∀ row ∈ rows, row.Fits order rootoid)
    (stands : Stands order tblInfo rootoid rows pair.1 pair.2) (active : pair.2.processed = false)
    (unanswered : (passed order rootoid rows pair).2.results = none) : pair.2.results = none := by
  by_contra found
  obtain ⟨-, -, searches⟩ := stands.active active
  have same := foldl_offerRow_of_settled (searches.settled fits) (.inr found)
  rw [passed, same] at unanswered
  exact found unanswered

theorem Stands.movedOn {pair : AskedRequest Ctx} (fits : ∀ row ∈ rows, row.Fits order rootoid)
    (stands : Stands order tblInfo rootoid rows pair.1 pair.2) :
    Stands order tblInfo rootoid rows pair.1 (movedOn order tblInfo rootoid rows pair).2 ∧
      ((nextColumnOf rootoid tblInfo (NetSnmp.passed order rootoid rows pair).2).2 = false →
        PassOutcome order tblInfo rootoid rows pair.1 (movedOn order tblInfo rootoid rows pair).2) ∧
      ((nextColumnOf rootoid tblInfo (NetSnmp.passed order rootoid rows pair).2).2 = true →
        pair.2.processed = false ∧ pair.2.results = none) ∧
      ((movedOn order tblInfo rootoid rows pair).2.processed = false →
        (movedOn order tblInfo rootoid rows pair).2.results = none →
          pair.2.processed = false ∧ pair.2.results = none ∧
            pair.2.colnum < (movedOn order tblInfo rootoid rows pair).2.colnum) := by
  obtain ⟨-, colnum_eq, processed_eq⟩ := foldl_offerRow_keeps order rootoid rows pair.2
  obtain ⟨standsPassed, holds⟩ := stands.passed fits
  by_cases isProcessed : (NetSnmp.passed order rootoid rows pair).2.processed = true
  · have rests : nextColumnOf rootoid tblInfo (NetSnmp.passed order rootoid rows pair).2 =
        ((NetSnmp.passed order rootoid rows pair).2, false) := by
      simp [nextColumnOf, isProcessed]
    have same : (NetSnmp.movedOn order tblInfo rootoid rows pair).2 =
        (NetSnmp.passed order rootoid rows pair).2 := by
      simp [NetSnmp.movedOn, rests]
    rw [same, rests]
    refine ⟨standsPassed, fun _ => ⟨standsPassed.processed, ?_⟩, fun moved => (by cases moved), ?_⟩
    · intro active
      rw [isProcessed] at active
      cases active
    · intro active
      rw [isProcessed] at active
      cases active
  · have active : (NetSnmp.passed order rootoid rows pair).2.processed = false := by
      simpa using isProcessed
    have activeBefore : pair.2.processed = false := by
      rw [← processed_eq]
      exact active
    obtain ⟨notDone, ends, searches⟩ := standsPassed.active active
    rcases searches.nextColumnOf (holds active) active ends with
      ⟨found, rests⟩ | ⟨unanswered, rests, nowProcessed, noNext⟩ |
        ⟨unanswered, moves, stillActive, noResult, further, searchesNext⟩
    · have same : (NetSnmp.movedOn order tblInfo rootoid rows pair).2 =
          (NetSnmp.passed order rootoid rows pair).2 := by
        simp [NetSnmp.movedOn, rests]
      rw [same, rests]
      refine ⟨standsPassed, fun _ => ⟨standsPassed.processed, fun _ => ⟨notDone, found, searches⟩⟩,
        fun moved => (by cases moved), ?_⟩
      intro _ noResult
      exact absurd noResult found
    · refine ⟨⟨fun _ _ => noNext, ?_⟩, fun _ => ⟨fun _ _ => noNext, ?_⟩, ?_, ?_⟩
      · intro stillActive
        rw [NetSnmp.movedOn, nowProcessed] at stillActive
        cases stillActive
      · intro stillActive
        rw [NetSnmp.movedOn, nowProcessed] at stillActive
        cases stillActive
      · intro moved
        rw [rests] at moved
        cases moved
      · intro stillActive
        rw [NetSnmp.movedOn, nowProcessed] at stillActive
        cases stillActive
    · have before := unanswered_of_passed fits stands activeBefore unanswered
      refine ⟨⟨?_, fun _ => ⟨notDone, ends, searchesNext⟩⟩, ?_, fun _ => ⟨activeBefore, before⟩, ?_⟩
      · intro nowProcessed
        rw [NetSnmp.movedOn, stillActive] at nowProcessed
        cases nowProcessed
      · intro rests
        rw [moves] at rests
        cases rests
      · intro _ _
        refine ⟨activeBefore, before, ?_⟩
        rw [← colnum_eq]
        exact further

theorem countP_nextColumnOf_le (rootoid : Oid) (tblInfo : TableRegistrationInfo) (sorted : Bool)
    (requests : List (IteratorRequest Ctx)) :
    (requests.map fun request => (nextColumnOf rootoid tblInfo request).1).countP (counts sorted) ≤
      requests.countP (counts sorted) := by
  rw [List.countP_map]
  apply List.countP_mono_left
  intro request _ counted
  simp only [Function.comp_apply] at counted
  by_cases rests : request.processed = true ∨ request.results ≠ none
  · simpa only [nextColumnOf, rests, if_true] using counted
  · obtain ⟨active, unanswered⟩ := not_or.mp rests
    simp [counts, active, not_not.mp unanswered]

theorem rowLoop_passed (fits : ∀ row ∈ rows, row.Fits order rootoid)
    (increasing : sorted = true → rows.Pairwise fun row other =>
      row.index order < other.index order)
    (stands : ∀ pair ∈ asked, Stands order tblInfo rootoid rows pair.1 pair.2)
    (counted : ((asked.map Prod.snd).countP (counts sorted) : Int) ≤ requestCount) :
    (rowLoop order rootoid sorted rows requestCount (asked.map Prod.snd)).2 =
        (asked.map (passed order rootoid rows)).map Prod.snd ∧
      ((rowLoop order rootoid sorted rows requestCount (asked.map Prod.snd)).2.countP
          (counts sorted) : Int) ≤
        (rowLoop order rootoid sorted rows requestCount (asked.map Prod.snd)).1 := by
  have holds : ∀ request ∈ asked.map Prod.snd, request.processed = false →
      ∃ front, Holds order rootoid front request := by
    intro request mem active
    obtain ⟨pair, pairMem, rfl⟩ := List.mem_map.mp mem
    obtain ⟨-, -, searches⟩ := (stands pair pairMem).active active
    by_cases unanswered : pair.2.results = none
    · exact ⟨[], holds_nil unanswered⟩
    · exact ⟨rows, searches.holds unanswered⟩
  have settled : sorted = true → ∀ request ∈ asked.map Prod.snd,
      Settled order rootoid rows request := by
    intro _ request mem active
    obtain ⟨pair, pairMem, rfl⟩ := List.mem_map.mp mem
    obtain ⟨-, -, searches⟩ := (stands pair pairMem).active active
    exact searches.settled fits active
  obtain ⟨passes, countedNext⟩ := rowLoop_eq fits increasing holds settled counted
  refine ⟨?_, countedNext⟩
  rw [passes, List.map_map, List.map_map]
  rfl

theorem map_movedOn (asked : List (AskedRequest Ctx)) :
    (((asked.map (passed order rootoid rows)).map Prod.snd).map
        (nextColumnOf rootoid tblInfo)).map Prod.fst =
      (asked.map (movedOn order tblInfo rootoid rows)).map Prod.snd := by
  simp only [List.map_map]
  rfl

theorem passLoop_ends (fits : ∀ row ∈ rows, row.Fits order rootoid)
    (increasing : sorted = true → rows.Pairwise fun row other =>
      row.index order < other.index order)
    (rest : Nat) (stands : ∀ pair ∈ asked, Stands order tblInfo rootoid rows pair.1 pair.2)
    (counted : ((asked.map Prod.snd).countP (counts sorted) : Int) ≤ requestCount)
    (bound : ∀ pair ∈ asked, pair.2.processed = false → pair.2.results = none →
      tblInfo.maxColumn < pair.2.colnum + rest) :
    ∃ answers : List (AskedRequest Ctx), answers.map Prod.fst = asked.map Prod.fst ∧
      passLoop order rootoid tblInfo sorted rows (rest + 1) requestCount (asked.map Prod.snd) =
        some (answers.map Prod.snd) ∧
      ∀ pair ∈ answers, PassOutcome order tblInfo rootoid rows pair.1 pair.2 := by
  induction rest generalizing asked requestCount with
  | zero =>
      obtain ⟨passes, -⟩ := rowLoop_passed fits increasing stands counted
      refine ⟨asked.map (movedOn order tblInfo rootoid rows), ?_, ?_, ?_⟩
      · rw [List.map_map]
        rfl
      · have ending : (((asked.map (passed order rootoid rows)).map Prod.snd).map
            (nextColumnOf rootoid tblInfo)).any Prod.snd = false := by
          apply List.any_eq_false.mpr
          intro moved mem
          simp only [List.map_map, List.mem_map, Function.comp_apply] at mem
          obtain ⟨pair, pairMem, rfl⟩ := mem
          intro moves
          obtain ⟨-, -, goesOn, -⟩ := (stands pair pairMem).movedOn fits
          obtain ⟨active, unanswered⟩ := goesOn moves
          have outside := bound pair pairMem active unanswered
          obtain ⟨-, -, searches⟩ := (stands pair pairMem).active active
          have range := tblInfo.between _ searches.isColumn
          omega
        rw [passLoop]
        simp only [passes, ending, Bool.false_eq_true, if_false, map_movedOn]
      · intro pair mem
        obtain ⟨before, beforeMem, rfl⟩ := List.mem_map.mp mem
        obtain ⟨-, found, goesOn, -⟩ := (stands before beforeMem).movedOn fits
        apply found
        by_contra moves
        obtain ⟨active, unanswered⟩ := goesOn (by simpa using moves)
        have outside := bound before beforeMem active unanswered
        obtain ⟨-, -, searches⟩ := (stands before beforeMem).active active
        have range := tblInfo.between _ searches.isColumn
        omega
  | succ rest ih =>
      obtain ⟨passes, countedPass⟩ := rowLoop_passed fits increasing stands counted
      have names_eq : (asked.map (movedOn order tblInfo rootoid rows)).map Prod.fst =
          asked.map Prod.fst := by
        rw [List.map_map]
        rfl
      rw [passLoop]
      simp only [passes]
      split
      · have standsNext : ∀ pair ∈ asked.map (movedOn order tblInfo rootoid rows),
            Stands order tblInfo rootoid rows pair.1 pair.2 := by
          intro pair mem
          obtain ⟨before, beforeMem, rfl⟩ := List.mem_map.mp mem
          exact ((stands before beforeMem).movedOn fits).1
        have countedNext : (((asked.map (movedOn order tblInfo rootoid rows)).map
            Prod.snd).countP (counts sorted) : Int) ≤
              (rowLoop order rootoid sorted rows requestCount (asked.map Prod.snd)).1 := by
          have fewer := countP_nextColumnOf_le rootoid tblInfo sorted
            ((asked.map (passed order rootoid rows)).map Prod.snd)
          rw [passes] at countedPass
          rw [← map_movedOn, List.map_map]
          exact le_trans (Int.ofNat_le.mpr fewer) countedPass
        have boundNext : ∀ pair ∈ asked.map (movedOn order tblInfo rootoid rows),
            pair.2.processed = false → pair.2.results = none →
              tblInfo.maxColumn < pair.2.colnum + rest := by
          intro pair mem active unanswered
          obtain ⟨before, beforeMem, rfl⟩ := List.mem_map.mp mem
          obtain ⟨-, -, -, further⟩ := (stands before beforeMem).movedOn fits
          obtain ⟨activeBefore, unansweredBefore, less⟩ := further active unanswered
          have outside := bound before beforeMem activeBefore unansweredBefore
          omega
        obtain ⟨answers, names, ends, found⟩ := ih standsNext countedNext boundNext
        refine ⟨answers, names.trans names_eq, ?_, found⟩
        rw [map_movedOn]
        exact ends
      · rename_i ending
        refine ⟨asked.map (movedOn order tblInfo rootoid rows), names_eq, by rw [map_movedOn], ?_⟩
        intro pair mem
        obtain ⟨before, beforeMem, rfl⟩ := List.mem_map.mp mem
        obtain ⟨-, found, -, -⟩ := (stands before beforeMem).movedOn fits
        apply found
        by_contra moves
        apply ending
        apply List.any_eq_true.mpr
        refine ⟨nextColumnOf rootoid tblInfo (passed order rootoid rows before).2, ?_,
          by simpa using moves⟩
        exact List.mem_map_of_mem (List.mem_map_of_mem (List.mem_map_of_mem beforeMem))

theorem passLoop_fuelStep (fuel : Nat) (requestCount : Int)
    (requests : List (IteratorRequest Ctx)) :
    FuelStep fuel fun fuel =>
      passLoop order rootoid tblInfo sorted rows fuel requestCount requests := by
  induction fuel generalizing requestCount requests with
  | zero =>
      intro answers absurdity
      cases absurdity
  | succ fuel ih =>
      intro answers returns
      dsimp only at returns ⊢
      rw [passLoop] at returns ⊢
      dsimp only at returns ⊢
      split at returns
      · rename_i moves
        rw [if_pos moves]
        exact ih _ _ _ returns
      · rename_i ends
        rw [if_neg ends]
        exact returns

structure Stuck (order : ByteOrder) (tblInfo : TableRegistrationInfo) (rootoid : Oid)
    (rows : List (IteratorRow Ctx)) (request : IteratorRequest Ctx) : Prop where
  active : request.processed = false
  unanswered : request.results = none
  isColumn : tblInfo.Column request.colnum
  noNext : ¬HasNext order tblInfo rootoid rows request.name

theorem Stuck.offerRow {row : IteratorRow Ctx} (stuck : Stuck order tblInfo rootoid rows request)
    (fits : row.Fits order rootoid) (mem : row ∈ rows) :
    offerRow order rootoid request row = request := by
  have noReply : replyOf order rootoid row request = none := by
    rw [replyOf_eq fits stuck.active, if_neg]
    · rintro ⟨-, behind⟩
      exact stuck.noNext ⟨request.colnum, row, stuck.isColumn, mem, behind⟩
    · intro result found
      rw [stuck.unanswered] at found
      cases found
  rw [NetSnmp.offerRow, noReply]

theorem Stuck.mem_rowLoop {offered : List (IteratorRow Ctx)}
    (stuck : Stuck order tblInfo rootoid rows request) (sorted : Bool) (requestCount : Int)
      (fits : ∀ row ∈ rows, row.Fits order rootoid)
    (subset : ∀ row ∈ offered, row ∈ rows) (mem : request ∈ requests) :
    request ∈ (rowLoop order rootoid sorted offered requestCount requests).2 := by
  induction offered generalizing requests requestCount with
  | nil => exact mem
  | cons row offered ih =>
      obtain ⟨rowMem, subset⟩ := List.forall_mem_cons.mp subset
      have memNext : request ∈
          (compareRow order rootoid sorted row requestCount requests).2 := by
        rw [compareRow_snd]
        exact List.mem_map.mpr ⟨request, mem, stuck.offerRow (fits row rowMem) rowMem⟩
      rw [rowLoop]
      dsimp only
      split
      · exact memNext
      · exact ih _ subset memNext

theorem Stuck.nextColumnOf (stuck : Stuck order tblInfo rootoid rows request)
    (hasColumns : tblInfo.validColumns ≠ []) (largest : ¬tblInfo.maxColumn + 1 < 2 ^ 32) :
    (nextColumnOf rootoid tblInfo request).2 = true ∧
      Stuck order tblInfo rootoid rows (nextColumnOf rootoid tblInfo request).1 := by
  have small := tblInfo.small
  have inside : (request.colnum + 1) % 2 ^ 32 ≤ tblInfo.maxColumn := by omega
  have isClosest := closest_isClosest hasColumns ((request.colnum + 1) % 2 ^ 32)
  have next_eq := tblInfo.nextColumn_of_columns request.colnum hasColumns
  have set := (isClosest.least _ tblInfo.max_isColumn inside).1
  have isColumn := (isClosest.found set).1
  rw [← next_eq] at set isColumn
  have notResting : ¬(request.processed = true ∨ request.results ≠ none) := by
    simp [stuck.active, stuck.unanswered]
  simp only [NetSnmp.nextColumnOf, notResting, set, if_false]
  exact ⟨trivial, stuck.active, stuck.unanswered, isColumn, stuck.noNext⟩

theorem passLoop_eq_none (fits : ∀ row ∈ rows, row.Fits order rootoid)
    (hasColumns : tblInfo.validColumns ≠ []) (largest : ¬tblInfo.maxColumn + 1 < 2 ^ 32)
    (stuck : Stuck order tblInfo rootoid rows request) (mem : request ∈ requests) (fuel : Nat) :
    passLoop order rootoid tblInfo sorted rows fuel requestCount requests = none := by
  induction fuel generalizing request requests requestCount with
  | zero => rfl
  | succ fuel ih =>
      have memPass := stuck.mem_rowLoop sorted requestCount fits
        (fun _ rowMem => rowMem) mem
      obtain ⟨moves, stuckNext⟩ := stuck.nextColumnOf hasColumns largest
      have memMoved := List.mem_map_of_mem (f := NetSnmp.nextColumnOf rootoid tblInfo) memPass
      rw [passLoop]
      dsimp only
      rw [if_pos (List.any_eq_true.mpr ⟨_, memMoved, moves⟩)]
      exact ih stuckNext (List.mem_map_of_mem memMoved)

theorem decodes_decodedRequest {request : Oid × Bool} (notBeyond : NotBeyond rootoid request.1)
    (active : (decodedRequest Ctx order tblInfo rootoid request).processed = false) :
    request.2 = false ∧ (decodedRequest Ctx order tblInfo rootoid request).results = none ∧
      Decodes tblInfo rootoid request.1 (decodedRequest Ctx order tblInfo rootoid request).name
        (decodedRequest Ctx order tblInfo rootoid request).colnum := by
  obtain ⟨name, done⟩ := request
  cases done with
  | true => cases active
  | false =>
      rcases tableHelperHandler_decodes order tblInfo notBeyond with
        ⟨handled, -⟩ | ⟨name', tblreq, handled, decodes⟩
      · simp [decodedRequest, handled] at active
      · have decoded : decodedRequest Ctx order tblInfo rootoid (name, false) =
            { name := name', colnum := tblreq.colnum } := by
          simp [decodedRequest, handled]
        rw [decoded]
        exact ⟨rfl, rfl, decodes⟩

theorem stands_decodedRequest {request : Oid × Bool} (notBeyond : NotBeyond rootoid request.1)
    (ends : (decodedRequest Ctx order tblInfo rootoid request).processed = false →
      Ends order tblInfo rootoid rows request.1) :
    Stands order tblInfo rootoid rows request
      (decodedRequest Ctx order tblInfo rootoid request) := by
  refine ⟨?_, ?_⟩
  · intro processed notDone
    rcases tableHelperHandler_decodes order tblInfo notBeyond with
      ⟨-, noInstance⟩ | ⟨name', tblreq, handled, -⟩
    · rintro ⟨column, row, isColumn, -, less⟩
      exact noInstance column _ isColumn less
    · simp [decodedRequest, handled, notDone] at processed
  · intro active
    obtain ⟨notDone, unanswered, decodes⟩ := decodes_decodedRequest notBeyond active
    refine ⟨notDone, ends active, decodes.isColumn, decodes.same, ?_,
      fun found => absurd unanswered found⟩
    intro column isColumn before row _ less
    have le := decodes.first column _ isColumn less
    omega

theorem analyse_eq (order : ByteOrder) (rootoid : Oid) (request : Oid × Bool)
    (positive : 0 < tblInfo.minColumn)
    (stands : (decodedRequest Ctx order tblInfo rootoid request).processed = false →
      tblInfo.Column (decodedRequest Ctx order tblInfo rootoid request).colnum) :
    analyse tblInfo (decodedRequest Ctx order tblInfo rootoid request) =
      decodedRequest Ctx order tblInfo rootoid request := by
  rw [analyse]
  split
  · rfl
  · rename_i notProcessed
    have range := tblInfo.between _ (stands (by simpa using notProcessed))
    have small := tblInfo.small
    have belowMin : (tblInfo.minColumn + 2 ^ 32 - 1) % 2 ^ 32 = tblInfo.minColumn - 1 := by omega
    rw [belowMin, if_neg (by omega), if_neg (by omega)]

/-- The answer to a request: the next name with the data context of its row, and `processed` if
there is no next name. -/
def Answered (order : ByteOrder) (tblInfo : TableRegistrationInfo) (rootoid : Oid)
    (rows : List (IteratorRow Ctx)) (name : Oid) (answer : IteratorRequest Ctx) : Prop :=
  if answer.processed then
    IsNextName tblInfo.Column (rows.map (IteratorRow.index order)) rootoid name none
  else
    IsNextName tblInfo.Column (rows.map (IteratorRow.index order)) rootoid name
        (some answer.name) ∧
      ∃ column, ∃ row ∈ rows, answer.name = instanceName rootoid column (row.index order) ∧
        answer.dataContext = some row.context

theorem isNextName_none_iff : IsNextName tblInfo.Column (rows.map (IteratorRow.index order)) rootoid
    name none ↔ ¬HasNext order tblInfo rootoid rows name := by
  simp only [IsNextName, HasNext, List.mem_map, forall_exists_index, and_imp, not_exists]
  constructor
  · rintro noNext column row ⟨isColumn, mem, less⟩
    exact noNext column isColumn _ row mem rfl less
  · rintro noNext column isColumn _ row mem rfl less
    exact noNext column row ⟨isColumn, mem, less⟩

theorem PassOutcome.answered {request : Oid × Bool} {found : IteratorRequest Ctx}
    (isFound : PassOutcome order tblInfo rootoid rows request found) (notDone : request.2 = false) :
    Answered order tblInfo rootoid rows request.1 (finish rootoid tblInfo found) := by
  by_cases processed : found.processed = true
  · have finished : finish rootoid tblInfo found = found := by simp [finish, processed]
    rw [finished, Answered, if_pos processed]
    exact isNextName_none_iff.mpr (isFound.processed processed notDone)
  · have active : found.processed = false := by simpa using processed
    obtain ⟨-, answered, searches⟩ := isFound.active active
    obtain ⟨result, result_eq⟩ := Option.ne_none_iff_exists'.mp answered
    obtain ⟨row, mem, rfl, behind, match_eq, context_eq, least⟩ :=
      (searches.holds answered).least result result_eq
    have nonempty : found.bestMatch.length ≠ 0 := by simp [match_eq, instanceOf, instanceName]
    have finished : finish rootoid tblInfo found = { found with name := found.bestMatch } := by
      simp [finish, active, nonempty]
    rw [finished, Answered, if_neg processed]
    refine ⟨?_, found.colnum, row, mem, match_eq, context_eq⟩
    refine ⟨found.colnum, row.index order,
      ⟨searches.isColumn, List.mem_map_of_mem mem, match_eq, ?_⟩,
      ?_⟩
    · rw [match_eq]
      exact (searches.same _ _ searches.isColumn).mp behind
    · intro column isColumn index indexMem less
      obtain ⟨other, otherMem, rfl⟩ := List.mem_map.mp indexMem
      rcases Nat.lt_trichotomy found.colnum column with lt | same | gt
      · exact .inl lt
      · subst same
        exact .inr ⟨rfl, least other otherMem ((searches.same _ _ isColumn).mpr less)⟩
      · exact absurd less (searches.before column isColumn gt other otherMem)

theorem countP_counts_le (requests : List (IteratorRequest Ctx)) :
    requests.countP (counts sorted) ≤ requests.countP fun request => !request.processed := by
  apply List.countP_mono_left
  intro request _ counted
  rw [counts, Bool.and_eq_true] at counted
  exact counted.1

/-- The table iterator ends and answers all requests, in whatever order the rows come, just if there
is no list of valid columns with the largest number in it, or each request that is searched for has
a next name. -/
theorem tableIterator_answers_iff (order : ByteOrder) (tblInfo : TableRegistrationInfo)
    (positive : 0 < tblInfo.minColumn) (rootoid : Oid) (sorted : Bool)
    (rows : List (IteratorRow Ctx)) (fits : ∀ row ∈ rows, row.Fits order rootoid)
    (increasing : sorted = true → rows.Pairwise fun row other =>
      row.index order < other.index order)
    (asked : List (Oid × Bool)) (notBeyond : ∀ request ∈ asked, NotBeyond rootoid request.1) :
    (∃ answers, Settles (fun fuel => tableIteratorHelperHandler order rootoid tblInfo
      sorted rows fuel
          (asked.map (decodedRequest Ctx order tblInfo rootoid))) answers ∧
        List.Forall₂ (fun request answer => request.2 = false →
          Answered order tblInfo rootoid rows request.1 answer) asked answers) ↔
      (tblInfo.validColumns = [] ∨ tblInfo.maxColumn + 1 < 2 ^ 32 ∨
        ∀ request ∈ asked, (decodedRequest Ctx order tblInfo rootoid request).processed = false →
          HasNext order tblInfo rootoid rows request.1) := by
  have analysed : (asked.map (decodedRequest Ctx order tblInfo rootoid)).map (analyse tblInfo) =
      asked.map (decodedRequest Ctx order tblInfo rootoid) := by
    rw [List.map_map]
    apply List.map_congr_left
    intro request mem
    exact analyse_eq order rootoid request positive fun active =>
      (decodes_decodedRequest (notBeyond request mem) active).2.2.isColumn
  constructor
  · rintro ⟨answers, ⟨bound, settles⟩, -⟩
    by_contra wraps
    simp only [not_or, not_forall] at wraps
    obtain ⟨hasColumns, largest, request, mem, active, noNext⟩ := wraps
    obtain ⟨-, unanswered, decodes⟩ := decodes_decodedRequest (notBeyond request mem) active
    have stuck : Stuck order tblInfo rootoid rows
        (decodedRequest Ctx order tblInfo rootoid request) := by
      refine ⟨active, unanswered, decodes.isColumn, ?_⟩
      rintro ⟨column, row, isColumn, rowMem, less⟩
      exact noNext ⟨column, row, isColumn, rowMem, (decodes.same _ _ isColumn).mp less⟩
    have returns := settles bound le_rfl
    simp only [tableIteratorHelperHandler, analysed] at returns
    rw [passLoop_eq_none fits hasColumns largest stuck (List.mem_map_of_mem mem)] at returns
    cases returns
  · intro ends
    have pairs_eq : (asked.map fun request =>
        (request, decodedRequest Ctx order tblInfo rootoid request)).map Prod.snd =
          asked.map (decodedRequest Ctx order tblInfo rootoid) := by
      rw [List.map_map]
      rfl
    have names_eq : (asked.map fun request =>
        (request, decodedRequest Ctx order tblInfo rootoid request)).map Prod.fst = asked := by
      rw [List.map_map]
      exact List.map_id' asked
    have stands : ∀ pair ∈ asked.map fun request =>
        (request, decodedRequest Ctx order tblInfo rootoid request),
          Stands order tblInfo rootoid rows pair.1 pair.2 := by
      intro pair mem
      obtain ⟨request, requestMem, rfl⟩ := List.mem_map.mp mem
      apply stands_decodedRequest (notBeyond request requestMem)
      intro active
      rcases ends with noColumns | small | hasNext
      · exact .inl noColumns
      · exact .inr (.inl small)
      · exact .inr (.inr (hasNext request requestMem active))
    have counted : ((((asked.map fun request =>
        (request, decodedRequest Ctx order tblInfo rootoid request)).map Prod.snd).countP
          (counts sorted) : Nat) : Int) ≤
        ((asked.map (decodedRequest Ctx order tblInfo rootoid)).countP fun request =>
          !request.processed : Nat) := by
      rw [pairs_eq]
      exact Int.ofNat_le.mpr (countP_counts_le _)
    obtain ⟨answers, names, returns, found⟩ := passLoop_ends fits increasing
      (tblInfo.maxColumn + 1) stands counted (fun pair _ _ _ => by omega)
    rw [names_eq] at names
    rw [pairs_eq] at returns
    refine ⟨answers.map fun pair => finish rootoid tblInfo pair.2, ?_, ?_⟩
    · simp only [tableIteratorHelperHandler, analysed]
      apply settles_of_fuel (tblInfo.maxColumn + 1 + 1)
      · intro fuel
        exact (passLoop_fuelStep fuel _ _).map _
      · rw [returns, Option.map_some, List.map_map]
        rfl
    · rw [← names, List.forall₂_map_left_iff, List.forall₂_map_right_iff]
      apply List.forall₂_same.mpr
      intro pair mem notDone
      exact (found pair mem).answered notDone

theorem integerIndex_ne_nil : ([⟨[], asnInteger, .unset 0⟩] : List VariableList) ≠ [] :=
  List.cons_ne_nil _ _

def integerTable : TableRegistrationInfo where
  indexes := [⟨[], asnInteger, .unset 0⟩]
  minColumn := 1
  maxColumn := 2
  indexed := integerIndex_ne_nil
  small := addressTable.small
  noZero := addressTable.noZero
  min_isColumn := addressTable.min_isColumn
  max_isColumn := addressTable.max_isColumn
  between := addressTable.between

def integerRow (index : Nat) : IteratorRow Nat := ⟨[⟨[], asnInteger, .integer index⟩], index⟩

theorem fits_integerRow (index : Nat) : (integerRow index).Fits .littleEndian [1, 3] :=
  fun _ => rfl

theorem tableIterator_answers_integer :
    ∃ answers, Settles (fun fuel =>
        tableIteratorHelperHandler .littleEndian [1, 3] integerTable false
          [integerRow 3, integerRow 1, integerRow 2] fuel
          ([([1, 3], false), (instanceName [1, 3] 1 [3], false)].map
            (decodedRequest Nat .littleEndian integerTable [1, 3]))) answers ∧
      List.Forall₂ (fun request answer => request.2 = false →
          Answered .littleEndian integerTable [1, 3] [integerRow 3, integerRow 1, integerRow 2]
            request.1 answer)
        [([1, 3], false), (instanceName [1, 3] 1 [3], false)] answers := by
  apply (tableIterator_answers_iff .littleEndian integerTable (by decide) [1, 3] false
    [integerRow 3, integerRow 1, integerRow 2] _ (fun absurdity => by cases absurdity) _ _).mpr
    (.inl rfl)
  · simp only [List.forall_mem_cons]
    exact ⟨fits_integerRow 3, fits_integerRow 1, fits_integerRow 2, fun _ mem => by cases mem⟩
  · simp only [List.forall_mem_cons]
    exact ⟨.inr ⟨[], rfl⟩, .inr ⟨[1, 1, 3], rfl⟩, fun _ mem => by cases mem⟩

def largestColumnTable : TableRegistrationInfo where
  indexes := [⟨[], asnInteger, .unset 0⟩]
  minColumn := 4294967295
  maxColumn := 4294967295
  validColumns := [.range 4294967295 4294967295 le_rfl (by decide)]
  indexed := integerIndex_ne_nil
  small := by decide
  noZero := by simp [IsContained, ColumnInfo.Names]
  min_isColumn := by simp [IsColumn, IsContained, ColumnInfo.Names]
  max_isColumn := by simp [IsColumn, IsContained, ColumnInfo.Names]
  between column isColumn := by simpa [IsColumn, IsContained, ColumnInfo.Names] using isColumn

/-- Behind the last instance of column 4294967295 the passes do not end. -/
theorem not_tableIterator_answers :
    NotBeyond [1, 3] (instanceName [1, 3] 4294967295 [1]) ∧
      ¬∃ answers, Settles (fun fuel =>
        tableIteratorHelperHandler .littleEndian [1, 3] largestColumnTable false [integerRow 1] fuel
          ([(instanceName [1, 3] 4294967295 [1], false)].map
            (decodedRequest Nat .littleEndian largestColumnTable [1, 3]))) answers := by
  refine ⟨.inr ⟨[1, 4294967295, 1], rfl⟩, ?_⟩
  rintro ⟨answers, bound, settles⟩
  have returns := settles bound le_rfl
  have analysed : ([(instanceName [1, 3] 4294967295 [1], false)].map
      (decodedRequest Nat .littleEndian largestColumnTable [1, 3])).map
        (analyse largestColumnTable) =
      [⟨instanceName [1, 3] 4294967295 [1], 4294967295, false, none, [], none⟩] := by
    obtain ⟨numberIndexes, indexes, handled, -⟩ := tableHelperHandler_column
      .littleEndian [1, 3] largestColumnTable.max_isColumn [1]
    have decoded : decodedRequest Nat .littleEndian largestColumnTable [1, 3]
        (instanceName [1, 3] largestColumnTable.maxColumn [1], false) =
          ⟨instanceName [1, 3] 4294967295 [1], 4294967295, false, none, [], none⟩ := by
      simp only [decodedRequest, handled, Bool.false_eq_true, if_false]
      rfl
    have unchanged := @analyse_eq Nat _ .littleEndian [1, 3]
      (instanceName [1, 3] largestColumnTable.maxColumn [1], false)
      (show 0 < largestColumnTable.minColumn by decide)
      (fun _ => by rw [decoded]; exact largestColumnTable.max_isColumn)
    rw [decoded] at unchanged
    rw [List.map_singleton, List.map_singleton]
    exact congrArg (fun request => [request]) ((congrArg _ decoded).trans unchanged)
  have stuck : Stuck .littleEndian largestColumnTable [1, 3] [integerRow 1]
      ⟨instanceName [1, 3] 4294967295 [1], 4294967295, false, none, [], none⟩ := by
    refine ⟨rfl, rfl, largestColumnTable.max_isColumn, ?_⟩
    rintro ⟨column, row, isColumn, mem, less⟩
    obtain rfl := List.mem_singleton.mp mem
    have le : column ≤ 4294967295 := (largestColumnTable.between column isColumn).2
    rcases instanceName_lt_iff.mp less with lt | ⟨-, lt⟩
    · omega
    · exact absurd lt (by decide)
  simp only [tableIteratorHelperHandler, analysed] at returns
  rw [passLoop_eq_none (fun row mem => by
    rw [List.mem_singleton.mp mem]; exact fits_integerRow 1) (by simp [largestColumnTable])
    (by decide) stuck List.mem_cons_self] at returns
  cases returns

end NetSnmp
