import Mathlib.Data.List.Dedup
import NetSnmp.LinkedList
import NetSnmp.OidCompare

/-!
# The row merge helper

The requests of one call are linked into one list for each row, and the next handler is called with
each of these lists before the original list is restored.
-/

namespace NetSnmp

namespace RowMerge

/-- A `netsnmp_request_info` without its links. -/
structure RowRequest where
  name : Oid
  processed : Bool

/-- `ROW_MERGE_WAITING` and the other marks. -/
inductive RowMergeMark where
  | waiting
  | active
  | done
  | head
  deriving DecidableEq, Repr

/-- `netsnmp_row_merge_status`, of the arrays only for how many requests they are allocated. -/
structure RowMergeStatus where
  count : Nat := 0
  rows : Nat := 0
  current : Nat := 0
  saved : Nat := 0
  deriving DecidableEq, Repr

/-- A call of the next handler: the first request of its list, the links at that time, and what it is
told about the row. -/
structure RowCall where
  head : Addr
  links : Links
  first : Bool
  last : Bool

/-- `netsnmp_row_merge_status_first` -/
def statusFirst (status : RowMergeStatus) : Bool := status.count = 1 || status.current = 1

/-- `netsnmp_row_merge_status_last` -/
def statusLast (status : RowMergeStatus) : Bool :=
  status.count = 1 || status.current = status.rows

def rowCall (status : RowMergeStatus) (links : Links) (head : Addr) : RowCall :=
  { head, links, first := statusFirst status, last := statusLast status }

/-- The loop over `j`: the waiting requests that match are linked behind `tail`. -/
def matchLoop (isMatch : Addr → Bool) :
    (tail : Addr) → List Addr → List RowMergeMark → Links → List RowMergeMark × Links
  | tail, request :: requests, mark :: marks, links =>
      if mark = .waiting ∧ isMatch request then
        let links := ((links.setNext tail (some request)).setNext request none).setPrev request
          (some tail)
        let rest := matchLoop isMatch request requests marks links
        (.active :: rest.1, rest.2)
      else
        let rest := matchLoop isMatch tail requests marks links
        (mark :: rest.1, rest.2)
  | _, _, marks, links => (marks, links)

/-- The loop over `i`: each request that is still waiting is the head of a row. -/
def rowLoop (rowOid : Addr → Oid) :
    List Addr → List RowMergeMark → Links → List RowMergeMark × Links
  | request :: requests, mark :: marks, links =>
      if mark = .waiting then
        let isMatch other := decide (snmpOidCompare (rowOid request) (rowOid other) = 0)
        let linked := matchLoop isMatch request requests marks (links.setNext request none)
        let rest := rowLoop rowOid requests linked.1 linked.2
        (.head :: rest.1, rest.2)
      else
        let rest := rowLoop rowOid requests marks links
        (mark :: rest.1, rest.2)
  | _, marks, links => (marks, links)

/-- The loop that calls the next handler for each head. -/
def callLoop (links : Links) :
    List Addr → List RowMergeMark → RowMergeStatus → List RowCall × RowMergeStatus
  | request :: requests, mark :: marks, status =>
      if mark = .head then
        let status := { status with current := status.current + 1 }
        let rest := callLoop links requests marks status
        (rowCall status links request :: rest.1, rest.2)
      else callLoop links requests marks status
  | _, _, status => ([], status)

def restoreLoop : (before : Option Addr) → List Addr → Links → Links
  | _, [], links => links
  | before, request :: requests, links =>
      let links := links.setNext request requests.head?
      let links := if before.isSome then links.setPrev request before else links
      restoreLoop (some request) requests links

structure RowMergeResult where
  calls : List RowCall
  links : Links
  status : RowMergeStatus
  rc : Int

/-- If the count changed, everything is done again; the arrays are allocated for a new count. -/
def countRequests (status : RowMergeStatus) (count : Nat) : RowMergeStatus :=
  let status :=
    if status.count ≠ 0 ∧ status.count ≠ count then
      { status with saved := 0, count := 0, rows := 0 }
    else status
  if status.count = 0 then { status with saved := count } else status

def countRows (status : RowMergeStatus) (count heads : Nat) : RowMergeStatus :=
  let status :=
    if status.count = 0 then { status with rows := status.rows + heads, count } else status
  { status with current := 0 }

def mergeRows (skipOid : Nat) (info : Addr → RowRequest) (links : Links) (requests : List Addr) :
    List RowMergeMark × Links :=
  let marks := requests.map fun request =>
    if (info request).processed then RowMergeMark.done else .waiting
  let links := requests.foldl (fun links request => links.setPrev request none) links
  rowLoop (fun request => (info request).name.drop skipOid) requests marks links

/-- `netsnmp_row_merge_helper_handler`, with what the next handler returns. It has no result if the
arrays are not long enough. -/
def rowMergeHelperHandler (skipOid : Nat) (info : Addr → RowRequest) (nextHandler : RowCall → Int)
    (status : RowMergeStatus) (links : Links) (requests : List Addr) : Option RowMergeResult :=
  match requests with
  | [request] =>
      let status := { status with count := 1 }
      if (info request).processed then some { calls := [], links, status, rc := 0 }
      else
        let call := rowCall status links request
        some { calls := [call], links, status, rc := nextHandler call }
  | requests =>
      let count := requests.length
      let status := countRequests status count
      if status.saved < count then none
      else
        let merged := mergeRows skipOid info links requests
        let status := countRows status count (merged.1.count .head)
        let called := callLoop merged.2 requests merged.1 status
        some
          { calls := called.1
            links := restoreLoop none requests merged.2
            status := called.2
            rc := ((called.1.map nextHandler).find? (· ≠ 0)).getD 0 }

/-- A call with a list of requests whose names are at least as long as the prefix. -/
structure MergeCall (skipOid : Nat) where
  info : Addr → RowRequest
  links : Links
  head : Option Addr
  requests : List Addr
  linked : links.Linked head requests
  long : ∀ request ∈ requests, skipOid ≤ (info request).name.length

namespace MergeCall

variable {skipOid : Nat}

def rowOid (call : MergeCall skipOid) (request : Addr) : Oid :=
  (call.info request).name.drop skipOid

def unprocessed (call : MergeCall skipOid) : List Addr :=
  call.requests.filter fun request => !(call.info request).processed

def rowCount (call : MergeCall skipOid) : Nat := (call.unprocessed.map call.rowOid).dedup.length

def run (call : MergeCall skipOid) (nextHandler : RowCall → Int) (status : RowMergeStatus) :
    Option RowMergeResult :=
  rowMergeHelperHandler skipOid call.info nextHandler status call.links call.requests

end MergeCall

section Delivery

variable {skipOid : Nat}

structure DeliversRows (call : MergeCall skipOid) (calls : List RowCall) : Prop where
  delivered : ∃ rows : List (List Addr),
    List.Forall₂ (fun delivery row => delivery.links.Linked (some delivery.head) row) calls rows ∧
    (∀ row ∈ rows, ∃ request ∈ row, row = call.unprocessed.filter fun other =>
      call.rowOid other = call.rowOid request) ∧
    (rows.Pairwise fun row row' => ∀ request ∈ row, ∀ request' ∈ row',
      call.rowOid request ≠ call.rowOid request') ∧
    ∀ request ∈ call.unprocessed, ∃ row ∈ rows, request ∈ row

/-- The next handler is called once for each row, the list is as it was, and the first and the last
row are known as such. -/
structure MergesRows (call : MergeCall skipOid) (result : RowMergeResult) : Prop where
  rows : DeliversRows call result.calls
  restored : result.links = call.links
  first : ∀ i delivery, result.calls[i]? = some delivery → (delivery.first = true ↔ i = 0)
  last : ∀ i delivery, result.calls[i]? = some delivery →
    (delivery.last = true ↔ i + 1 = result.calls.length)

/-- The status behind some calls with the same one. -/
def statusAfter (nextHandler : RowCall → Int) (calls : List (MergeCall skipOid)) :
    Option RowMergeStatus :=
  calls.foldl (fun status call => status.bind fun status =>
    (call.run nextHandler status).map RowMergeResult.status) (some {})

def MergesAll (nextHandler : RowCall → Int) (calls : List (MergeCall skipOid)) : Prop :=
  ∀ before call after, calls = before ++ call :: after →
    ∃ status result, statusAfter nextHandler before = some status ∧
      call.run nextHandler status = some result ∧ MergesRows call result

/-- If the number of requests is the one of the status, then so is the number of rows, unless there
is none. -/
def RemembersRows (status : RowMergeStatus) (call : MergeCall skipOid) : Prop :=
  2 ≤ call.requests.length → status.count = call.requests.length → call.rowCount ≠ 0 →
    status.rows = call.rowCount

end Delivery

def waitingOf : List Addr → List RowMergeMark → List Addr
  | request :: requests, mark :: marks =>
      if mark = .waiting then request :: waitingOf requests marks else waitingOf requests marks
  | _, _ => []

def headsOf : List Addr → List RowMergeMark → List Addr
  | request :: requests, mark :: marks =>
      if mark = .head then request :: headsOf requests marks else headsOf requests marks
  | _, _ => []

theorem mem_of_mem_waitingOf {requests : List Addr} {marks : List RowMergeMark} {request : Addr}
    (mem : request ∈ waitingOf requests marks) : request ∈ requests := by
  induction requests generalizing marks with
  | nil => exact absurd mem (by simp [waitingOf])
  | cons first requests ih =>
      cases marks with
      | nil => exact absurd mem (by simp [waitingOf])
      | cons mark marks =>
          rw [waitingOf] at mem
          split at mem
          · rcases List.mem_cons.mp mem with rfl | mem
            · exact List.mem_cons_self
            · exact List.mem_cons_of_mem _ (ih mem)
          · exact List.mem_cons_of_mem _ (ih mem)

theorem waitingOf_map (isDone : Addr → Bool) (requests : List Addr) :
    waitingOf requests (requests.map fun request =>
      if isDone request then RowMergeMark.done else .waiting) =
        requests.filter fun request => !isDone request := by
  induction requests with
  | nil => rfl
  | cons request requests ih =>
      rw [List.map_cons, waitingOf, ih, List.filter_cons]
      cases isDone request with
      | false => rfl
      | true => rfl

theorem count_head_eq (requests : List Addr) (marks : List RowMergeMark)
    (same : marks.length = requests.length) :
    marks.count .head = (headsOf requests marks).length := by
  induction requests generalizing marks with
  | nil =>
      rw [List.length_eq_zero_iff.mp same]
      rfl
  | cons request requests ih =>
      cases marks with
      | nil => exact absurd same (by simp)
      | cons mark marks =>
          have rest := ih marks (Nat.succ.inj same)
          rw [headsOf, List.count_cons, rest]
          by_cases isHead : mark = .head
          · simp [isHead]
          · simp [isHead]

/-- What the loop over `j` does: the matching requests are linked behind the tail. -/
structure LinksMatches (isMatch : Addr → Bool) (tail : Addr) (requests : List Addr)
    (marks marks' : List RowMergeMark) (links links' : Links) : Prop where
  length : marks'.length = marks.length
  waiting : waitingOf requests marks' = (waitingOf requests marks).filter fun other => !isMatch other
  noHead : .head ∉ marks → .head ∉ marks'
  segment : links'.Segment (some tail) (links'.next tail)
    ((waitingOf requests marks).filter isMatch) none
  prevTail : links'.prev tail = links.prev tail
  frame : ∀ other, other ≠ tail → other ∉ (waitingOf requests marks).filter isMatch →
    links'.next other = links.next other ∧ links'.prev other = links.prev other

theorem matchLoop_links (isMatch : Addr → Bool) {tail : Addr} {requests : List Addr}
    {marks : List RowMergeMark} {links : Links} (nodup : (tail :: requests).Nodup)
    (end_tail : links.next tail = none) :
    LinksMatches isMatch tail requests marks (matchLoop isMatch tail requests marks links).1 links
      (matchLoop isMatch tail requests marks links).2 := by
  induction requests generalizing tail marks links with
  | nil =>
      refine ⟨rfl, rfl, id, ?_, rfl, fun _ _ _ => ⟨rfl, rfl⟩⟩
      exact end_tail
  | cons request requests ih =>
      rcases List.nodup_cons.mp nodup with ⟨tailFresh, restNodup⟩
      cases marks with
      | nil =>
          refine ⟨rfl, rfl, id, ?_, rfl, fun _ _ _ => ⟨rfl, rfl⟩⟩
          exact end_tail
      | cons mark marks =>
          have tail_ne : tail ≠ request := fun same => tailFresh (same ▸ List.mem_cons_self)
          rw [matchLoop]
          by_cases linksHere : mark = .waiting ∧ isMatch request = true
          · simp only [if_pos linksHere]
            generalize changed_eq : ((links.setNext tail (some request)).setNext request
              none).setPrev request (some tail) = changed
            have next_request : changed.next request = none := by simp [← changed_eq]
            have prev_request : changed.prev request = some tail := by simp [← changed_eq]
            have next_tail : changed.next tail = some request := by simp [← changed_eq, tail_ne]
            have prev_tail : changed.prev tail = links.prev tail := by
              simp [← changed_eq, tail_ne]
            have rest := @ih _ marks _ restNodup next_request
            generalize matchLoop isMatch request requests marks changed = after at rest
            have here : waitingOf (request :: requests) (mark :: marks) =
                request :: waitingOf requests marks := by simp [waitingOf, linksHere.1]
            have tailOutside : tail ∉ (waitingOf requests marks).filter isMatch := fun mem =>
              tailFresh (List.mem_cons_of_mem _
                (mem_of_mem_waitingOf (List.mem_of_mem_filter mem)))
            have tailFrame := rest.frame tail tail_ne tailOutside
            refine ⟨?_, ?_, ?_, ?_, ?_, ?_⟩
            · simp [rest.length]
            · simp [waitingOf, linksHere.1, linksHere.2, rest.waiting]
            · intro noHead
              have noHead' := rest.noHead fun mem => noHead (List.mem_cons_of_mem _ mem)
              simp [noHead']
            · rw [here, List.filter_cons_of_pos linksHere.2, tailFrame.1, next_tail]
              exact ⟨rfl, rest.prevTail.trans prev_request, rest.segment⟩
            · rw [tailFrame.2, prev_tail]
            · intro other notTail outside
              rw [here, List.filter_cons_of_pos linksHere.2, List.mem_cons, not_or] at outside
              have frame := rest.frame other outside.1 outside.2
              rw [frame.1, frame.2]
              simp [← changed_eq, notTail, outside.1]
          · simp only [if_neg linksHere]
            have restNodup' : (tail :: requests).Nodup := List.nodup_cons.mpr
              ⟨fun mem => tailFresh (List.mem_cons_of_mem _ mem), (List.nodup_cons.mp restNodup).2⟩
            have rest := @ih _ marks _ restNodup' end_tail
            generalize matchLoop isMatch tail requests marks links = after at rest
            have matches_eq : (waitingOf (request :: requests) (mark :: marks)).filter isMatch =
                (waitingOf requests marks).filter isMatch := by
              rw [waitingOf]
              split
              · rename_i waits
                rw [List.filter_cons_of_neg fun isOne => linksHere ⟨waits, isOne⟩]
              · rfl
            refine ⟨?_, ?_, ?_, ?_, rest.prevTail, ?_⟩
            · simp [rest.length]
            · rw [waitingOf, waitingOf]
              split
              · rename_i waits
                have noMatch : isMatch request = false := by
                  simpa using fun isOne => linksHere ⟨waits, isOne⟩
                rw [List.filter_cons_of_pos (by simp [noMatch]), rest.waiting]
              · exact rest.waiting
            · intro noHead
              rw [List.mem_cons, not_or] at noHead ⊢
              exact ⟨noHead.1, rest.noHead noHead.2⟩
            · rw [matches_eq]
              exact rest.segment
            · rw [matches_eq]
              exact rest.frame

def othersOf (rowOid : Addr → Oid) (request : Addr) (requests : List Addr) : List Addr :=
  requests.filter fun other => rowOid other ≠ rowOid request

theorem length_othersOf_le (rowOid : Addr → Oid) (request : Addr) (requests : List Addr) :
    (othersOf rowOid request requests).length ≤ requests.length := List.length_filter_le _ _

def rowsOf (rowOid : Addr → Oid) : List Addr → List (Addr × List Addr)
  | [] => []
  | request :: requests =>
      (request, requests.filter fun other => rowOid other = rowOid request) ::
        rowsOf rowOid (othersOf rowOid request requests)
termination_by requests => requests.length
decreasing_by exact Nat.lt_succ_of_le (length_othersOf_le rowOid request requests)

def cellsOf (row : Addr × List Addr) : List Addr := row.1 :: row.2

section Rows

variable {rowOid : Addr → Oid} {requests : List Addr}

theorem mem_rowsOf {row : Addr × List Addr} (mem : row ∈ rowsOf rowOid requests) :
    cellsOf row = requests.filter fun other => rowOid other = rowOid row.1 := by
  induction requests using rowsOf.induct rowOid with
  | case1 => exact absurd mem (by simp [rowsOf])
  | case2 request requests ih =>
      rw [rowsOf] at mem
      rcases List.mem_cons.mp mem with rfl | mem
      · simp [cellsOf]
      · have cells := ih mem
        have head : row.1 ∈ cellsOf row := List.mem_cons_self
        rw [cells] at head
        have differs : rowOid row.1 ≠ rowOid request := by
          simpa using (List.mem_filter.mp (List.mem_of_mem_filter head)).2
        rw [cells, othersOf, List.filter_filter, List.filter_cons_of_neg (by simpa using differs.symm)]
        apply List.filter_congr
        intro other _
        simp only [ne_eq, decide_not, Bool.and_eq_left_iff_imp, decide_eq_true_eq,
          Bool.not_eq_eq_eq_not, Bool.not_true, decide_eq_false_iff_not]
        intro same
        rw [same]
        exact differs

theorem rowOid_of_mem {row : Addr × List Addr} (mem : row ∈ rowsOf rowOid requests)
    {request : Addr} (inRow : request ∈ cellsOf row) :
    request ∈ requests ∧ rowOid request = rowOid row.1 := by
  rw [mem_rowsOf mem] at inRow
  simpa using inRow

theorem rowsOf_pairwise : (rowsOf rowOid requests).Pairwise fun row row' =>
    rowOid row.1 ≠ rowOid row'.1 := by
  induction requests using rowsOf.induct rowOid with
  | case1 => simp [rowsOf]
  | case2 request requests ih =>
      rw [rowsOf]
      refine List.pairwise_cons.mpr ⟨?_, ih⟩
      intro row mem
      have head : row.1 ∈ othersOf rowOid request requests :=
        (rowOid_of_mem mem List.mem_cons_self).1
      have differs : rowOid row.1 ≠ rowOid request := by simpa using (List.mem_filter.mp head).2
      exact differs.symm

theorem exists_rowsOf {request : Addr} (mem : request ∈ requests) :
    ∃ row ∈ rowsOf rowOid requests, request ∈ cellsOf row := by
  induction requests using rowsOf.induct rowOid with
  | case1 => exact absurd mem (by simp)
  | case2 first requests ih =>
      rw [rowsOf]
      by_cases same : rowOid request = rowOid first
      · refine ⟨_, List.mem_cons_self, ?_⟩
        rcases List.mem_cons.mp mem with rfl | mem
        · exact List.mem_cons_self
        · exact List.mem_cons_of_mem _ (List.mem_filter.mpr ⟨mem, by simpa using same⟩)
      · have later : request ∈ requests := by
          rcases List.mem_cons.mp mem with rfl | mem
          · exact absurd rfl same
          · exact mem
        rcases ih (List.mem_filter.mpr ⟨later, by simpa using same⟩) with ⟨row, rowMem, inRow⟩
        exact ⟨row, List.mem_cons_of_mem _ rowMem, inRow⟩

theorem length_rowsOf : (rowsOf rowOid requests).length = (requests.map rowOid).dedup.length := by
  rw [← List.length_map (fun row => rowOid row.1)]
  apply List.Perm.length_eq
  apply (List.perm_ext_iff_of_nodup _ (List.nodup_dedup _)).mpr
  · intro oid
    rw [List.mem_dedup, List.mem_map, List.mem_map]
    constructor
    · rintro ⟨row, mem, rfl⟩
      exact ⟨row.1, (rowOid_of_mem mem List.mem_cons_self).1, rfl⟩
    · rintro ⟨request, mem, rfl⟩
      rcases @exists_rowsOf rowOid _ _ mem with ⟨row, rowMem, inRow⟩
      exact ⟨row, rowMem, (rowOid_of_mem rowMem inRow).2.symm⟩
  · exact List.pairwise_map.mpr rowsOf_pairwise

end Rows

/-- What the loop over `i` does: the heads of the rows are marked, and each row is linked. -/
structure LinksRows (rowOid : Addr → Oid) (requests : List Addr) (marks marks' : List RowMergeMark)
    (links links' : Links) : Prop where
  length : marks'.length = marks.length
  heads : headsOf requests marks' = (rowsOf rowOid (waitingOf requests marks)).map Prod.fst
  segment : ∀ row ∈ rowsOf rowOid (waitingOf requests marks),
    links'.Segment none (some row.1) (cellsOf row) none
  frame : ∀ other, other ∉ waitingOf requests marks →
    links'.next other = links.next other ∧ links'.prev other = links.prev other

theorem isMatch_eq (rowOid : Addr → Oid) (request other : Addr) :
    decide (snmpOidCompare (rowOid request) (rowOid other) = 0) =
      decide (rowOid other = rowOid request) := by
  apply decide_eq_decide.mpr
  rw [snmpOidCompare_eq_zero_iff]
  exact eq_comm

theorem rowLoop_links (rowOid : Addr → Oid) {requests : List Addr} {marks : List RowMergeMark}
    {links : Links} (nodup : requests.Nodup) (noHead : .head ∉ marks)
    (unlinked : ∀ request ∈ waitingOf requests marks, links.prev request = none) :
    LinksRows rowOid requests marks (rowLoop rowOid requests marks links).1 links
      (rowLoop rowOid requests marks links).2 := by
  induction requests generalizing marks links with
  | nil =>
      refine ⟨rfl, by simp [headsOf, waitingOf, rowsOf], ?_, fun _ _ => ⟨rfl, rfl⟩⟩
      intro row mem
      exact absurd mem (by simp [waitingOf, rowsOf])
  | cons request requests ih =>
      rcases List.nodup_cons.mp nodup with ⟨fresh, restNodup⟩
      cases marks with
      | nil =>
          refine ⟨rfl, by simp [rowLoop, headsOf, waitingOf, rowsOf], ?_, fun _ _ => ⟨rfl, rfl⟩⟩
          intro row mem
          exact absurd mem (by simp [waitingOf, rowsOf])
      | cons mark marks =>
          rcases not_or.mp (mt List.mem_cons.mpr noHead) with ⟨notHead, restNoHead⟩
          rw [rowLoop]
          by_cases waits : mark = .waiting
          · simp only [if_pos waits, isMatch_eq]
            have waiting_eq : waitingOf (request :: requests) (mark :: marks) =
                request :: waitingOf requests marks := by simp [waitingOf, waits]
            rw [waiting_eq] at unlinked
            have linked := @matchLoop_links (fun other => decide (rowOid other = rowOid request))
              request requests marks (links.setNext request none) nodup (by simp)
            generalize matchLoop (fun other => decide (rowOid other = rowOid request)) request
              requests marks (links.setNext request none) = row at linked
            have requestFresh : request ∉ waitingOf requests marks := fun mem =>
              fresh (mem_of_mem_waitingOf mem)
            have others_eq : waitingOf requests row.1 =
                othersOf rowOid request (waitingOf requests marks) := by
              rw [linked.waiting, othersOf]
              apply List.filter_congr
              intro other _
              simp
            have restUnlinked : ∀ other ∈ waitingOf requests row.1, row.2.prev other = none := by
              intro other mem
              rw [others_eq] at mem
              rcases List.mem_filter.mp mem with ⟨mem, differs⟩
              have notRequest : other ≠ request := fun same => requestFresh (same ▸ mem)
              have outside : other ∉ (waitingOf requests marks).filter fun other =>
                  decide (rowOid other = rowOid request) := by
                intro inRow
                have same := (List.mem_filter.mp inRow).2
                simp_all
              rw [(linked.frame other notRequest outside).2]
              exact unlinked other (List.mem_cons_of_mem _ mem)
            have rest := ih restNodup (linked.noHead restNoHead) restUnlinked
            generalize rowLoop rowOid requests row.1 row.2 = after at rest
            have rows_eq : rowsOf rowOid (waitingOf (request :: requests) (mark :: marks)) =
                (request, (waitingOf requests marks).filter fun other =>
                  rowOid other = rowOid request) :: rowsOf rowOid (waitingOf requests row.1) := by
              rw [waiting_eq, rowsOf, others_eq]
            have restFrame (other : Addr) (same : rowOid other = rowOid request) :=
              rest.frame other (by rw [others_eq, othersOf]; simp [same])
            refine ⟨?_, ?_, ?_, ?_⟩
            · simp [rest.length, linked.length]
            · rw [rows_eq, headsOf, if_pos rfl, rest.heads, List.map_cons]
            · intro other mem
              rw [rows_eq] at mem
              rcases List.mem_cons.mp mem with rfl | mem
              · -- the loop behind changes the other rows only
                have own : row.2.Segment none (some request) (request ::
                    (waitingOf requests marks).filter fun other =>
                      decide (rowOid other = rowOid request)) none := by
                  refine ⟨rfl, ?_, linked.segment⟩
                  rw [linked.prevTail]
                  exact unlinked request List.mem_cons_self
                apply own.frame
                intro cell inRow
                apply restFrame
                rcases List.mem_cons.mp inRow with rfl | inRow
                · rfl
                · simpa using (List.mem_filter.mp inRow).2
              · exact rest.segment other mem
            · intro other outside
              rw [waiting_eq, List.mem_cons, not_or] at outside
              have restOutside : other ∉ waitingOf requests row.1 := by
                rw [others_eq]
                exact fun mem => outside.2 (List.mem_of_mem_filter mem)
              have here := linked.frame other outside.1 fun mem =>
                outside.2 (List.mem_of_mem_filter mem)
              rw [(rest.frame other restOutside).1, (rest.frame other restOutside).2, here.1, here.2]
              simp [outside.1]
          · simp only [if_neg waits]
            have waiting_eq : waitingOf (request :: requests) (mark :: marks) =
                waitingOf requests marks := by simp [waitingOf, waits]
            rw [waiting_eq] at unlinked
            have rest := @ih _ links restNodup restNoHead unlinked
            generalize rowLoop rowOid requests marks links = after at rest
            refine ⟨?_, ?_, ?_, ?_⟩
            · simp [rest.length]
            · rw [waiting_eq, headsOf, if_neg (Ne.symm notHead), rest.heads]
            · rw [waiting_eq]
              exact rest.segment
            · rw [waiting_eq]
              exact rest.frame

def callsOf (status : RowMergeStatus) (links : Links) (heads : List Addr) : List RowCall :=
  heads.mapIdx fun i head => rowCall { status with current := status.current + i + 1 } links head

theorem callLoop_eq (links : Links) (requests : List Addr) (marks : List RowMergeMark)
    (status : RowMergeStatus) : callLoop links requests marks status =
      (callsOf status links (headsOf requests marks),
        { status with current := status.current + (headsOf requests marks).length }) := by
  induction requests generalizing marks status with
  | nil => rfl
  | cons request requests ih =>
      cases marks with
      | nil => rfl
      | cons mark marks =>
          rw [callLoop, headsOf]
          split
          · simp only [ih]
            have shift (i : Nat) : status.current + 1 + i + 1 = status.current + (i + 1) + 1 := by
              omega
            simp only [callsOf, List.mapIdx_cons, List.length_cons, shift, Nat.add_zero]
            have total : status.current + 1 + (headsOf requests marks).length =
                status.current + ((headsOf requests marks).length + 1) := by omega
            rw [total]
          · exact ih marks status

theorem restoreLoop_segment {before : Option Addr} {requests : List Addr} {links : Links}
    (nodup : requests.Nodup)
    (first : before = none → ∀ request ∈ requests.head?, links.prev request = none) :
    (restoreLoop before requests links).Segment before requests.head? requests none ∧
      ∀ other ∉ requests, (restoreLoop before requests links).next other = links.next other ∧
        (restoreLoop before requests links).prev other = links.prev other := by
  induction requests generalizing before links with
  | nil => exact ⟨rfl, fun _ _ => ⟨rfl, rfl⟩⟩
  | cons request requests ih =>
      rcases List.nodup_cons.mp nodup with ⟨fresh, nodup⟩
      rw [restoreLoop]
      generalize changed_eq : (if before.isSome = true then
        (links.setNext request requests.head?).setPrev request before
        else links.setNext request requests.head?) = changed
      have next_request : changed.next request = requests.head? := by
        rw [← changed_eq]
        split
        · simp
        · simp
      have prev_request : changed.prev request = before := by
        rw [← changed_eq]
        cases before with
        | none => exact first rfl request rfl
        | some before => simp
      have changedFrame (other : Addr) (differs : other ≠ request) :
          changed.next other = links.next other ∧ changed.prev other = links.prev other := by
        rw [← changed_eq]
        split
        · simp [differs]
        · simp [differs]
      rcases @ih (some request) changed nodup nofun with ⟨segment, frame⟩
      have own := frame request fresh
      refine ⟨⟨rfl, own.2.trans prev_request, ?_⟩, ?_⟩
      · rw [own.1, next_request]
        exact segment
      · intro other outside
        rw [List.mem_cons, not_or] at outside
        rw [(frame other outside.2).1, (frame other outside.2).2]
        exact changedFrame other outside.1

theorem segment_links {links links' : Links} {before start stop : Option Addr} {cells : List Addr}
    (segment : links.Segment before start cells stop)
    (segment' : links'.Segment before start cells stop) :
    ∀ cell ∈ cells, links.next cell = links'.next cell ∧ links.prev cell = links'.prev cell := by
  induction cells generalizing before start with
  | nil => exact nofun
  | cons first cells ih =>
      rcases segment with ⟨-, prev_eq, rest⟩
      rcases segment' with ⟨-, prev_eq', rest'⟩
      have next_eq : links.next first = links'.next first := by
        rw [rest.start_eq, rest'.start_eq]
      intro cell mem
      rcases List.mem_cons.mp mem with rfl | mem
      · exact ⟨next_eq, prev_eq.trans prev_eq'.symm⟩
      · rw [← next_eq] at rest'
        exact ih rest rest' cell mem

theorem foldl_setPrev (requests : List Addr) (links : Links) :
    (∀ request ∈ requests, (requests.foldl (fun links request => links.setPrev request none)
      links).prev request = none) ∧
    (requests.foldl (fun links request => links.setPrev request none) links).next = links.next ∧
    ∀ other ∉ requests, (requests.foldl (fun links request => links.setPrev request none)
      links).prev other = links.prev other := by
  induction requests generalizing links with
  | nil => exact ⟨nofun, rfl, fun _ _ => rfl⟩
  | cons request requests ih =>
      rcases ih (links.setPrev request none) with ⟨unlinked, next_eq, frame⟩
      refine ⟨?_, next_eq, ?_⟩
      · intro other mem
        by_cases later : other ∈ requests
        · exact unlinked other later
        · rcases List.mem_cons.mp mem with rfl | mem
          · rw [List.foldl_cons, frame other later]
            simp
          · exact absurd mem later
      · intro other outside
        rw [List.mem_cons, not_or] at outside
        rw [List.foldl_cons, frame other outside.2]
        simp [outside.1]

/-- What the calls leave in the status: arrays for the requests, and no rows without requests. -/
structure KeepsCount (status : RowMergeStatus) : Prop where
  saved : 2 ≤ status.count → status.saved = status.count
  rows : status.count = 0 → status.rows = 0

theorem links_ext {links links' : Links} (same : ∀ cell, links.next cell = links'.next cell ∧
    links.prev cell = links'.prev cell) : links = links' := by
  cases links
  cases links'
  congr
  · exact funext fun cell => (same cell).1
  · exact funext fun cell => (same cell).2

section Call

variable {skipOid : Nat}

/-- What is known of the rows when the next handler is called. -/
structure MergedRows (call : MergeCall skipOid) (merged : List RowMergeMark × Links) : Prop where
  length : merged.1.length = call.requests.length
  heads : headsOf call.requests merged.1 = (rowsOf call.rowOid call.unprocessed).map Prod.fst
  segment : ∀ row ∈ rowsOf call.rowOid call.unprocessed,
    merged.2.Segment none (some row.1) (cellsOf row) none
  first : ∀ request ∈ call.requests.head?, merged.2.prev request = none
  frame : ∀ other ∉ call.requests,
    merged.2.next other = call.links.next other ∧ merged.2.prev other = call.links.prev other

theorem waitingOf_unprocessed (call : MergeCall skipOid) :
    waitingOf call.requests (call.requests.map fun request =>
      if (call.info request).processed then RowMergeMark.done else .waiting) = call.unprocessed :=
  waitingOf_map (fun request => (call.info request).processed) call.requests

theorem mergeRows_merged (call : MergeCall skipOid) :
    MergedRows call (mergeRows skipOid call.info call.links call.requests) := by
  rcases foldl_setPrev call.requests call.links with ⟨unlinked, next_eq, prevFrame⟩
  have noHead : .head ∉ call.requests.map fun request =>
      if (call.info request).processed then RowMergeMark.done else .waiting := by
    intro mem
    rcases List.mem_map.mp mem with ⟨request, -, mark_eq⟩
    split at mark_eq
    · nomatch mark_eq
    · nomatch mark_eq
  have linked := rowLoop_links call.rowOid call.linked.nodup noHead fun request mem =>
    unlinked request (mem_of_mem_waitingOf mem)
  rw [mergeRows]
  change MergedRows call (rowLoop call.rowOid call.requests _ _)
  generalize call.requests.foldl (fun links request => links.setPrev request none) call.links =
    setUp at linked unlinked next_eq prevFrame
  generalize marks_eq : (call.requests.map fun request =>
    if (call.info request).processed then RowMergeMark.done else .waiting) = marks at linked
  have waiting_eq : waitingOf call.requests marks = call.unprocessed := by
    rw [← marks_eq, waitingOf_unprocessed]
  generalize rowLoop call.rowOid call.requests marks setUp = merged at linked
  refine ⟨?_, ?_, ?_, ?_, ?_⟩
  · rw [linked.length, ← marks_eq, List.length_map]
  · rw [linked.heads, waiting_eq]
  · rw [← waiting_eq]
    exact linked.segment
  · -- the first request is the head of a row, or it is not waiting
    intro request isFirst
    have mem := List.mem_of_mem_head? isFirst
    by_cases waits : request ∈ waitingOf call.requests marks
    · have isHead : ∃ row ∈ rowsOf call.rowOid (waitingOf call.requests marks),
          row.1 = request := by
        cases requests_eq : call.requests with
        | nil => exact absurd isFirst (by simp [requests_eq])
        | cons first requests =>
            have first_eq : first = request := by simpa [requests_eq] using isFirst
            have fresh := call.linked.nodup
            rw [requests_eq, List.nodup_cons] at fresh
            rw [requests_eq] at waits
            cases marks with
            | nil => exact absurd waits (by simp [waitingOf])
            | cons mark marks =>
                by_cases isWaiting : mark = .waiting
                · simp [waitingOf, isWaiting, rowsOf, first_eq]
                · rw [waitingOf, if_neg isWaiting] at waits
                  exact absurd (first_eq ▸ mem_of_mem_waitingOf waits) fresh.1
      rcases isHead with ⟨row, rowMem, rfl⟩
      exact (linked.segment row rowMem).2.1
    · rw [(linked.frame request waits).2]
      exact unlinked request mem
  · intro other outside
    have notWaiting : other ∉ waitingOf call.requests marks := fun mem =>
      outside (mem_of_mem_waitingOf mem)
    rw [(linked.frame other notWaiting).1, (linked.frame other notWaiting).2, next_eq,
      prevFrame other outside]
    exact ⟨rfl, rfl⟩

theorem MergedRows.restored {call : MergeCall skipOid} {merged : List RowMergeMark × Links}
    (rows : MergedRows call merged) : restoreLoop none call.requests merged.2 = call.links := by
  rcases @restoreLoop_segment none _ _ call.linked.nodup fun _ => rows.first with
    ⟨segment, frame⟩
  apply links_ext
  intro cell
  by_cases mem : cell ∈ call.requests
  · have original := call.linked.segment
    rw [call.linked.head_eq] at original
    exact segment_links segment original cell mem
  · rw [(frame cell mem).1, (frame cell mem).2]
    exact rows.frame cell mem

theorem MergedRows.count_heads {call : MergeCall skipOid} {merged : List RowMergeMark × Links}
    (rows : MergedRows call merged) : merged.1.count .head = call.rowCount := by
  rw [count_head_eq call.requests merged.1 rows.length, rows.heads, List.length_map, length_rowsOf]
  rfl

def knownRows (call : MergeCall skipOid) (status : RowMergeStatus) : Nat :=
  if status.count ≠ 0 ∧ status.count = call.requests.length then status.rows else call.rowCount

def statusInCall (call : MergeCall skipOid) (status : RowMergeStatus) : RowMergeStatus :=
  { count := call.requests.length
    rows := knownRows call status
    saved := call.requests.length }

theorem rowMergeHelperHandler_many (info : Addr → RowRequest) (nextHandler : RowCall → Int)
    (status : RowMergeStatus) (links : Links) {requests : List Addr} (many : requests.length ≠ 1) :
    rowMergeHelperHandler skipOid info nextHandler status links requests =
      if (countRequests status requests.length).saved < requests.length then none
      else
        let merged := mergeRows skipOid info links requests
        let status := countRows (countRequests status requests.length) requests.length
          (merged.1.count .head)
        let called := callLoop merged.2 requests merged.1 status
        some
          { calls := called.1
            links := restoreLoop none requests merged.2
            status := called.2
            rc := ((called.1.map nextHandler).find? (· ≠ 0)).getD 0 } := by
  cases requests with
  | nil => rfl
  | cons request requests =>
      cases requests with
      | nil => exact absurd rfl many
      | cons next requests => rfl

theorem countRequests_ready {status : RowMergeStatus} (keeps : KeepsCount status)
    (call : MergeCall skipOid) (many : call.requests.length ≠ 1) :
    (countRequests status call.requests.length).saved = call.requests.length ∧
      countRows (countRequests status call.requests.length) call.requests.length call.rowCount =
        statusInCall call status := by
  by_cases fresh : status.count = 0
  · simp [countRequests, countRows, fresh, statusInCall, knownRows, keeps.rows fresh]
  · by_cases same : status.count = call.requests.length
    · have saved := keeps.saved (by omega)
      simp [countRequests, countRows, ← same, fresh, statusInCall, knownRows, saved]
    · simp [countRequests, countRows, same, fresh, statusInCall, knownRows]

theorem keepsCount_statusInCall (call : MergeCall skipOid) (status : RowMergeStatus)
    (current : Nat) : KeepsCount { statusInCall call status with current := current } := by
  refine ⟨fun _ => rfl, ?_⟩
  intro empty
  have none : call.requests = [] := List.length_eq_zero_iff.mp empty
  have noRow : call.rowCount = 0 := by simp [MergeCall.rowCount, MergeCall.unprocessed, none]
  simp only [statusInCall, knownRows, noRow, none]
  exact if_neg fun both => both.1 both.2

theorem run_many {status : RowMergeStatus} (keeps : KeepsCount status) (call : MergeCall skipOid)
    (nextHandler : RowCall → Int) (many : call.requests.length ≠ 1) :
    ∃ merged result, MergedRows call merged ∧ call.run nextHandler status = some result ∧
      result.calls = callsOf (statusInCall call status) merged.2
        ((rowsOf call.rowOid call.unprocessed).map Prod.fst) ∧
      result.links = call.links ∧ KeepsCount result.status := by
  have merged := mergeRows_merged call
  rcases countRequests_ready keeps call many with ⟨saved, ready⟩
  rw [MergeCall.run, rowMergeHelperHandler_many call.info nextHandler status call.links many]
  generalize mergeRows skipOid call.info call.links call.requests = rows at merged
  simp only [saved, lt_irrefl, if_false, merged.count_heads, ready, callLoop_eq, merged.restored]
  refine ⟨rows, _, merged, rfl, ?_, rfl, keepsCount_statusInCall call status _⟩
  rw [merged.heads]

theorem run_one (status : RowMergeStatus) (call : MergeCall skipOid)
    (nextHandler : RowCall → Int) {request : Addr} (one : call.requests = [request]) :
    ∃ result, call.run nextHandler status = some result ∧
      result.calls = (if (call.info request).processed then []
        else [{ head := request, links := call.links, first := true, last := true }]) ∧
      result.links = call.links ∧ KeepsCount result.status := by
  rw [MergeCall.run, one, rowMergeHelperHandler]
  cases (call.info request).processed with
  | false => exact ⟨_, rfl, rfl, rfl, fun many => absurd many (by simp), fun none => nomatch none⟩
  | true => exact ⟨_, rfl, rfl, rfl, fun many => absurd many (by simp), fun none => nomatch none⟩

theorem callsOf_forall₂ {R : RowCall → List Addr → Prop} {status : RowMergeStatus} {links : Links}
    {rows : List (Addr × List Addr)}
    (each : ∀ row ∈ rows, ∀ status, R (rowCall status links row.1) (cellsOf row)) :
    List.Forall₂ R (callsOf status links (rows.map Prod.fst)) (rows.map cellsOf) := by
  induction rows generalizing status with
  | nil => exact .nil
  | cons row rows ih =>
      have rest := @ih { status with current := status.current + 1 }
        fun other mem => each other (List.mem_cons_of_mem _ mem)
      have shift (i : Nat) : status.current + 1 + i + 1 = status.current + (i + 1) + 1 := by omega
      simp only [callsOf, shift] at rest
      simp only [callsOf, List.map_cons, List.mapIdx_cons]
      exact .cons (each row List.mem_cons_self _) rest

theorem getElem?_callsOf {status : RowMergeStatus} {links : Links} {heads : List Addr} {i : Nat}
    {delivery : RowCall} (found : (callsOf status links heads)[i]? = some delivery) :
    ∃ head, delivery = rowCall { status with current := status.current + i + 1 } links head := by
  rw [callsOf, List.getElem?_mapIdx] at found
  rcases Option.map_eq_some_iff.mp found with ⟨head, -, rfl⟩
  exact ⟨head, rfl⟩

theorem deliversRows_many {call : MergeCall skipOid} {merged : List RowMergeMark × Links}
    (rows : MergedRows call merged) (status : RowMergeStatus) :
    DeliversRows call (callsOf status merged.2
      ((rowsOf call.rowOid call.unprocessed).map Prod.fst)) := by
  have isRow {row : List Addr}
      (mem : row ∈ (rowsOf call.rowOid call.unprocessed).map cellsOf) :
      ∃ request ∈ row, row = call.unprocessed.filter fun other =>
        call.rowOid other = call.rowOid request := by
    rcases List.mem_map.mp mem with ⟨row, rowMem, rfl⟩
    exact ⟨row.1, List.mem_cons_self, mem_rowsOf rowMem⟩
  refine ⟨(rowsOf call.rowOid call.unprocessed).map cellsOf, ?_, fun _ => isRow, ?_, ?_⟩
  · apply callsOf_forall₂
    intro row mem status
    refine ⟨rows.segment row mem, ?_⟩
    rw [mem_rowsOf mem]
    exact (call.linked.nodup.filter _).filter _
  · apply List.pairwise_map.mpr
    apply rowsOf_pairwise.imp_of_mem
    intro row row' mem mem' differ request inRow request' inRow' same
    apply differ
    rw [← (rowOid_of_mem mem inRow).2, ← (rowOid_of_mem mem' inRow').2, same]
  · intro request mem
    rcases @exists_rowsOf call.rowOid _ _ mem with ⟨row, rowMem, inRow⟩
    exact ⟨cellsOf row, List.mem_map_of_mem rowMem, inRow⟩

theorem mergesRows_many {status : RowMergeStatus} {call : MergeCall skipOid}
    {merged : List RowMergeMark × Links} {result : RowMergeResult}
    (many : call.requests.length ≠ 1) (rows : MergedRows call merged)
    (calls : result.calls = callsOf (statusInCall call status) merged.2
      ((rowsOf call.rowOid call.unprocessed).map Prod.fst))
    (restored : result.links = call.links) :
    MergesRows call result ↔ RemembersRows status call := by
  have length_eq : result.calls.length = call.rowCount := by
    rw [calls, callsOf, List.length_mapIdx, List.length_map, length_rowsOf]
    rfl
  have of_call {i : Nat} {delivery : RowCall} (found : result.calls[i]? = some delivery) :
      (delivery.first = true ↔ i = 0) ∧
        (delivery.last = true ↔ i + 1 = knownRows call status) := by
    rw [calls] at found
    rcases getElem?_callsOf found with ⟨head, rfl⟩
    simp [rowCall, statusFirst, statusLast, statusInCall, many]
  constructor
  · intro merges _ same someRow
    have inCalls : call.rowCount - 1 < result.calls.length := by omega
    have found := List.getElem?_eq_getElem inCalls
    have known := (of_call found).2.mp ((merges.last _ _ found).mpr (by omega))
    rw [knownRows, if_pos ⟨by omega, same⟩] at known
    omega
  · intro remembers
    refine ⟨?_, restored, fun i delivery found => (of_call found).1, ?_⟩
    · rw [calls]
      exact deliversRows_many rows _
    · intro i delivery found
      rw [(of_call found).2]
      have inCalls : i < result.calls.length := (List.getElem?_eq_some_iff.mp found).1
      have known : knownRows call status = call.rowCount := by
        rw [knownRows]
        split
        · rename_i same
          exact remembers (by omega) same.2 (by omega)
        · rfl
      rw [known, length_eq]

theorem mergesRows_one {call : MergeCall skipOid} {result : RowMergeResult} {request : Addr}
    (one : call.requests = [request])
    (calls : result.calls = if (call.info request).processed then []
      else [{ head := request, links := call.links, first := true, last := true }])
    (restored : result.links = call.links) : MergesRows call result := by
  cases processed_eq : (call.info request).processed with
  | true =>
      have noRequest : call.unprocessed = [] := by simp [MergeCall.unprocessed, one, processed_eq]
      rw [processed_eq, if_pos rfl] at calls
      refine ⟨⟨[], ?_⟩, restored, ?_, ?_⟩
      · rw [calls, noRequest]
        exact ⟨.nil, nofun, .nil, nofun⟩
      · simp [calls]
      · simp [calls]
  | false =>
      have itself : call.unprocessed = [request] := by
        simp [MergeCall.unprocessed, one, processed_eq]
      rw [processed_eq, if_neg (by simp)] at calls
      have linked := call.linked
      rw [linked.head_eq, one] at linked
      refine ⟨⟨[[request]], ?_⟩, restored, ?_, ?_⟩
      · rw [calls, itself]
        refine ⟨.cons linked .nil, ?_, List.pairwise_singleton _ _, ?_⟩
        · simp
        · simp
      · intro i delivery found
        cases i with
        | zero =>
            rw [calls] at found
            cases found
            simp
        | succ i => simp [calls] at found
      · intro i delivery found
        cases i with
        | zero =>
            rw [calls] at found
            cases found
            simp [calls]
        | succ i => simp [calls] at found

theorem run_keeps {status : RowMergeStatus} (keeps : KeepsCount status) (call : MergeCall skipOid)
    (nextHandler : RowCall → Int) :
    ∃ result, call.run nextHandler status = some result ∧ KeepsCount result.status ∧
      (MergesRows call result ↔ RemembersRows status call) := by
  by_cases many : call.requests.length = 1
  · rcases List.length_eq_one_iff.mp many with ⟨request, one⟩
    rcases run_one status call nextHandler one with ⟨result, run_eq, calls, restored, keeps⟩
    refine ⟨result, run_eq, keeps, iff_of_true (mergesRows_one one calls restored) ?_⟩
    intro two
    omega
  · rcases run_many keeps call nextHandler many with
      ⟨merged, result, rows, run_eq, calls, restored, keeps⟩
    exact ⟨result, run_eq, keeps, mergesRows_many many rows calls restored⟩

theorem statusAfter_keeps (nextHandler : RowCall → Int) (calls : List (MergeCall skipOid)) :
    ∃ status, statusAfter nextHandler calls = some status ∧ KeepsCount status := by
  induction calls using List.reverseRecOn with
  | nil => exact ⟨{}, rfl, nofun, fun _ => rfl⟩
  | append_singleton calls call ih =>
      rcases ih with ⟨status, status_eq, keeps⟩
      rcases run_keeps keeps call nextHandler with ⟨result, run_eq, keeps, -⟩
      refine ⟨result.status, ?_, keeps⟩
      rw [statusAfter] at status_eq ⊢
      rw [List.foldl_concat, status_eq, Option.bind_some, run_eq, Option.map_some]

end Call

/-- The calls are served as they should be if and only if the number of rows that is remembered is
always the one of the call. -/
theorem mergesAll_iff {skipOid : Nat} (nextHandler : RowCall → Int)
    (calls : List (MergeCall skipOid)) :
    MergesAll nextHandler calls ↔ ∀ before call after, calls = before ++ call :: after →
      ∃ status, statusAfter nextHandler before = some status ∧ RemembersRows status call := by
  have each (before : List (MergeCall skipOid)) (call : MergeCall skipOid) :
      (∃ status result, statusAfter nextHandler before = some status ∧
        call.run nextHandler status = some result ∧ MergesRows call result) ↔
      ∃ status, statusAfter nextHandler before = some status ∧ RemembersRows status call := by
    rcases statusAfter_keeps nextHandler before with ⟨status, status_eq, keeps⟩
    rcases run_keeps keeps call nextHandler with ⟨result, run_eq, -, merges_iff⟩
    simp [status_eq, run_eq, merges_iff]
  constructor
  · intro merges before call after split
    exact (each before call).mp (merges before call after split)
  · intro remembers before call after split
    exact (each before call).mpr (remembers before call after split)

def twoRows (processed : Bool) : MergeCall 1 where
  info request := if request = 1 then { name := [1, 1], processed }
    else { name := [1, 2], processed := false }
  links :=
    { next := fun request => if request = 1 then some 2 else none
      prev := fun request => if request = 2 then some 1 else none }
  head := some 1
  requests := [1, 2]
  linked := ⟨⟨rfl, rfl, rfl, rfl, rfl⟩, by decide⟩
  long := by
    cases processed with
    | false => decide
    | true => decide

/-- The first of two rows is done when the helper is called again: the second one, which is the only
one then, is not the last one. -/
theorem not_mergesAll : ¬∀ (skipOid : Nat) (nextHandler : RowCall → Int)
    (calls : List (MergeCall skipOid)), MergesAll nextHandler calls := by
  intro all
  rcases all 1 (fun _ => 0) [twoRows false, twoRows true] [twoRows false] (twoRows true) [] rfl with
    ⟨status, result, status_eq, run_eq, merges⟩
  have after : statusAfter (fun _ => 0) [twoRows false] = some ⟨2, 2, 2, 2⟩ := by decide +kernel
  rw [after] at status_eq
  rcases Option.some.inj status_eq with rfl
  have marked : ((twoRows true).run (fun _ => 0) ⟨2, 2, 2, 2⟩).map
      (fun result => result.calls.map RowCall.last) = some [false] := by decide +kernel
  rw [run_eq] at marked
  have lasts : result.calls.map RowCall.last = [false] := Option.some.inj marked
  rcases List.map_eq_singleton_iff.mp lasts with ⟨delivery, calls_eq, notLast⟩
  have isLast := (merges.last 0 delivery (by rw [calls_eq]; rfl)).mpr (by rw [calls_eq]; rfl)
  rw [notLast] at isLast
  nomatch isLast

end RowMerge

end NetSnmp
