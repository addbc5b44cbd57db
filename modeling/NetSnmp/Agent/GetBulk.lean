import NetSnmp.Agent.TrapConversion
import NetSnmp.LinkedNodes

/-!
# GETBULK requests

How `netsnmp_create_subtree_cache` lays out the variables of a GETBULK request, and how
`_reorder_getbulk` puts the results into rows. Allocation succeeds.
-/

namespace NetSnmp

structure GetbulkConfig where
  /-- `NETSNMP_DS_AGENT_MAX_GETBULKREPEATS` -/
  maxGetbulkrepeats : Int := 0
  /-- `NETSNMP_DS_AGENT_MAX_GETBULKRESPONSES` -/
  maxGetbulkresponses : Int := 0
  /-- `NETSNMP_DS_AGENT_AVG_BULKVARBINDSIZE` -/
  avgBulkvarbindsize : Int := 0
  msgMaxSize : Int := 65507

/-- A GETBULK request keeps `non_repeaters` in `errstat` and `max_repetitions` in `errindex`. -/
structure GetbulkRequest where
  variableList : List VariableList
  errstat : Int
  errindex : Int

/-- The largest number of responses: `INT_MAX / sizeof(struct varbind_list *)`. -/
def maxResponseVector : Int := 2147483647 / 8

/-- The largest number of repetitions of `r` varbinds. -/
def maxRepeats (config : GetbulkConfig) (r : Nat) : Int :=
  let maxresponses := if config.maxGetbulkresponses = 0 then 100 else config.maxGetbulkresponses
  let maxresponses :=
    if maxresponses < 0 ∨ maxResponseVector < maxresponses then maxResponseVector else maxresponses
  let avgvarbind := if config.avgBulkvarbindsize ≤ 0 then 15 else config.avgBulkvarbindsize
  let maxresponses := min maxresponses (config.msgMaxSize.tdiv avgvarbind)
  let maxbulk := config.maxGetbulkrepeats
  if maxbulk ≤ 0 ∨ maxresponses.tdiv r < maxbulk then maxresponses.tdiv r else maxbulk

/-- The number of varbinds that are not repeated. -/
def GetbulkRequest.nonRepeaters (request : GetbulkRequest) : Nat :=
  min request.errstat.toNat request.variableList.length

def GetbulkRequest.repeaters (request : GetbulkRequest) : Nat :=
  request.variableList.length - request.nonRepeaters

/-- The number of repetitions, `errindex` after it is lowered. -/
def GetbulkRequest.repeats (request : GetbulkRequest) (config : GetbulkConfig) : Nat :=
  if request.repeaters = 0 then request.errindex.toNat
  else (min request.errindex (maxRepeats config request.repeaters)).toNat

abbrev BulkNode := Nat × Nat

/-- The list of variables, by its links, and `bulkcache`. -/
structure BulkList where
  head : Option BulkNode
  next : BulkNode → Option BulkNode
  bulkcache : List BulkNode := []
  vbcount : Nat

def receivedList (vbcount : Nat) : BulkList where
  head := if 0 < vbcount then some (0, 0) else none
  next := fun (varbind, _) => if varbind + 1 < vbcount then some (varbind + 1, 0) else none
  vbcount := vbcount

def BulkList.repeatVarbind (list : BulkList) (repeats varbind : Nat) (vbsave : Option BulkNode) :
    BulkList :=
  let next := (List.range (repeats - 1)).foldl
    (fun next i => Function.update next (varbind, i) (some (varbind, i + 1))) list.next
  { list with
    next := Function.update next (varbind, repeats - 1) vbsave
    bulkcache := list.bulkcache ++ (List.range repeats).map fun i => (varbind, i) }

def BulkList.dropVarbind (list : BulkList) (prevNext : Option BulkNode) (varbind : Nat) :
    BulkList :=
  let rest := list.next (varbind, 0)
  let list :=
    match prevNext with
    | none => { list with head := rest }
    | some prev => { list with next := Function.update list.next prev rest }
  { list with
    next := Function.update list.next (varbind, 0) none
    vbcount := list.vbcount - 1 }

/-- The loop over the variables of the request, which are at the positions `varbinds`; `prevNext`
is the variable with the link to the present one, or `none` for the head of the list. -/
def BulkList.collect (repeats : Nat) (n : Nat) (prevNext : Option BulkNode) (varbinds : List Nat)
    (list : BulkList) : BulkList :=
  match varbinds, n with
  | [], _ => list
  | varbind :: varbinds, n + 1 => list.collect repeats n (some (varbind, 0)) varbinds
  | varbind :: varbinds, 0 =>
      if 0 < repeats then
        (list.repeatVarbind repeats varbind (varbinds.head?.map fun vbsave => (vbsave, 0))).collect
          repeats 0 (some (varbind, 0)) varbinds
      else (list.dropVarbind prevNext varbind).collect repeats 0 prevNext varbinds

/-- `netsnmp_create_subtree_cache`, what it does to the list of a GETBULK request. -/
def createBulkList (config : GetbulkConfig) (request : GetbulkRequest) : BulkList :=
  (receivedList request.variableList.length).collect (request.repeats config) request.nonRepeaters
    none (List.range request.variableList.length)

structure BulkResults extends BulkList where
  var : BulkNode → VariableList

/-- `bulkcache[pos]` -/
def BulkList.cached (list : BulkList) (pos : Nat) : BulkNode := list.bulkcache.getD pos (0, 0)

/-- An entry without a name or with the type `endOfMibView`. -/
def isEnd (var : VariableList) : Bool := var.name.length = 0 ∨ var.type = snmpEndofmibview

/-- An `endOfMibView` entry takes the name of the previous one, or of a variable of the original
request. -/
def fixEntry (origVariables : List VariableList) (i : Nat) (var : BulkNode → VariableList)
    (prev : Option BulkNode) (curr : BulkNode) : BulkNode → VariableList :=
  if isEnd (var curr) then
    match prev.elim (origVariables[i]?.map (·.name)) (fun node => some (var node).name) with
    | some name => Function.update var curr ⟨name, snmpEndofmibview, .string []⟩
    | none => var
  else var

def BulkList.fixColumn (list : BulkList) (origVariables : List VariableList) (repeats : Nat)
    (var : BulkNode → VariableList) (i : Nat) : BulkNode → VariableList :=
  ((List.range repeats).foldl
    (fun (var, prev) j =>
      (fixEntry origVariables i var prev (list.cached (i * repeats + j)),
        some (list.cached (i * repeats + j))))
    (var, none)).1

def BulkList.linkColumn (list : BulkList) (repeats : Nat) (next : BulkNode → Option BulkNode)
    (i : Nat) : BulkNode → Option BulkNode :=
  (List.range repeats).foldl
    (fun next j => Function.update next (list.cached (i * repeats + j))
      (some (list.cached ((i + 1) * repeats + j)))) next

def BulkList.linkLast (list : BulkList) (r repeats : Nat) (next : BulkNode → Option BulkNode) :
    BulkNode → Option BulkNode :=
  (List.range (repeats - 1)).foldl
    (fun next j => Function.update next (list.cached ((r - 1) * repeats + j))
      (some (list.cached (j + 1)))) next

/-- The walk along a row: its last node, if all before it are `endOfMibView`. -/
def BulkResults.rowEnd (results : BulkResults) (steps : Nat) (prev : BulkNode) : Option BulkNode :=
  match steps with
  | 0 => some prev
  | steps + 1 =>
      if (results.var prev).type ≠ snmpEndofmibview then none
      else (results.next prev).bind (results.rowEnd steps)

/-- The list ends behind the first row that is taken for a full row of `endOfMibView`. -/
def BulkResults.cut (results : BulkResults) (r : Nat) (rows : List Nat) : BulkResults :=
  match rows with
  | [] => results
  | i :: rows =>
      if (results.var (results.cached i)).type = snmpEndofmibview then
        match results.rowEnd (r - 1) (results.cached i) with
        | some prev => { results with next := Function.update results.next prev none }
        | none => results.cut r rows
      else results.cut r rows

def reorderGetbulk (origVariables : List VariableList) (errstat : Int) (repeats : Nat)
    (results : BulkResults) : BulkResults :=
  if results.vbcount = 0 then results
  else
    let n := if errstat < results.vbcount then errstat.toNat else results.vbcount
    let r := results.vbcount - n
    if r = 0 then results
    else
      let list := results.toBulkList
      let var := (List.range r).foldl (list.fixColumn origVariables repeats) results.var
      let next := (List.range (r - 1)).foldl (list.linkColumn repeats) results.next
      let next := list.linkLast r repeats next
      BulkResults.cut { results with var := var, next := next } r (List.range repeats)

/-- A GETBULK request whose handlers leave these contents in the variables. -/
def getbulk (config : GetbulkConfig) (request : GetbulkRequest) (var : BulkNode → VariableList) :
    BulkResults :=
  reorderGetbulk (copyVarlist request.variableList 10000) (max request.errstat 0)
    (request.repeats config) { createBulkList config request with var := var }

end NetSnmp
