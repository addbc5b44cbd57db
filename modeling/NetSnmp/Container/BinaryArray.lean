import NetSnmp.Machine

/-!
# Binary-array containers

A container that keeps its elements in an array, sorted by need: elements that are
put in unsorted only mark the array as dirty.  Indexes of elements are of type
`int` in the searches.  A result `none` stands for an access outside of the array.
-/

namespace NetSnmp

variable {α : Type}

/-- The container with its flags, and `binary_array_table`: the array up to `count`. -/
structure BinaryArray (α : Type) where
  data : List α := []
  dirty : Bool := false
  /-- `CONTAINER_KEY_ALLOW_DUPLICATES` -/
  allowDuplicates : Bool := false
  /-- `CONTAINER_KEY_UNSORTED` -/
  unsorted : Bool := false
  deriving DecidableEq, Repr

namespace BinaryArray

/-- What a search returns, and what it writes to `next`. -/
structure Found where
  index : Int
  next : Option Nat
  deriving DecidableEq, Repr

section

variable (compare : α → α → Int) (qsort : List α → List α)

def sortArray (c : BinaryArray α) : BinaryArray α :=
  if c.unsorted then c
  else if c.dirty then { c with data := qsort c.data, dirty := false }
  else c

/-- The loop of `linear_search`. -/
def linearSearchLoop (val : α) : (pos : Nat) → List α → Int
  | _, [] => -1
  | pos, entry :: rest =>
      if compare entry val = 0 then toCInt pos else linearSearchLoop val (pos + 1) rest

def linearSearch (val : α) (c : BinaryArray α) : Int :=
  if !c.unsorted then -1 else linearSearchLoop compare val 0 c.data

/-- The loop of `binary_search`: `first`, `middle` and `result` at its end. -/
def binarySearchLoop (val : α) (data : List α) (len first middle : Nat) (result : Int)
    (inside : first + len ≤ data.length) : Nat × Nat × Int :=
  if positive : 0 < len then
    let half := len / 2
    let middle := first + half
    let result := compare (data.get ⟨middle, by omega⟩) val
    if result < 0 then
      binarySearchLoop val data (len - half - 1) (middle + 1) middle result (by omega)
    else if result = 0 then (middle, middle, result)
    else binarySearchLoop val data half first middle result (by omega)
  else (first, middle, result)
termination_by len

/-- The end of `binary_search`, from its loop on. -/
def searchSorted (val : α) (data : List α) (exact : Bool) : Found :=
  let (first, middle, result) :=
    binarySearchLoop compare val data data.length 0 0 0 (by simp)
  if inside : first < data.length then
    -- the last comparison need not have been with `first`
    let result := if first ≠ middle then compare (data.get ⟨first, inside⟩) val else result
    if result = 0 then
      if exact then ⟨toCInt first, some (first + 1)⟩
      else if first + 1 = data.length then ⟨-1, some (first + 1)⟩
      else ⟨toCInt (first + 1 : Nat), none⟩
    else if exact then ⟨-1, some (if 0 < result then first else data.length)⟩
    else ⟨toCInt first, none⟩
  else ⟨-1, if exact then some data.length else none⟩

def binarySearch (val : α) (c : BinaryArray α) (exact : Bool) : BinaryArray α × Found :=
  if c.data.length = 0 then (c, ⟨-1, some 0⟩)
  else if c.unsorted then
    if !exact then (c, ⟨-1, none⟩) else (c, ⟨linearSearch compare val c, none⟩)
  else
    let c := sortArray qsort c
    (c, searchSorted compare val c.data exact)

/-- The loop of `netsnmp_binary_array_get` that skips elements with the key. -/
def skipDuplicates (key : α) : List α → Option α
  | [] => none
  | entry :: rest => if compare entry key = 0 then skipDuplicates key rest else some entry

/-- `netsnmp_binary_array_get`: the container, and what is returned, with `some none` for null. -/
def get (c : BinaryArray α) (key : Option α) (exact : Bool) :
    BinaryArray α × Option (Option α) :=
  if c.data.length = 0 then (c, some none)
  else
    let c := sortArray qsort c
    match key with
    | none => (c, c.data.head?.map some)
    | some key =>
        let (c, found) := binarySearch compare qsort key c exact
        if found.index = -1 then (c, some none)
        else if found.index < 0 then (c, none)
        else if !exact && c.allowDuplicates then
          (c, some (skipDuplicates compare key (c.data.drop found.index.toNat)))
        else (c, c.data[found.index.toNat]?.map some)

/-- `netsnmp_binary_array_remove_at`: the return value, what is saved, and the container. -/
def removeAt (c : BinaryArray α) (index : Nat) : Option (Int × Option α × BinaryArray α) :=
  if c.data.length = 0 then some (-1, none, c)
  else c.data[index]?.map fun entry => (0, some entry, { c with data := c.data.eraseIdx index })

/-- `netsnmp_binary_array_remove` -/
def remove (c : BinaryArray α) (key : α) : Option (Int × Option α × BinaryArray α) :=
  if c.data.length = 0 then some (0, none, c)
  else
    let c := sortArray qsort c
    let (c, found) := binarySearch compare qsort key c true
    if found.index = -1 then some (-1, none, c) else c.removeAt (toSizeT found.index)

/-- `netsnmp_binary_array_insert_before` -/
def insertBefore (c : BinaryArray α) (index : Nat) (entry : α) (dirty : Bool) :
    Int × BinaryArray α :=
  if c.data.length < index then (-1, c)
  else (0, { c with data := c.data.insertIdx index entry, dirty := dirty || c.dirty })

/-- The number of elements at the front that have the key, which the loop of
`netsnmp_binary_array_insert` passes. -/
def duplicates (entry : α) : List α → Nat
  | [] => 0
  | other :: rest => if compare other entry = 0 then duplicates entry rest + 1 else 0

/-- The end of `netsnmp_binary_array_insert`, when it is known where to insert. -/
def insertFound (c : BinaryArray α) (entry : α) (found : Found) : Option (Int × BinaryArray α) :=
  found.next.map fun next =>
    let pos :=
      if c.allowDuplicates && decide (0 ≤ found.index) then
        next + duplicates compare entry (c.data.drop next)
      else next
    c.insertBefore pos entry false

/-- `netsnmp_binary_array_insert` -/
def insert (c : BinaryArray α) (entry : α) : Option (Int × BinaryArray α) :=
  if !c.allowDuplicates && decide (c.data.length ≠ 0) then
    let (c, found) := binarySearch compare qsort entry c true
    if 0 ≤ found.index then some (-1, c)
    else if c.unsorted then some (c.insertBefore c.data.length entry true)
    else if found.index = -2 then
      let (c, found) := binarySearch compare qsort entry c true
      insertFound compare c entry found
    else insertFound compare c entry found
  else if c.unsorted then some (c.insertBefore c.data.length entry true)
  else if c.data.length = 0 then insertFound compare c entry ⟨-1, some 0⟩
  else
    let (c, found) := binarySearch compare qsort entry c true
    insertFound compare c entry found

/-- `netsnmp_binary_array_options_set`, called to set the flags. -/
def optionsSet (c : BinaryArray α) (flags : Nat) : Int × BinaryArray α :=
  if flags &&& 3 = flags then
    let sort := c.unsorted && !flags.testBit 1
    let c := { c with allowDuplicates := flags.testBit 0, unsorted := flags.testBit 1 }
    if sort then (flags, sortArray qsort { c with dirty := true }) else (flags, c)
  else (-1, c)

/-- `netsnmp_binary_array_clear` -/
def clear (c : BinaryArray α) : BinaryArray α := { c with data := [], dirty := false }

end

end BinaryArray

inductive BinaryArrayOp (α : Type) where
  | insert (entry : α)
  | insertBefore (index : Nat) (entry : α)
  | remove (key : α)
  | removeAt (index : Nat)
  | options (flags : Nat)
  | find (key : Option α)
  | findNext (key : Option α)
  | forEach
  | clear
  deriving DecidableEq, Repr

namespace BinaryArray

section

variable (compare : α → α → Int) (qsort : List α → List α)

/-- `_ba_find` -/
def find (c : BinaryArray α) (data : Option α) := get compare qsort c data true

/-- `_ba_find_next` -/
def findNext (c : BinaryArray α) (data : Option α) := get compare qsort c data false

def step (c : BinaryArray α) : BinaryArrayOp α → Option (BinaryArray α)
  | .insert entry => (insert compare qsort c entry).map Prod.snd
  | .insertBefore index entry => some (c.insertBefore index entry true).2
  | .remove key => (remove compare qsort c key).map fun result => result.2.2
  | .removeAt index => (c.removeAt index).map fun result => result.2.2
  | .options flags => some (optionsSet qsort c flags).2
  | .find key => some (find compare qsort c key).1
  | .findNext key => some (findNext compare qsort c key).1
  | .forEach => some (sortArray qsort c)
  | .clear => some c.clear

end

end BinaryArray

end NetSnmp
