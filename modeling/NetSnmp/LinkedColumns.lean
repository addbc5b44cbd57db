import Mathlib.Data.List.Nodup
import NetSnmp.LinkedList

/-!
# Lists of columns

A doubly linked list whose elements are columns: the cells of a column are linked by
`children`, and each of them leads to the first cell of the next column and back to
the first cell of the previous one, and remembers a number about its content and the
one of the previous column.
-/

namespace NetSnmp

structure ColumnCell (α : Type) where
  content : α
  next : Option Addr
  prev : Option Addr
  children : Option Addr
  /-- The number about the content of the previous column and this one. -/
  off : Nat
  deriving DecidableEq, Repr

abbrev ColumnHeap (α : Type) := Addr → Option (ColumnCell α)

variable {α : Type}

namespace ColumnHeap

def put (heap : ColumnHeap α) (address : Addr) (cell : ColumnCell α) : ColumnHeap α :=
  Function.update heap address (some cell)

def free (heap : ColumnHeap α) (address : Addr) : ColumnHeap α := Function.update heap address none

/-- Run `body` on the cells of a column; `none` if it is longer than `fuel`. -/
def eachCell (body : ColumnHeap α → Addr → Option (ColumnHeap α)) :
    Nat → ColumnHeap α → Option Addr → Option (ColumnHeap α)
  | _, heap, none => some heap
  | 0, _, some _ => none
  | fuel + 1, heap, some ptr => do
      let heap ← body heap ptr
      let cell ← heap ptr
      eachCell body fuel heap cell.children

section Links

variable {compareOff : α → α → Nat} {heap heap' : ColumnHeap α} {links links' : ColumnCell α → Prop}
  {prev : Option (Addr × α)} {next start stop : Option Addr} {column : List (Addr × α)}
  {columns front back : List (List (Addr × α))} {address : Addr} {cell : ColumnCell α}

end Links

end ColumnHeap

end NetSnmp
