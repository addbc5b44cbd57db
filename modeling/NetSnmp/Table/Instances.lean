import NetSnmp.OidCompare

/-!
# Instances of a table

The instances of a table are its columns and rows. Their names are in the order of the columns, and
those of a column in the order of the rows.
-/

namespace NetSnmp

variable {rootoid name : Oid} {column column' : Nat} {index index' : Oid}

/-- The name of an instance: the root, the entry, the column and the index of the row. -/
def instanceName (rootoid : Oid) (column : Nat) (index : Oid) : Oid :=
  rootoid ++ 1 :: column :: index

def NotBeyond (rootoid name : Oid) : Prop := name < rootoid ∨ rootoid <+: name

/-- The next name: that of the least instance behind a name, and none only if there is no such
instance. -/
def IsNextName (isColumn : Nat → Prop) (rows : List Oid) (rootoid name : Oid) : Option Oid → Prop
  | none => ∀ column, isColumn column → ∀ index ∈ rows, ¬name < instanceName rootoid column index
  | some next => ∃ column index, (isColumn column ∧ index ∈ rows ∧
      next = instanceName rootoid column index ∧ name < next) ∧
      ∀ column', isColumn column' → ∀ index' ∈ rows, name < instanceName rootoid column' index' →
        column < column' ∨ column = column' ∧ index ≤ index'

theorem instanceName_lt_iff :
    instanceName rootoid column index < instanceName rootoid column' index' ↔
      column < column' ∨ column = column' ∧ index < index' := by
  rw [instanceName, instanceName, append_lt_append_iff_left]
  simp [List.cons_lt_cons_iff]

theorem drop_instanceName (rootoid : Oid) (column : Nat) (index : Oid) :
    (instanceName rootoid column index).drop (rootoid.length + 2) = index := by
  have whole : instanceName rootoid column index = (rootoid ++ [1, column]) ++ index := by
    simp [instanceName]
  rw [whole]
  exact List.drop_left' (by simp)

/-- The places of a name that is not beyond the table. -/
inductive PlaceOfName (rootoid : Oid) : Oid → Prop
  | before {name : Oid} (before : name < rootoid) : PlaceOfName rootoid name
  | root : PlaceOfName rootoid rootoid
  | beforeEntry (rest : Oid) : PlaceOfName rootoid (rootoid ++ 0 :: rest)
  | behindEntry (arc : Nat) (rest : Oid) (behind : 1 < arc) :
    PlaceOfName rootoid (rootoid ++ arc :: rest)
  | entry : PlaceOfName rootoid (rootoid ++ [1])
  | column (column : Nat) (index : Oid) : PlaceOfName rootoid (instanceName rootoid column index)

theorem NotBeyond.place (notBeyond : NotBeyond rootoid name) : PlaceOfName rootoid name := by
  rcases notBeyond with before | ⟨rest, rfl⟩
  · exact .before before
  cases rest with
  | nil =>
      rw [List.append_nil]
      exact .root
  | cons arc rest =>
      rcases Nat.lt_trichotomy arc 1 with zero | rfl | behind
      · obtain rfl : arc = 0 := by omega
        exact .beforeEntry rest
      · cases rest with
        | nil => exact .entry
        | cons column index => exact .column column index
      · exact .behindEntry arc rest behind

theorem root_lt_instanceName : rootoid < instanceName rootoid column index := by
  have less : rootoid ++ [] < rootoid ++ 1 :: column :: index := by
    rw [append_lt_append_iff_left]
    exact List.nil_lt_cons _ _
  rwa [List.append_nil] at less

theorem before_lt_instanceName (before : name < rootoid) :
    name < instanceName rootoid column index :=
  lt_trans before root_lt_instanceName

theorem beforeEntry_lt_instanceName (rest : Oid) :
    rootoid ++ 0 :: rest < instanceName rootoid column index := by
  rw [instanceName, append_lt_append_iff_left]
  simp [List.cons_lt_cons_iff]

theorem entry_lt_instanceName : rootoid ++ [1] < instanceName rootoid column index := by
  rw [instanceName, append_lt_append_iff_left]
  simp

theorem not_behindEntry_lt_instanceName {arc : Nat} (rest : Oid) (behind : 1 < arc) :
    ¬rootoid ++ arc :: rest < instanceName rootoid column index := by
  rw [instanceName, append_lt_append_iff_left]
  simp [List.cons_lt_cons_iff]
  omega

theorem IsNextName.unique {isColumn : Nat → Prop} {rows : List Oid} {next next' : Option Oid}
    (isNext : IsNextName isColumn rows rootoid name next)
    (isNext' : IsNextName isColumn rows rootoid name next') : next = next' := by
  cases next with
  | none =>
      cases next' with
      | none => rfl
      | some name' =>
          obtain ⟨column, index, ⟨isColumn, mem, rfl, less⟩, -⟩ := isNext'
          exact absurd less (isNext column isColumn index mem)
  | some name =>
      obtain ⟨column, index, ⟨isColumn, mem, rfl, less⟩, least⟩ := isNext
      cases next' with
      | none => exact absurd less (isNext' column isColumn index mem)
      | some name' =>
          obtain ⟨column', index', ⟨isColumn', mem', rfl, less'⟩, least'⟩ := isNext'
          have le := least column' isColumn' index' mem' less'
          have ge := least' column isColumn index mem less
          rcases le with lt | ⟨rfl, indexLe⟩
          · omega
          · rcases ge with gt | ⟨-, indexGe⟩
            · omega
            · rw [le_antisymm indexLe indexGe]

end NetSnmp
