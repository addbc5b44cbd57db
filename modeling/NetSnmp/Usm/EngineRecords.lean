import NetSnmp.Usm.EngineTime

/-!
# The records of different engines

What `set_enginetime`, `free_enginetime` and `get_enginetime` to one engine ID do to the
records of the others.
-/

namespace NetSnmp

/-- The loop of `free_enginetime` over the records of a hash index. -/
def freeRecords : List Enginetime → List Enginetime
  | [] => []
  | _ :: rest => freeRecords rest

inductive EnginetimeOp where
  | set (engineID : List Byte) (engineboot engineTime : Nat) (authenticated : Bool) (now : Nat)
  | free (engineID : List Byte)
  | get (engineID : List Byte) (authenticated : Bool) (now : Nat)
  deriving DecidableEq, Repr

def EnginetimeOp.engineID : EnginetimeOp → List Byte
  | .set engineID .. => engineID
  | .free engineID => engineID
  | .get engineID .. => engineID

section Hash

variable (hashEngineID : List Byte → Option Nat)

/-- `free_enginetime`; there is no hash index of an empty engine ID. -/
def freeEnginetime (etimelist : Etimelist) (engineID : List Byte) : Etimelist :=
  if engineID.length = 0 then etimelist
  else
    match hashEngineID engineID with
    | none => etimelist
    | some index => Function.update etimelist index (freeRecords (etimelist index))

/-- The list after a call; `get_enginetime` only reads it. -/
def EnginetimeOp.step (etimelist : Etimelist) : EnginetimeOp → Etimelist
  | .set engineID engineboot engineTime authenticated now =>
      (setEnginetime hashEngineID etimelist engineID engineboot engineTime authenticated now).1
  | .free engineID => freeEnginetime hashEngineID etimelist engineID
  | .get .. => etimelist

def EnginetimeOp.run (ops : List EnginetimeOp) : Etimelist :=
  ops.foldl (EnginetimeOp.step hashEngineID) fun _ => []

/-- The call changes no record of another engine, and a freed engine has none. -/
def EnginetimeOp.Independent (etimelist : Etimelist) (op : EnginetimeOp) : Prop :=
  (∀ other ≠ op.engineID,
    searchEnginetimeList hashEngineID (op.step hashEngineID etimelist) other =
      searchEnginetimeList hashEngineID etimelist other) ∧
  ∀ engineID, op = .free engineID →
    searchEnginetimeList hashEngineID (op.step hashEngineID etimelist) engineID = none

def Hashed (etimelist : Etimelist) : Prop :=
  ∀ index, ∀ e ∈ etimelist index,
    ¬ e.engineID.length = 0 ∧ hashEngineID e.engineID = some index

variable {hashEngineID} {etimelist : Etimelist} {engineID other : List Byte}

theorem freeRecords_eq_nil (records : List Enginetime) : freeRecords records = [] := by
  induction records with
  | nil => rfl
  | cons e rest ih => exact ih

theorem mem_updateRecord {store : Enginetime → Enginetime}
    (keeps : ∀ e, (store e).engineID = e.engineID) {records : List Enginetime} {e : Enginetime}
    (mem : e ∈ updateRecord engineID store records) :
    ∃ e' ∈ records, e'.engineID = e.engineID := by
  induction records with
  | nil => exact absurd mem (by simp [updateRecord])
  | cons first rest ih =>
      rw [updateRecord] at mem
      split at mem
      · rcases List.mem_cons.mp mem with rfl | later
        · exact ⟨first, List.mem_cons_self, (keeps first).symm⟩
        · exact ⟨e, List.mem_cons_of_mem _ later, rfl⟩
      · rcases List.mem_cons.mp mem with rfl | later
        · exact ⟨e, List.mem_cons_self, rfl⟩
        · rcases ih later with ⟨e', mem', same⟩
          exact ⟨e', List.mem_cons_of_mem _ mem', same⟩

theorem Hashed.set {engineboot engineTime now : Nat} {authenticated : Bool}
    (hashed : Hashed hashEngineID etimelist) :
    Hashed hashEngineID (setEnginetime hashEngineID etimelist engineID engineboot engineTime
      authenticated now).1 := by
  unfold setEnginetime
  split
  · exact hashed
  · rename_i nonempty
    cases hash_eq : hashEngineID engineID with
    | none => exact hashed
    | some iindex =>
        intro index e mem
        by_cases same : index = iindex
        · subst same
          simp only [Function.update_self] at mem
          rcases mem_updateRecord storeEnginetime_engineID mem with ⟨e', mem', same⟩
          rw [← same]
          split at mem'
          · exact hashed index e' mem'
          · rcases List.mem_cons.mp mem' with rfl | old
            · exact ⟨nonempty, hash_eq⟩
            · exact hashed index e' old
        · simp only [Function.update_of_ne same] at mem
          exact hashed index e mem

theorem Hashed.free (hashed : Hashed hashEngineID etimelist) :
    Hashed hashEngineID (freeEnginetime hashEngineID etimelist engineID) := by
  unfold freeEnginetime
  split
  · exact hashed
  · cases hash_eq : hashEngineID engineID with
    | none => exact hashed
    | some iindex =>
        intro index e mem
        by_cases same : index = iindex
        · subst same
          simp [freeRecords_eq_nil] at mem
        · simp only [Function.update_of_ne same] at mem
          exact hashed index e mem

theorem Hashed.step (hashed : Hashed hashEngineID etimelist) (op : EnginetimeOp) :
    Hashed hashEngineID (op.step hashEngineID etimelist) := by
  cases op with
  | set engineID engineboot engineTime authenticated now => exact hashed.set
  | free engineID => exact hashed.free
  | get engineID authenticated now => exact hashed

theorem hashed_of_run (ops : List EnginetimeOp) :
    Hashed hashEngineID (EnginetimeOp.run hashEngineID ops) := by
  have steps (etimelist : Etimelist) (hashed : Hashed hashEngineID etimelist) :
      Hashed hashEngineID (ops.foldl (EnginetimeOp.step hashEngineID) etimelist) := by
    induction ops generalizing etimelist with
    | nil => exact hashed
    | cons op ops ih => exact ih _ (hashed.step op)
  apply steps
  intro index e mem
  exact absurd mem (by simp)

theorem search_freeEnginetime_self :
    searchEnginetimeList hashEngineID (freeEnginetime hashEngineID etimelist engineID) engineID =
      none := by
  rw [searchEnginetimeList]
  split
  · rfl
  · rename_i nonempty
    cases hash_eq : hashEngineID engineID with
    | none => rfl
    | some index => simp [freeEnginetime, nonempty, hash_eq, freeRecords_eq_nil]

theorem search_freeEnginetime (engineID other : List Byte) :
    searchEnginetimeList hashEngineID (freeEnginetime hashEngineID etimelist engineID) other =
      if engineID.length ≠ 0 ∧ (hashEngineID engineID).isSome ∧
          hashEngineID other = hashEngineID engineID then none
      else searchEnginetimeList hashEngineID etimelist other := by
  by_cases empty : engineID.length = 0
  · simp [freeEnginetime, empty]
  · cases hash_eq : hashEngineID engineID with
    | none => simp [freeEnginetime, empty, hash_eq]
    | some index =>
        simp only [freeEnginetime, if_neg empty, hash_eq]
        unfold searchEnginetimeList
        cases other_eq : hashEngineID other with
        | none => simp
        | some index' =>
            by_cases same : index' = index
            · subst same
              simp [freeRecords_eq_nil, empty]
            · simp [same]

theorem independent_free_iff (hashed : Hashed hashEngineID etimelist) :
    (EnginetimeOp.free engineID).Independent hashEngineID etimelist ↔
      ∀ index, engineID.length ≠ 0 → hashEngineID engineID = some index →
        ∀ e ∈ etimelist index, e.engineID = engineID := by
  constructor
  · rintro ⟨others, -⟩ index nonempty hash_eq e mem
    by_contra other
    rcases hashed index e mem with ⟨nonempty', hash_eq'⟩
    have kept := others e.engineID other
    simp only [EnginetimeOp.step] at kept
    rw [search_freeEnginetime, if_pos ⟨nonempty, by simp [hash_eq], hash_eq'.trans hash_eq.symm⟩,
      search_eq_find nonempty' hash_eq'] at kept
    exact List.find?_eq_none.mp kept.symm e mem (isRecordOf_iff.mpr rfl)
  · intro only
    refine ⟨?_, ?_⟩
    · intro other ne
      simp only [EnginetimeOp.step]
      rw [search_freeEnginetime]
      split
      · rename_i collides
        rcases Option.isSome_iff_exists.mp collides.2.1 with ⟨index, hash_eq⟩
        symm
        cases found : searchEnginetimeList hashEngineID etimelist other with
        | none => rfl
        | some e =>
            rcases hash_of_search found with ⟨nonempty, -⟩
            rw [search_eq_find nonempty (collides.2.2.trans hash_eq)] at found
            have isOther := isRecordOf_iff.mp (List.find?_some found)
            have isFreed := only index collides.1 hash_eq e (List.mem_of_find?_eq_some found)
            exact absurd (isOther.symm.trans isFreed) ne
      · rfl
    · intro engineID' same
      cases same
      exact search_freeEnginetime_self

/-- In every list that can come about, a call leaves the other engines alone exactly when it does
not free an engine at whose hash index another one has a record. -/
theorem enginetime_independent_iff (hashEngineID : List Byte → Option Nat)
    (ops : List EnginetimeOp) (op : EnginetimeOp) :
    op.Independent hashEngineID (EnginetimeOp.run hashEngineID ops) ↔
      ∀ engineID index, op = .free engineID → engineID.length ≠ 0 →
        hashEngineID engineID = some index →
        ∀ e ∈ EnginetimeOp.run hashEngineID ops index, e.engineID = engineID := by
  cases op with
  | set engineID engineboot engineTime authenticated now =>
      refine iff_of_true ⟨?_, ?_⟩ ?_
      · intro other ne
        exact search_setEnginetime_of_ne ne
      · intro engineID' same
        exact absurd same (by simp)
      · intro engineID' index same
        exact absurd same (by simp)
  | get engineID authenticated now =>
      refine iff_of_true ⟨fun _ _ => rfl, ?_⟩ ?_
      · intro engineID' same
        exact absurd same (by simp)
      · intro engineID' index same
        exact absurd same (by simp)
  | free engineID =>
      rw [independent_free_iff (hashed_of_run ops)]
      constructor
      · intro only engineID' index same nonempty
        cases same
        exact only index nonempty
      · intro only index
        exact only engineID index rfl

/-- Two engine IDs with the same hash index. -/
theorem not_enginetime_independent :
    ¬ ∀ (hashEngineID : List Byte → Option Nat) (ops : List EnginetimeOp) (op : EnginetimeOp),
      op.Independent hashEngineID (EnginetimeOp.run hashEngineID ops) := by
  intro always
  have others := (always (fun _ => some 0) [.set [1] 3 100 true 50, .set [2] 7 200 true 60]
    (.free [2])).1 [1] (by decide)
  exact absurd others (by decide)

end Hash

end NetSnmp
