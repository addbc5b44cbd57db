import Mathlib.Data.Prod.Lex
import NetSnmp.CString
import NetSnmp.Machine

/-!
# The list of engine times

`set_enginetime` and `get_enginetime_ex`: what is known of the boots and the
time of other engines, and the estimate of the time they have now.
-/

namespace NetSnmp

def engineTimeMax : Nat := 2147483647

def engineBootMax : Nat := 2147483647

/-- `struct enginetime_struct` -/
structure Enginetime where
  engineID : List Byte
  engineTime : Nat
  engineBoot : Nat
  lastReceivedEngineTime : Nat
  authenticatedFlag : Bool
  deriving DecidableEq, Repr

/-- `etimelist`: the records of each hash index. -/
abbrev Etimelist := Nat → List Enginetime

/-- The comparison of `search_enginetime_list`. -/
def isRecordOf (engineID : List Byte) (e : Enginetime) : Bool :=
  engineID.length = e.engineID.length ∧ memcmp e.engineID engineID engineID.length = 0

theorem isRecordOf_iff {engineID : List Byte} {e : Enginetime} :
    isRecordOf engineID e = true ↔ e.engineID = engineID := by
  rw [isRecordOf, decide_eq_true_iff, memcmp_eq_zero_iff, List.take_length]
  constructor
  · rintro ⟨length_eq, take_eq⟩
    rw [List.take_of_length_le (le_of_eq length_eq.symm)] at take_eq
    exact take_eq
  · rintro rfl
    exact ⟨rfl, List.take_length⟩

section Hash

variable (hashEngineID : List Byte → Option Nat)

/-- `search_enginetime_list`, where `hash_engineID` is negative or an index. -/
def searchEnginetimeList (etimelist : Etimelist) (engineID : List Byte) : Option Enginetime :=
  if engineID.length = 0 then none
  else
    match hashEngineID engineID with
    | none => none
    | some index => (etimelist index).find? (isRecordOf engineID)

/-- The values that a record gets, unless they are a guess and the record is not. -/
def storeEnginetime (engineboot engineTime : Nat) (authenticated : Bool) (now : Nat)
    (e : Enginetime) : Enginetime :=
  if authenticated ∨ ¬ e.authenticatedFlag then
    { e with
      authenticatedFlag := authenticated
      engineTime := engineTime
      engineBoot := engineboot
      lastReceivedEngineTime := now }
  else e

def updateRecord (engineID : List Byte) (store : Enginetime → Enginetime) :
    List Enginetime → List Enginetime
  | [] => []
  | e :: rest =>
      if isRecordOf engineID e then store e :: rest
      else e :: updateRecord engineID store rest

/-- `set_enginetime` at the local time `now`; `false` is `SNMPERR_GENERR`. -/
def setEnginetime (etimelist : Etimelist) (engineID : List Byte) (engineboot engineTime : Nat)
    (authenticated : Bool) (now : Nat) : Etimelist × Bool :=
  if engineID.length = 0 then (etimelist, true)
  else
    match hashEngineID engineID with
    | none => (etimelist, false)
    | some iindex =>
        let records :=
          match searchEnginetimeList hashEngineID etimelist engineID with
          | some _ => etimelist iindex
          | none => ⟨engineID, 0, 0, 0, false⟩ :: etimelist iindex
        let store := storeEnginetime engineboot engineTime authenticated now
        (Function.update etimelist iindex (updateRecord engineID store records), true)

/-- What `get_enginetime_ex` stores to its arguments. -/
structure EngineEstimate where
  engineboot : Nat
  engineTime : Nat
  lastEngineTime : Nat
  deriving DecidableEq, Repr

/-- `get_enginetime_ex` at the local time `now`; `none` is `SNMPERR_GENERR`. -/
def getEnginetimeEx (etimelist : Etimelist) (engineID : List Byte) (authenticated : Bool)
    (now : Nat) : Option EngineEstimate :=
  match searchEnginetimeList hashEngineID etimelist engineID with
  | none => none
  | some e =>
      let usable : Bool := ¬ authenticated ∨ e.authenticatedFlag
      let time := if usable then e.engineTime else 0
      let boots := if usable then e.engineBoot else 0
      let timediff := if usable then toCInt (now - e.lastReceivedEngineTime) else 0
      let room : Int := (engineTimeMax - time) % 2 ^ 32
      if toCInt room < timediff then
        some ⟨if boots < engineBootMax then boots + 1 else boots,
          ((timediff - room) % 2 ^ 32).toNat, time⟩
      else some ⟨boots, ((time + timediff) % 2 ^ 32).toNat, time⟩

variable {hashEngineID} {etimelist : Etimelist} {engineID other : List Byte}

theorem find_updateRecord_self {store : Enginetime → Enginetime}
    (keeps : ∀ e, (store e).engineID = e.engineID) (records : List Enginetime) :
    (updateRecord engineID store records).find? (isRecordOf engineID) =
      (records.find? (isRecordOf engineID)).map store := by
  induction records with
  | nil => rfl
  | cons e rest ih =>
      rw [updateRecord]
      split
      · rename_i isRecord
        have stored : isRecordOf engineID (store e) = true :=
          isRecordOf_iff.mpr ((keeps e).trans (isRecordOf_iff.mp isRecord))
        simp [stored, isRecord]
      · rename_i notRecord
        simp [notRecord, ih]

theorem find_updateRecord_of_ne {store : Enginetime → Enginetime}
    (keeps : ∀ e, (store e).engineID = e.engineID) (ne : other ≠ engineID)
    (records : List Enginetime) :
    (updateRecord engineID store records).find? (isRecordOf other) =
      records.find? (isRecordOf other) := by
  induction records with
  | nil => rfl
  | cons e rest ih =>
      rw [updateRecord]
      split
      · rename_i isRecord
        have id_eq : e.engineID = engineID := isRecordOf_iff.mp isRecord
        have notOther : ∀ record, record.engineID = e.engineID →
          isRecordOf other record = false := by
          intro record record_eq
          apply Bool.eq_false_iff.mpr
          intro isOther
          exact ne ((isRecordOf_iff.mp isOther).symm.trans (record_eq.trans id_eq))
        rw [List.find?_cons_of_neg (by simp [notOther _ (keeps e)]),
          List.find?_cons_of_neg (by simp [notOther _ rfl])]
      · by_cases isOther : isRecordOf other e = true
        · rw [List.find?_cons_of_pos isOther, List.find?_cons_of_pos isOther]
        · rw [List.find?_cons_of_neg isOther, List.find?_cons_of_neg isOther]
          exact ih

theorem storeEnginetime_engineID {engineboot engineTime now : Nat} {authenticated : Bool}
    (e : Enginetime) :
    (storeEnginetime engineboot engineTime authenticated now e).engineID = e.engineID := by
  unfold storeEnginetime
  split <;> rfl

theorem search_eq_find {index : Nat} (nonempty : ¬ engineID.length = 0)
    (hash_eq : hashEngineID engineID = some index) :
    searchEnginetimeList hashEngineID etimelist engineID =
      (etimelist index).find? (isRecordOf engineID) := by
  rw [searchEnginetimeList, if_neg nonempty, hash_eq]

theorem search_setEnginetime_of_ne {engineboot engineTime now : Nat} {authenticated : Bool}
    (ne : other ≠ engineID) :
    searchEnginetimeList hashEngineID
        (setEnginetime hashEngineID etimelist engineID engineboot engineTime authenticated now).1
        other =
      searchEnginetimeList hashEngineID etimelist other := by
  unfold setEnginetime
  split
  · rfl
  · cases hash_eq : hashEngineID engineID with
    | none => rfl
    | some iindex =>
        unfold searchEnginetimeList
        split
        · rfl
        · cases other_eq : hashEngineID other with
          | none => rfl
          | some index =>
              by_cases same : index = iindex
              · subst same
                simp only [Function.update_self]
                rw [find_updateRecord_of_ne storeEnginetime_engineID ne]
                split
                · rfl
                · apply List.find?_cons_of_neg
                  intro isOther
                  exact ne (isRecordOf_iff.mp isOther).symm
              · simp only [Function.update_of_ne same]

theorem search_setEnginetime_self {index engineboot engineTime now : Nat} {authenticated : Bool}
    (nonempty : ¬ engineID.length = 0) (hash_eq : hashEngineID engineID = some index) :
    searchEnginetimeList hashEngineID
        (setEnginetime hashEngineID etimelist engineID engineboot engineTime authenticated now).1
        engineID =
      some (storeEnginetime engineboot engineTime authenticated now
        ((searchEnginetimeList hashEngineID etimelist engineID).getD
          ⟨engineID, 0, 0, 0, false⟩)) := by
  rw [search_eq_find nonempty hash_eq, search_eq_find nonempty hash_eq]
  simp only [setEnginetime, if_neg nonempty, hash_eq, search_eq_find nonempty hash_eq,
    Function.update_self]
  rw [find_updateRecord_self storeEnginetime_engineID]
  cases known : (etimelist index).find? (isRecordOf engineID) with
  | some e => simp [known]
  | none =>
      have isNew : isRecordOf engineID ⟨engineID, 0, 0, 0, false⟩ = true := isRecordOf_iff.mpr rfl
      simp [isNew]

theorem hash_of_search {e : Enginetime}
    (known : searchEnginetimeList hashEngineID etimelist engineID = some e) :
    ¬ engineID.length = 0 ∧ ∃ index, hashEngineID engineID = some index := by
  rw [searchEnginetimeList] at known
  split at known
  · exact absurd known (by simp)
  · rename_i nonempty
    refine ⟨nonempty, ?_⟩
    cases hash_eq : hashEngineID engineID with
    | none =>
        rw [hash_eq] at known
        exact absurd known (by simp)
    | some index => exact ⟨index, rfl⟩

theorem search_setEnginetime_of_known {engineboot engineTime now : Nat} {authenticated : Bool}
    {e : Enginetime} (known : searchEnginetimeList hashEngineID etimelist engineID = some e) :
    searchEnginetimeList hashEngineID
        (setEnginetime hashEngineID etimelist engineID engineboot engineTime authenticated now).1
        engineID =
      some (storeEnginetime engineboot engineTime authenticated now e) := by
  rcases hash_of_search known with ⟨nonempty, index, hash_eq⟩
  rw [search_setEnginetime_self nonempty hash_eq, known]
  rfl

theorem search_setEnginetime_cases {engineboot engineTime now : Nat} {authenticated : Bool}
    {e : Enginetime}
    (found : searchEnginetimeList hashEngineID
      (setEnginetime hashEngineID etimelist engineID engineboot engineTime authenticated now).1
      other = some e) :
    searchEnginetimeList hashEngineID etimelist other = some e ∨
      (e.engineTime = engineTime ∧ e.engineBoot = engineboot ∧ e.lastReceivedEngineTime = now) := by
  by_cases same : other = engineID
  · subst same
    rcases hash_of_search found with ⟨nonempty, index, hash_eq⟩
    rw [search_setEnginetime_self nonempty hash_eq] at found
    have stored := Option.some.inj found
    unfold storeEnginetime at stored
    split at stored
    · right
      rw [← stored]
      exact ⟨rfl, rfl, rfl⟩
    · rename_i kept
      left
      cases known : searchEnginetimeList hashEngineID etimelist other with
      | some e' =>
          rw [known] at stored
          exact congrArg some stored
      | none =>
          rw [known] at kept
          exact absurd (.inr (by simp)) kept
  · rw [search_setEnginetime_of_ne same] at found
    exact .inl found

end Hash

end NetSnmp
