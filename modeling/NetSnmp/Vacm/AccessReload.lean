import Mathlib.Data.List.Nodup
import NetSnmp.Vacm.AccessStore

/-!
# Reloading the access list

The parser creates a row for a line unless a row that is there already matches
the index of the new one, as it would match a request.  So the list is rebuilt
when no row matches the index of a later one, and is shorter otherwise.
-/

namespace NetSnmp

def indexRequest (row : VacmAccessEntry) : AccessRequest :=
  ⟨row.groupName.str, row.contextPrefix.str, row.securityModel, row.securityLevel⟩

/-- The columns of a row: its views are the three that requests are checked against. -/
structure AccessColumns where
  groupName : VacmString
  contextPrefix : VacmString
  securityModel : Int
  securityLevel : Int
  contextMatch : Int
  readView : CString
  writeView : CString
  notifyView : CString
  storageType : Int
  status : Int
  deriving DecidableEq, Repr

def VacmAccessEntry.columns (row : VacmAccessEntry) : AccessColumns :=
  ⟨row.groupName, row.contextPrefix, row.securityModel, row.securityLevel, row.contextMatch,
    row.viewName vacmViewRead, row.viewName vacmViewWrite, row.viewName vacmViewNotify,
    row.storageType, row.status⟩

/-- An `int`. -/
def IsInt (value : Int) : Prop := -2 ^ 31 ≤ value ∧ value < 2 ^ 31

/-- What a row in memory is like: its numbers are of type `int`, and its views end. -/
structure VacmAccessEntry.WellFormed (row : VacmAccessEntry) : Prop where
  status : IsInt row.status
  storageType : IsInt row.storageType
  securityModel : IsInt row.securityModel
  securityLevel : IsInt row.securityLevel
  contextMatch : IsInt row.contextMatch
  ended : ∀ number, (row.viewName number).strlen < vacmStringLen

def Rebuilds (rows : List VacmAccessEntry) : Prop :=
  ∃ rebuilt, reloadAccess rows [] = some rebuilt ∧
    (rebuilt.map VacmAccessEntry.columns).Perm (rows.map VacmAccessEntry.columns)

def NoneMatchesLater (rows : List VacmAccessEntry) : Prop :=
  rows.Pairwise fun earlier later => ¬ AccessMatches (indexRequest later) earlier

/-- The names of the views are not longer than other names. -/
def ShortViews (row : VacmAccessEntry) : Prop :=
  ∀ number ∈ [vacmViewRead, vacmViewWrite, vacmViewNotify],
    (row.viewName number).strlen ≤ vacmMaxString

theorem skipWhite_formatD (n : Int) (rest : List Byte) :
    skipWhite (formatD n ++ 0x20 :: rest) = some (formatD n ++ 0x20 :: rest) :=
  (isField_formatD n).skipWhite _

theorem parseAccessNumbers_savedFields {row : VacmAccessEntry} (wellFormed : row.WellFormed) :
    parseAccessNumbers row.savedFields =
      some (⟨row.status, row.storageType, row.securityModel, row.securityLevel, row.contextMatch⟩,
        some row.savedStrings) := by
  have strings : skipWhite row.savedStrings = some row.savedStrings :=
    (isField_saveString row.groupName.str).skipWhite _
  simp only [parseAccessNumbers, VacmAccessEntry.savedFields, (isField_formatD _).skipToken,
    skipWhite_formatD, Option.bind_eq_bind, Option.bind_some, strings,
    atoi_formatD wellFormed.status.1 wellFormed.status.2,
    atoi_formatD wellFormed.storageType.1 wellFormed.storageType.2,
    atoi_formatD wellFormed.securityModel.1 wellFormed.securityModel.2,
    atoi_formatD wellFormed.securityLevel.1 wellFormed.securityLevel.2,
    atoi_formatD wellFormed.contextMatch.1 wellFormed.contextMatch.2]
  rfl

/-- What a buffer for a name gets of a string: one of the greatest length does not fit. -/
def readName (str : CString) : Option (List Byte) :=
  if str.strlen + 2 ≤ vacmStringLen then some (str.chars ++ [0]) else none

theorem readName_vacmString (name : VacmString) :
    readName name.str = some (name.str.chars ++ [0]) := by
  have short := name.short
  have width : vacmStringLen = vacmMaxString + 2 := rfl
  rw [readName, if_pos (by omega)]

theorem readField (str : CString) (rest : List Byte) :
    readConfigReadOctetString (some (saveString str ++ 0x20 :: rest)) (some vacmStringLen) =
      some ⟨readName str, skipWhite rest⟩ := by
  apply readConfigReadOctetString_saveString
  intro c mem
  obtain rfl : 0x20 = c := by simpa using mem
  rfl

theorem readLastField (str : CString) :
    readConfigReadOctetString (some (saveString str)) (some vacmStringLen) =
      some ⟨readName str, none⟩ := by
  have read := @readConfigReadOctetString_saveString str [] (by simp) vacmStringLen
  rwa [List.append_nil] at read

def restoreRow (row : VacmAccessEntry) (aptr : AccessPtr) : AccessPtr :=
  (((aptr.assign ⟨row.status, row.storageType, row.securityModel, row.securityLevel,
    row.contextMatch⟩).setView vacmViewRead (readName (row.viewName vacmViewRead))).setView
      vacmViewWrite (readName (row.viewName vacmViewWrite))).setView vacmViewNotify
        (readName (row.viewName vacmViewNotify))

theorem vacmParseConfigAccess_savedFields {row : VacmAccessEntry} (wellFormed : row.WellFormed)
    (accessList : List VacmAccessEntry) :
    vacmParseConfigAccess accessList row.savedFields =
      match AccessPtr.getOrCreate accessList row.groupName.str row.contextPrefix.str
        row.securityModel row.securityLevel with
      | none => some accessList
      | some aptr => some (restoreRow row aptr).toList := by
  have skip (str : CString) (rest : List Byte) :
      skipWhite (saveString str ++ rest) = some (saveString str ++ rest) :=
    (isField_saveString str).skipWhite rest
  have skipLast (str : CString) : skipWhite (saveString str) = some (saveString str) := by
    have skipped := skip str []
    rwa [List.append_nil] at skipped
  simp only [vacmParseConfigAccess, vacmParseConfigAccessCommon,
    parseAccessNumbers_savedFields wellFormed, VacmAccessEntry.savedStrings, readField,
    skip, readName_vacmString, ofBuffer_append_zero, Option.bind_eq_bind, Option.bind_some,
    Option.pure_def]
  cases AccessPtr.getOrCreate accessList row.groupName.str row.contextPrefix.str
    row.securityModel row.securityLevel with
  | none => rfl
  | some aptr =>
      simp only [Option.map_some, readField, readLastField, skip, skipLast, Option.bind_some]
      rfl

theorem readAccessLine_vacmSaveAccess (row : VacmAccessEntry)
    (accessList : List VacmAccessEntry) :
    readAccessLine accessList (vacmSaveAccess row vacmToken) =
      vacmParseConfigAccess accessList row.savedFields := by
  have numbers := isField_formatD row.status
  have last := isField_saveString (row.viewName vacmViewNotify)
  have line_eq : vacmSaveAccess row vacmToken =
      (vacmToken ++ accessToken) ++ 0x20 :: row.savedFields := rfl
  have taken : configLine ((vacmToken ++ accessToken) ++ 0x20 :: row.savedFields) =
      some (vacmToken ++ accessToken, row.savedFields) := by
    apply configLine_append
    · decide +kernel
    · decide +kernel
    · decide +kernel
    · intro c mem
      have head : row.savedFields.head? = (formatD row.status).head? := by
        rw [VacmAccessEntry.savedFields, List.head?_append_of_ne_nil _ numbers.nonempty]
      rw [head] at mem
      refine ⟨numbers.noSpace c (List.mem_of_mem_head? mem), ?_⟩
      rintro rfl
      exact numbers.noComment mem
    · intro c mem
      have ending : ∃ front, row.savedFields =
        front ++ saveString (row.viewName vacmViewNotify) := by
        refine ⟨formatD row.status ++ 0x20 :: (formatD row.storageType ++ 0x20 ::
          (formatD row.securityModel ++ 0x20 :: (formatD row.securityLevel ++ 0x20 ::
            (formatD row.contextMatch ++ 0x20 :: (saveString row.groupName.str ++ 0x20 ::
              (saveString row.contextPrefix.str ++ 0x20 ::
                (saveString (row.viewName vacmViewRead) ++ 0x20 ::
                  (saveString (row.viewName vacmViewWrite) ++ [0x20])))))))), ?_⟩
        simp [VacmAccessEntry.savedFields, VacmAccessEntry.savedStrings]
      obtain ⟨front, front_eq⟩ := ending
      rw [front_eq, List.getLast?_append_of_ne_nil _ last.nonempty] at mem
      exact last.noSpace c (List.mem_of_getLast? mem)
    · intro empty
      have first := numbers.nonempty
      simp [VacmAccessEntry.savedFields] at empty
  have same : sameWord (vacmToken ++ accessToken) (vacmToken ++ accessToken) = true := by decide
  rw [line_eq, readAccessLine, taken]
  simp only [same, if_true]

section AccessPtr

variable {aptr : AccessPtr} {number number' : Fin 8}

@[simp]
theorem setView_front (bytes : Option (List Byte)) :
    (aptr.setView number bytes).front = aptr.front := by
  cases bytes <;> rfl

@[simp]
theorem setView_back (bytes : Option (List Byte)) :
    (aptr.setView number bytes).back = aptr.back := by
  cases bytes <;> rfl

theorem setView_row (bytes : Option (List Byte)) :
    ∃ views, (aptr.setView number bytes).row = { aptr.row with views := views } := by
  cases bytes with
  | none => exact ⟨aptr.row.views, rfl⟩
  | some bytes => exact ⟨_, rfl⟩

theorem toList_copyTo (dest : VacmBuffer) {src : List Byte} (short : src.length ≤ vacmStringLen) :
    (copyTo dest src).toList = src ++ dest.toList.drop src.length := by
  rw [copyTo, Vector.toList_ofFn]
  apply List.ext_getElem
  · simp [Nat.add_sub_cancel' short]
  · intro i inside inside'
    rw [List.getElem_ofFn, List.getD_eq_getElem?_getD]
    by_cases isCopied : i < src.length
    · rw [List.getElem_append_left isCopied, List.getElem?_eq_getElem isCopied, Option.getD_some]
    · rw [List.getElem_append_right (by omega), List.getElem?_eq_none (not_lt.mp isCopied),
        Option.getD_none]
      simp [Vector.get, Nat.add_sub_cancel' (not_lt.mp isCopied)]

theorem viewName_setView (str : CString) :
    (aptr.setView number (readName str)).row.viewName number =
      if str.strlen + 2 ≤ vacmStringLen then str else aptr.row.viewName number := by
  unfold readName
  by_cases room : str.strlen + 2 ≤ vacmStringLen
  · rw [if_pos room, if_pos room]
    have copied := toList_copyTo (aptr.row.views.get number)
      (show (str.chars ++ [0] ++ [0]).length ≤ vacmStringLen by
        simp only [List.length_append, List.length_singleton]
        exact room)
    have set_get : (aptr.row.views.set number
        (copyTo (aptr.row.views.get number) (str.chars ++ [0] ++ [0]))).get number =
        copyTo (aptr.row.views.get number) (str.chars ++ [0] ++ [0]) :=
      Vector.getElem_set_self number.isLt
    simp only [AccessPtr.setView, VacmAccessEntry.viewName]
    rw [set_get, copied, List.append_assoc, List.append_assoc]
    exact ofBuffer_append_zero str _
  · rw [if_neg room, if_neg room]
    rfl

theorem viewName_setView_of_ne (ne : number ≠ number') (bytes : Option (List Byte)) :
    (aptr.setView number bytes).row.viewName number' = aptr.row.viewName number' := by
  cases bytes with
  | none => rfl
  | some bytes =>
      have set_get : (aptr.row.views.set number
          (copyTo (aptr.row.views.get number) (bytes ++ [0]))).get number' =
          aptr.row.views.get number' :=
        Vector.getElem_set_ne number.isLt number'.isLt (Fin.val_ne_of_ne ne)
      simp only [AccessPtr.setView, VacmAccessEntry.viewName]
      rw [set_get]

end AccessPtr

def freshRow (row : VacmAccessEntry) : VacmAccessEntry :=
  { groupName := row.groupName
    contextPrefix := row.contextPrefix
    securityModel := row.securityModel
    securityLevel := row.securityLevel }

theorem viewName_of_new {row : VacmAccessEntry}
    (views_eq : row.views = Vector.replicate 8 (Vector.replicate vacmStringLen 0))
    (number : Fin 8) : row.viewName number = ⟨[], by simp⟩ := by
  have buffer : row.views.get number = Vector.replicate vacmStringLen 0 := by
    rw [views_eq]
    simp [Vector.get]
  rw [VacmAccessEntry.viewName, buffer]
  decide +kernel

def restoredView (str : CString) : CString :=
  if str.strlen + 2 ≤ vacmStringLen then str else ⟨[], CString.noNul_nil⟩

def restoredColumns (row : VacmAccessEntry) : AccessColumns :=
  { row.columns with
    readView := restoredView (row.viewName vacmViewRead)
    writeView := restoredView (row.viewName vacmViewWrite)
    notifyView := restoredView (row.viewName vacmViewNotify) }

theorem restoreRow_index (row : VacmAccessEntry) (aptr : AccessPtr) :
    (restoreRow row aptr).front = aptr.front ∧ (restoreRow row aptr).back = aptr.back ∧
      ∃ views, (restoreRow row aptr).row =
        { aptr.row with
          status := row.status
          storageType := row.storageType
          securityModel := row.securityModel
          securityLevel := row.securityLevel
          contextMatch := row.contextMatch
          views := views } := by
  refine ⟨by simp [restoreRow, AccessPtr.assign], by simp [restoreRow, AccessPtr.assign], ?_⟩
  obtain ⟨views₁, row₁⟩ := @setView_row (aptr.assign ⟨row.status, row.storageType,
    row.securityModel, row.securityLevel, row.contextMatch⟩) vacmViewRead
      (readName (row.viewName vacmViewRead))
  obtain ⟨views₂, row₂⟩ := @setView_row ((aptr.assign ⟨row.status, row.storageType,
    row.securityModel, row.securityLevel, row.contextMatch⟩).setView vacmViewRead
      (readName (row.viewName vacmViewRead))) vacmViewWrite (readName (row.viewName vacmViewWrite))
  obtain ⟨views₃, row₃⟩ := @setView_row (((aptr.assign ⟨row.status, row.storageType,
    row.securityModel, row.securityLevel, row.contextMatch⟩).setView vacmViewRead
      (readName (row.viewName vacmViewRead))).setView vacmViewWrite
        (readName (row.viewName vacmViewWrite))) vacmViewNotify
          (readName (row.viewName vacmViewNotify))
  refine ⟨views₃, ?_⟩
  rw [restoreRow, row₃, row₂, row₁]
  rfl

theorem columns_restoreRow (row : VacmAccessEntry) (front back : List VacmAccessEntry) :
    (restoreRow row ⟨front, freshRow row, back⟩).row.columns = restoredColumns row := by
  have views := viewName_of_new (show (freshRow row).views = _ from rfl)
  obtain ⟨-, -, others, row_eq⟩ := restoreRow_index row ⟨front, freshRow row, back⟩
  have first : (restoreRow row ⟨front, freshRow row, back⟩).row.viewName vacmViewRead =
      restoredView (row.viewName vacmViewRead) := by
    rw [restoreRow, viewName_setView_of_ne (by decide), viewName_setView_of_ne (by decide),
      viewName_setView]
    exact congrArg (ite _ _) (views vacmViewRead)
  have second : (restoreRow row ⟨front, freshRow row, back⟩).row.viewName vacmViewWrite =
      restoredView (row.viewName vacmViewWrite) := by
    rw [restoreRow, viewName_setView_of_ne (by decide), viewName_setView,
      viewName_setView_of_ne (by decide)]
    exact congrArg (ite _ _) (views vacmViewWrite)
  have third : (restoreRow row ⟨front, freshRow row, back⟩).row.viewName vacmViewNotify =
      restoredView (row.viewName vacmViewNotify) := by
    rw [restoreRow, viewName_setView, viewName_setView_of_ne (by decide),
      viewName_setView_of_ne (by decide)]
    exact congrArg (ite _ _) (views vacmViewNotify)
  rw [VacmAccessEntry.columns, first, second, third, row_eq]
  rfl

theorem vacmGetAccessEntry_indexRequest (accessList : List VacmAccessEntry)
    (row : VacmAccessEntry) :
    ((∀ vp ∈ accessList, ¬ AccessMatches (indexRequest row) vp) ∧
        vacmGetAccessEntry accessList row.groupName.str row.contextPrefix.str row.securityModel
          row.securityLevel = none) ∨
      ∃ vp ∈ accessList, AccessMatches (indexRequest row) vp ∧
        vacmGetAccessEntry accessList row.groupName.str row.contextPrefix.str row.securityModel
          row.securityLevel = some vp := by
  have looked : vacmGetAccessEntry accessList row.groupName.str row.contextPrefix.str
      row.securityModel row.securityLevel =
      (accessList.filter (accessMatches row.groupName row.contextPrefix row.securityModel
        row.securityLevel)).foldl (keepBest replacesCurrent) none := by
    rw [vacmGetAccessEntry, vacmString_eq_some_iff.mpr rfl, vacmString_eq_some_iff.mpr rfl]
    exact getAccessLoop_eq _ _ _ _ _ _
  rw [looked]
  have mem_iff (vp : VacmAccessEntry) :
      vp ∈ accessList.filter (accessMatches row.groupName row.contextPrefix row.securityModel
        row.securityLevel) ↔ vp ∈ accessList ∧ AccessMatches (indexRequest row) vp := by
    rw [List.mem_filter, accessMatches_iff]
    rfl
  cases rows : accessList.filter (accessMatches row.groupName row.contextPrefix
    row.securityModel row.securityLevel) with
  | nil =>
      rw [rows] at mem_iff
      left
      refine ⟨fun vp mem matched => ?_, rfl⟩
      exact absurd ((mem_iff vp).mpr ⟨mem, matched⟩) (by simp)
  | cons first rest =>
      rw [rows] at mem_iff
      right
      rcases foldl_keepBest_mem replacesCurrent first rest with ⟨best, mem, best_eq⟩
      rcases (mem_iff best).mp mem with ⟨bestMem, matched⟩
      exact ⟨best, bestMem, matched, best_eq⟩

theorem toList_find {accessList : List VacmAccessEntry} {vp : VacmAccessEntry}
    (mem : vp ∈ accessList) : (AccessPtr.find accessList vp).toList = accessList := by
  induction accessList with
  | nil => exact absurd mem (by simp)
  | cons first rest ih =>
      by_cases same : first = vp
      · subst same
        simp [AccessPtr.find, AccessPtr.toList]
      · have later := ih ((List.mem_cons.mp mem).resolve_left (Ne.symm same))
        simpa [AccessPtr.find, AccessPtr.toList, same] using later

theorem readAccessLine_cases {row : VacmAccessEntry} (wellFormed : row.WellFormed)
    (accessList : List VacmAccessEntry) :
    ∃ accessList', readAccessLine accessList (vacmSaveAccess row vacmToken) = some accessList' ∧
      (((∀ vp ∈ accessList, ¬ AccessMatches (indexRequest row) vp) ∧
          ∃ restored, restored.columns = restoredColumns row ∧
            accessList'.Perm (restored :: accessList)) ∨
        ∃ front vp back restored, accessList = front ++ vp :: back ∧
          AccessMatches (indexRequest row) vp ∧
          accessIndex restored = toLex (vp.groupName.order, toLex (vp.contextPrefix.order,
            toLex (row.securityModel, row.securityLevel))) ∧
          accessList' = front ++ restored :: back) := by
  rw [readAccessLine_vacmSaveAccess, vacmParseConfigAccess_savedFields wellFormed]
  rcases vacmGetAccessEntry_indexRequest accessList row with ⟨unmatched, looked⟩ |
    ⟨vp, mem, matched, looked⟩
  · have created : AccessPtr.getOrCreate accessList row.groupName.str row.contextPrefix.str
        row.securityModel row.securityLevel =
        some (AccessPtr.insert accessList (freshRow row)) := by
      rw [AccessPtr.getOrCreate, looked, vacmCreateAccessEntry, vacmString_eq_some_iff.mpr rfl,
        vacmString_eq_some_iff.mpr rfl]
      rfl
    rw [created]
    refine ⟨_, rfl, .inl ⟨unmatched, (restoreRow row (AccessPtr.insert accessList
      (freshRow row))).row, columns_restoreRow row _ _, ?_⟩⟩
    have kept := restoreRow_index row (AccessPtr.insert accessList (freshRow row))
    rw [AccessPtr.toList, kept.1, kept.2.1]
    refine List.perm_middle.trans (List.Perm.cons _ ?_)
    rw [AccessPtr.insert, List.takeWhile_append_dropWhile]
  · have found : AccessPtr.getOrCreate accessList row.groupName.str row.contextPrefix.str
        row.securityModel row.securityLevel = some (AccessPtr.find accessList vp) := by
      rw [AccessPtr.getOrCreate, looked]
    rw [found]
    rcases restoreRow_index row (AccessPtr.find accessList vp) with
      ⟨front_eq, back_eq, views, row_eq⟩
    refine ⟨_, rfl, .inr ⟨(AccessPtr.find accessList vp).front, vp,
      (AccessPtr.find accessList vp).back, (restoreRow row (AccessPtr.find accessList vp)).row,
      (toList_find mem).symm, matched, ?_, ?_⟩⟩
    · rw [row_eq]
      rfl
    · rw [AccessPtr.toList, front_eq, back_eq]

theorem accessMatches_of_columns {request : AccessRequest} {row restored : VacmAccessEntry}
    (columns_eq : restored.columns = restoredColumns row) :
    AccessMatches request restored ↔ AccessMatches request row := by
  simp only [VacmAccessEntry.columns, restoredColumns, AccessColumns.mk.injEq] at columns_eq
  rcases columns_eq with ⟨groupName, contextPrefix, model, level, contextMatch, -⟩
  constructor
  · rintro ⟨group, model', level', context⟩
    rw [groupName] at group
    rw [model] at model'
    rw [level] at level'
    rw [contextPrefix, contextMatch] at context
    exact ⟨group, model', level', context⟩
  · rintro ⟨group, model', level', context⟩
    rw [← groupName] at group
    rw [← model] at model'
    rw [← level] at level'
    rw [← contextPrefix, ← contextMatch] at context
    exact ⟨group, model', level', context⟩

/-- No row of the list and no earlier row matches the index of one of the rows. -/
def Unmatched (rows accessList : List VacmAccessEntry) : Prop :=
  (∀ row ∈ rows, ∀ vp ∈ accessList, ¬ AccessMatches (indexRequest row) vp) ∧ NoneMatchesLater rows

theorem unmatched_cons_iff {row restored : VacmAccessEntry}
    {rows accessList accessList' : List VacmAccessEntry}
    (columns_eq : restored.columns = restoredColumns row)
    (added : accessList'.Perm (restored :: accessList)) :
    Unmatched (row :: rows) accessList ↔
      (∀ vp ∈ accessList, ¬ AccessMatches (indexRequest row) vp) ∧
        Unmatched rows accessList' := by
  simp only [Unmatched, NoneMatchesLater, List.pairwise_cons, List.forall_mem_cons,
    added.mem_iff, accessMatches_of_columns columns_eq]
  constructor
  · rintro ⟨⟨here, later⟩, mine, others⟩
    exact ⟨here, fun row' mem => ⟨mine row' mem, later row' mem⟩, others⟩
  · rintro ⟨here, both, others⟩
    exact ⟨⟨here, fun row' mem => (both row' mem).2⟩, fun row' mem => (both row' mem).1, others⟩

theorem reloadAccess_cases {rows : List VacmAccessEntry}
    (wellFormed : ∀ row ∈ rows, row.WellFormed) (accessList : List VacmAccessEntry) :
    ∃ rebuilt, reloadAccess rows accessList = some rebuilt ∧
      ((Unmatched rows accessList ∧ (rebuilt.map VacmAccessEntry.columns).Perm
          (rows.map restoredColumns ++ accessList.map VacmAccessEntry.columns)) ∨
        (¬ Unmatched rows accessList ∧ rebuilt.length < rows.length + accessList.length)) := by
  induction rows generalizing accessList with
  | nil =>
      refine ⟨accessList, rfl, .inl ⟨⟨by simp, List.Pairwise.nil⟩, ?_⟩⟩
      simp
  | cons row rows ih =>
      obtain ⟨accessList', read, cases⟩ :=
        readAccessLine_cases (wellFormed row List.mem_cons_self) accessList
      obtain ⟨rebuilt, reloaded, result⟩ :=
        ih (fun row' mem => wellFormed row' (List.mem_cons_of_mem _ mem)) accessList'
      refine ⟨rebuilt, ?_, ?_⟩
      · rw [reloadAccess, List.foldlM_cons, read]
        exact reloaded
      · rcases cases with ⟨unmatched, restored, columns_eq, added⟩ |
          ⟨front, vp, back, restored, rfl, matched, -, rfl⟩
        · rw [unmatched_cons_iff columns_eq added]
          rcases result with ⟨later, perm⟩ | ⟨later, fewer⟩
          · refine .inl ⟨⟨unmatched, later⟩, perm.trans ?_⟩
            have added' := (added.map VacmAccessEntry.columns).append_left
              (rows.map restoredColumns)
            rw [List.map_cons, columns_eq] at added'
            exact added'.trans List.perm_middle
          · refine .inr ⟨fun both => later both.2, ?_⟩
            have length_eq := added.length_eq
            simp only [List.length_cons] at length_eq ⊢
            omega
        · have notUnmatched : ¬ Unmatched (row :: rows) (front ++ vp :: back) := by
            rintro ⟨unmatched, -⟩
            exact unmatched row List.mem_cons_self vp (by simp) matched
          refine .inr ⟨notUnmatched, ?_⟩
          rcases result with ⟨-, perm⟩ | ⟨-, fewer⟩
          · have length_eq := perm.length_eq
            simp only [List.length_map, List.length_append, List.length_cons] at length_eq ⊢
            omega
          · simp only [List.length_append, List.length_cons] at fewer ⊢
            omega

theorem restoredView_eq_iff {str : CString} (ended : str.strlen < vacmStringLen) :
    restoredView str = str ↔ str.strlen ≤ vacmMaxString := by
  have width : vacmStringLen = vacmMaxString + 2 := rfl
  unfold restoredView
  by_cases room : str.strlen + 2 ≤ vacmStringLen
  · rw [if_pos room]
    exact iff_of_true rfl (by omega)
  · rw [if_neg room]
    refine iff_of_false ?_ (by omega)
    rintro rfl
    exact room (by decide)

theorem restoredColumns_eq_iff {row : VacmAccessEntry} (wellFormed : row.WellFormed) :
    restoredColumns row = row.columns ↔ ShortViews row := by
  simp only [restoredColumns, VacmAccessEntry.columns, AccessColumns.mk.injEq, true_and, and_true,
    restoredView_eq_iff (wellFormed.ended _)]
  simp [ShortViews]

theorem not_rebuilds_of_matches {rows : List VacmAccessEntry}
    (wellFormed : ∀ row ∈ rows, row.WellFormed) (matched : ¬ NoneMatchesLater rows) :
    ¬ Rebuilds rows := by
  rintro ⟨rebuilt, reloaded, same⟩
  obtain ⟨rebuilt', reloaded', result⟩ := reloadAccess_cases wellFormed []
  obtain rfl : rebuilt' = rebuilt := Option.some.inj (reloaded'.symm.trans reloaded)
  rcases result with ⟨unmatched, -⟩ | ⟨-, fewer⟩
  · exact matched unmatched.2
  · have length_eq := same.length_eq
    simp only [List.length_map, List.length_nil, Nat.add_zero] at length_eq fewer
    omega

/-- Rows with different indexes are rebuilt from their lines exactly when no row matches the index
of a later one, and no view name is longer than 32 characters. -/
theorem rebuilds_iff {rows : List VacmAccessEntry}
    (wellFormed : ∀ row ∈ rows, row.WellFormed)
    (unique : (rows.map accessIndex).Nodup) :
    Rebuilds rows ↔ NoneMatchesLater rows ∧ ∀ row ∈ rows, ShortViews row := by
  by_cases noneMatches : NoneMatchesLater rows
  · obtain ⟨rebuilt, reloaded, result⟩ := reloadAccess_cases wellFormed []
    have unmatched : Unmatched rows [] := ⟨by simp, noneMatches⟩
    have perm := (result.resolve_right fun fewer => fewer.1 unmatched).2
    rw [List.map_nil, List.append_nil] at perm
    have rebuilds : Rebuilds rows ↔
        (rebuilt.map VacmAccessEntry.columns).Perm (rows.map VacmAccessEntry.columns) := by
      simp [Rebuilds, reloaded]
    rw [rebuilds, and_iff_right noneMatches]
    constructor
    · intro same row mem
      rw [← restoredColumns_eq_iff (wellFormed row mem)]
      -- the row with the columns of this one has its index, and so is this one
      have mem_restored := (same.symm.trans perm).mem_iff.mp (List.mem_map_of_mem mem)
      rcases List.mem_map.mp mem_restored with ⟨row', mem', columns_eq⟩
      have index_eq : accessIndex row' = accessIndex row := by
        simp only [restoredColumns, VacmAccessEntry.columns, AccessColumns.mk.injEq] at columns_eq
        rcases columns_eq with ⟨groupName, contextPrefix, model, level, -⟩
        rw [accessIndex, groupName, contextPrefix, model, level]
        rfl
      obtain rfl : row' = row := List.inj_on_of_nodup_map unique mem' mem index_eq
      exact columns_eq
    · intro short
      have columns_eq : rows.map restoredColumns = rows.map VacmAccessEntry.columns :=
        List.map_congr_left fun row mem =>
          (restoredColumns_eq_iff (wellFormed row mem)).mpr (short row mem)
      rwa [columns_eq] at perm
  · refine iff_of_false (not_rebuilds_of_matches wellFormed noneMatches) ?_
    rintro ⟨noneMatches', -⟩
    exact noneMatches noneMatches'

/-- A row of the group `g` for the default context, without views. -/
def savedRow (securityModel : Int) : VacmAccessEntry where
  groupName := nameG
  contextPrefix := emptyName
  securityModel := securityModel
  securityLevel := 1
  contextMatch := contextMatchExact
  storageType := stNonvolatile
  status := rsActive

example : (reloadAccess [{ savedRow snmpSecModelAny with securityLevel := 3 }, savedRow 2,
    { savedRow 3 with securityLevel := 3 }] []).map
      (List.map fun row => (row.securityModel, row.securityLevel)) = some [(3, 3), (2, 1)] := by
  decide +kernel

theorem wellFormed_savedRow {securityModel : Int} (isInt : IsInt securityModel) :
    (savedRow securityModel).WellFormed where
  status := by constructor <;> simp [savedRow, rsActive]
  storageType := by constructor <;> simp [savedRow, stNonvolatile]
  securityModel := isInt
  securityLevel := by constructor <;> simp [savedRow]
  contextMatch := by constructor <;> simp [savedRow, contextMatchExact]
  ended number := by
    rw [viewName_of_new rfl]
    decide

theorem accessTable_savedRows {securityModel securityModel' : Int}
    (lt : securityModel < securityModel') :
    AccessTable [savedRow securityModel, savedRow securityModel'] := by
  have first : AccessTable ([] ++ freshRow (savedRow securityModel) :: []) :=
    .create .empty (show vacmCreateAccessEntry [] ⟨[0x67], by decide⟩ ⟨[], by decide⟩
      securityModel 1 = some (_, freshRow (savedRow securityModel)) from rfl)
  have assigned : AccessTable [savedRow securityModel] := first.assign rfl rfl rfl rfl
  have behind : accessBehind (freshRow (savedRow securityModel')) (savedRow securityModel) =
      false := by
    apply Bool.eq_false_iff.mpr
    rw [ne_eq, accessBehind_iff]
    simp [accessIndex, freshRow, savedRow, Prod.Lex.toLex_lt_toLex, lt.not_gt, lt.ne']
  have created : vacmCreateAccessEntry [savedRow securityModel] ⟨[0x67], by decide⟩
      ⟨[], by decide⟩ securityModel' 1 =
      some ([savedRow securityModel] ++ freshRow (savedRow securityModel') :: [],
        freshRow (savedRow securityModel')) := by
    have inserted : insertBefore (accessBehind (freshRow (savedRow securityModel')))
        (freshRow (savedRow securityModel')) [savedRow securityModel] =
        [savedRow securityModel, freshRow (savedRow securityModel')] := by
      simp [insertBefore, behind]
    exact congrArg (fun list => some (list, freshRow (savedRow securityModel'))) inserted
  have second := assigned.create created
  exact second.assign rfl rfl rfl rfl

theorem rebuilds_twoModels : Rebuilds [savedRow 2, savedRow 3] := by
  have isInt : ∀ row ∈ [savedRow 2, savedRow 3], row.WellFormed := by
    simp only [List.forall_mem_cons]
    exact ⟨wellFormed_savedRow ⟨by decide, by decide⟩, wellFormed_savedRow ⟨by decide, by decide⟩,
      by simp⟩
  apply (rebuilds_iff isInt (by decide +kernel)).mpr
  constructor
  · apply List.pairwise_pair.mpr
    rintro ⟨-, model, -⟩
    exact absurd model (by decide)
  · intro row mem number _
    have views_eq : row.views = Vector.replicate 8 (Vector.replicate vacmStringLen 0) := by
      rcases List.mem_cons.mp mem with rfl | mem
      · rfl
      · obtain rfl := List.mem_singleton.mp mem
        rfl
    rw [viewName_of_new views_eq]
    decide

/-- A row for any security model matches the index of the row for one behind it. -/
theorem not_rebuilds_wildcard :
    ¬ ∀ rows : List VacmAccessEntry, AccessTable rows →
      (∀ row ∈ rows, row.WellFormed ∧ row.storageType = stNonvolatile) →
      (rows.map accessIndex).Nodup → Rebuilds rows := by
  intro rebuilds
  have wildcard := @wellFormed_savedRow snmpSecModelAny ⟨by decide, by decide⟩
  have specific := @wellFormed_savedRow 3 ⟨by decide, by decide⟩
  have wellFormed : ∀ row ∈ [savedRow snmpSecModelAny, savedRow 3], row.WellFormed := by
    simp only [List.forall_mem_cons]
    exact ⟨wildcard, specific, by simp⟩
  apply not_rebuilds_of_matches wellFormed _
    (rebuilds [savedRow snmpSecModelAny, savedRow 3] (accessTable_savedRows (by decide)) _ _)
  · intro noneMatches
    apply List.pairwise_pair.mp noneMatches
    exact ⟨rfl, .inr rfl, le_rfl, .inl ⟨rfl, rfl⟩⟩
  · simp only [List.forall_mem_cons]
    exact ⟨⟨wildcard, rfl⟩, ⟨specific, rfl⟩, by simp⟩
  · decide +kernel

end NetSnmp
