import NetSnmp.Vacm.View

/-!
# The subtree check against the decision for a single name

The check walks the list once.  For any name in the subtree, an entry that is
not longer than the subtree matches the name exactly when it matches the
subtree, and an entry that is longer beats all of those.
-/

namespace NetSnmp

theorem viewMatches_find_iff {view : VacmString} {viewSubtree : Oid} {vp : VacmViewEntry} :
    viewMatches view viewSubtree .find vp = true ↔
      nameMatches view vp = true ∧ vp.viewSubtree.length ≤ viewSubtree.length ∧
        checkMask vp false 0x80 0 viewSubtree vp.viewSubtree = true := by
  simp [viewMatches, and_assoc]

theorem checkMask_append_of_le (vp : VacmViewEntry) (ignoreMask : Bool) (mask : Byte)
    (maskpos : Nat) (viewSubtree more entrySubtree : Oid)
    (le : entrySubtree.length ≤ viewSubtree.length) :
    checkMask vp ignoreMask mask maskpos (viewSubtree ++ more) entrySubtree =
      checkMask vp ignoreMask mask maskpos viewSubtree entrySubtree := by
  induction viewSubtree generalizing mask maskpos entrySubtree with
  | nil =>
      obtain rfl : entrySubtree = [] := List.length_eq_zero_iff.mp (Nat.le_zero.mp le)
      cases more <;> rfl
  | cons subid viewSubtree ih =>
      cases entrySubtree with
      | nil => rfl
      | cons subid' entrySubtree =>
          have le' : entrySubtree.length ≤ viewSubtree.length := by simpa using le
          simp only [List.cons_append, checkMask, ih _ _ _ le']

theorem checkMask_of_append {vp : VacmViewEntry} {ignoreMask : Bool} {mask : Byte}
    {maskpos : Nat} {viewSubtree more entrySubtree : Oid}
    (accepts : checkMask vp ignoreMask mask maskpos (viewSubtree ++ more) entrySubtree = true) :
    checkMask vp ignoreMask mask maskpos viewSubtree entrySubtree = true := by
  induction viewSubtree generalizing mask maskpos entrySubtree with
  | nil => cases entrySubtree <;> rfl
  | cons subid viewSubtree ih =>
      cases entrySubtree with
      | nil => rfl
      | cons subid' entrySubtree =>
          simp only [List.cons_append, checkMask] at accepts ⊢
          split at accepts
          · exact absurd accepts (by simp)
          · rename_i agrees
            rw [if_neg agrees]
            split at accepts
            · rename_i last
              rw [if_pos last]
              exact ih accepts
            · rename_i last
              rw [if_neg last]
              exact ih accepts

theorem keepLonger_eq_or (best : Option VacmViewEntry) (vp : VacmViewEntry) :
    keepLonger best vp = some vp ∨ keepLonger best vp = best := by
  cases best with
  | none => exact .inl rfl
  | some vpret =>
      unfold keepLonger
      split
      · rename_i same
        exact absurd same (by simp)
      · rename_i same
        split
        · exact .inl rfl
        · rename_i entry _ _
          exact .inr (by simpa using same.symm)

theorem keepLonger_of_longer {best : Option VacmViewEntry} {vp : VacmViewEntry}
    (longer : ∀ entry ∈ best, entry.viewSubtree.length < vp.viewSubtree.length) :
    keepLonger best vp = some vp := by
  cases best with
  | none => rfl
  | some entry => exact if_pos (.inl (longer entry rfl))

theorem keepLonger_of_shorter {entry vp : VacmViewEntry}
    (shorter : vp.viewSubtree.length < entry.viewSubtree.length) :
    keepLonger (some entry) vp = some entry := by
  apply if_neg
  rintro (longer | ⟨same, -⟩)
  · omega
  · omega

section Walk

variable {view : VacmString} {viewSubtree more : Oid}

/-- What the two walks know after the same entries: every entry that was longer and matched has the
type of the first one, and the decision for a name below the subtree is the best shorter entry
unless it is one of the longer ones. -/
structure Agrees (viewSubtree : Oid) (vpShorter vpLonger vpret : Option VacmViewEntry) : Prop where
  shorter_le : ∀ entry ∈ vpShorter, entry.viewSubtree.length ≤ viewSubtree.length
  decided : vpret = vpShorter ∨
    ∃ entry longer, vpret = some entry ∧ viewSubtree.length < entry.viewSubtree.length ∧
      vpLonger = some longer ∧ longer.viewType = entry.viewType

theorem Agrees.short {vpShorter vpLonger vpret : Option VacmViewEntry} {vp : VacmViewEntry}
    (agrees : Agrees viewSubtree vpShorter vpLonger vpret)
    (le : vp.viewSubtree.length ≤ viewSubtree.length) :
    Agrees viewSubtree (keepLonger vpShorter vp) vpLonger (keepLonger vpret vp) := by
  constructor
  · intro entry mem
    rcases keepLonger_eq_or vpShorter vp with kept | kept
    · rw [kept] at mem
      obtain rfl : vp = entry := by simpa using mem
      exact le
    · rw [kept] at mem
      exact agrees.shorter_le entry mem
  · rcases agrees.decided with same | ⟨entry, longer, rfl, gt, longer_eq, type_eq⟩
    · exact .inl (by rw [same])
    · refine .inr ⟨entry, longer, ?_, gt, longer_eq, type_eq⟩
      exact keepLonger_of_shorter (lt_of_le_of_lt le gt)

theorem Agrees.long {vpShorter vpLonger vpret : Option VacmViewEntry} {vp longer : VacmViewEntry}
    (agrees : Agrees viewSubtree vpShorter vpLonger vpret)
    (gt : viewSubtree.length < vp.viewSubtree.length) (accepts : Bool)
    (type_eq : longer.viewType = vp.viewType)
    (kept : ∀ entry ∈ vpLonger, entry = longer) :
    Agrees viewSubtree vpShorter (some longer)
      (if accepts then keepLonger vpret vp else vpret) := by
  refine ⟨agrees.shorter_le, ?_⟩
  have old : vpret = vpShorter ∨ ∃ entry longer', vpret = some entry ∧
      viewSubtree.length < entry.viewSubtree.length ∧
      some longer = some longer' ∧ longer'.viewType = entry.viewType := by
    rcases agrees.decided with same | ⟨entry, longer', ret, entry_gt, longer_eq, type_eq'⟩
    · exact .inl same
    · obtain rfl := kept longer' longer_eq
      exact .inr ⟨entry, longer', ret, entry_gt, rfl, type_eq'⟩
  cases accepts with
  | false => exact old
  | true =>
      rcases keepLonger_eq_or vpret vp with taken | left
      · exact .inr ⟨vp, longer, taken, gt, rfl, type_eq⟩
      · rcases old with same | other
        · -- a shorter decision is given up, so that this case is the other one
          refine .inr ⟨vp, longer, keepLonger_of_longer ?_, gt, rfl, type_eq⟩
          intro entry mem
          rw [same] at mem
          exact lt_of_le_of_lt (agrees.shorter_le entry mem) gt
        · simp only [if_true, left]
          exact .inr other

theorem agrees_loops (head : List VacmViewEntry) {vpShorter vpLonger vpret : Option VacmViewEntry}
    (agrees : Agrees viewSubtree vpShorter vpLonger vpret) (count : Nat)
    {vpShorter' vpLonger' : Option VacmViewEntry}
    (checked : subtreeCheckLoop view viewSubtree head vpShorter vpLonger =
      some (vpShorter', vpLonger')) :
    Agrees viewSubtree vpShorter' vpLonger'
      (viewGetLoop view (viewSubtree ++ more) .find head vpret count).1 := by
  induction head generalizing vpShorter vpLonger vpret count with
  | nil =>
      obtain ⟨rfl, rfl⟩ : vpShorter = vpShorter' ∧ vpLonger = vpLonger' := by
        simpa [subtreeCheckLoop] using checked
      exact agrees
  | cons vp head ih =>
      rw [subtreeCheckLoop] at checked
      rw [viewGetLoop]
      by_cases named : nameMatches view vp = true
      · rw [if_pos named] at checked
        by_cases le : vp.viewSubtree.length ≤ viewSubtree.length
        · rw [if_pos le] at checked
          have same : viewMatches view (viewSubtree ++ more) .find vp =
              checkMask vp false 0x80 0 viewSubtree vp.viewSubtree := by
            rw [← checkMask_append_of_le vp false 0x80 0 viewSubtree more _ le]
            have le' : vp.viewSubtree.length ≤ viewSubtree.length + more.length := by omega
            simp [viewMatches, named, le']
          rw [same]
          by_cases accepts : checkMask vp false 0x80 0 viewSubtree vp.viewSubtree = true
          · rw [if_pos accepts] at checked ⊢
            exact ih (agrees.short le) (count + 1) checked
          · rw [if_neg accepts] at checked ⊢
            exact ih agrees count checked
        · rw [if_neg le] at checked
          have gt : viewSubtree.length < vp.viewSubtree.length := by omega
          by_cases partly : checkMask vp false 0x80 0 viewSubtree vp.viewSubtree = true
          · rw [if_pos partly] at checked
            -- whether or not the name is in this longer entry, the types agree
            have step (longer : VacmViewEntry) (type_eq : longer.viewType = vp.viewType)
                (kept : ∀ entry ∈ vpLonger, entry = longer) (checked' : subtreeCheckLoop view
                  viewSubtree head vpShorter (some longer) = some (vpShorter', vpLonger')) :
                Agrees viewSubtree vpShorter' vpLonger'
                  (if viewMatches view (viewSubtree ++ more) .find vp then
                    viewGetLoop view (viewSubtree ++ more) .find head (keepLonger vpret vp)
                      (count + 1)
                  else viewGetLoop view (viewSubtree ++ more) .find head vpret count).1 := by
              have both := agrees.long gt (viewMatches view (viewSubtree ++ more) .find vp)
                type_eq kept
              split
              · rename_i accepts
                rw [if_pos accepts] at both
                exact ih both (count + 1) checked'
              · rename_i rejects
                rw [if_neg rejects] at both
                exact ih both count checked'
            split at checked
            · exact absurd checked (by simp)
            · rename_i consistent
              cases vpLonger with
              | none => exact step vp rfl (by simp) checked
              | some longer =>
                  have type_eq : longer.viewType = vp.viewType := by simpa using consistent
                  exact step longer type_eq (by simp) checked
          · rw [if_neg partly] at checked
            have rejects : viewMatches view (viewSubtree ++ more) .find vp = false := by
              apply Bool.eq_false_iff.mpr
              intro accepts
              exact partly (checkMask_of_append (viewMatches_find_iff.mp accepts).2.2)
            rw [rejects]
            exact ih agrees count checked
      · rw [if_neg named] at checked
        have rejects : viewMatches view (viewSubtree ++ more) .find vp = false := by
          apply Bool.eq_false_iff.mpr
          intro accepts
          exact named (viewMatches_find_iff.mp accepts).1
        rw [rejects]
        exact ih agrees count checked

end Walk

theorem netsnmpViewGet_find {head : List VacmViewEntry} {viewName : CString} {view : VacmString}
    (copied : vacmString viewName = some view) (name : Oid) :
    netsnmpViewGet head viewName name .find = (viewGetLoop view name .find head none 0).1 := by
  simp [netsnmpViewGet, copied]

/-- A definite answer of the check is the decision for the root of the subtree and for every name
below it. -/
theorem isIncluded_netsnmpViewGet_of_check (head : List VacmViewEntry) (viewName : CString)
    (viewSubtree more : Oid) :
    (netsnmpViewSubtreeCheck head viewName viewSubtree = .success →
      isIncluded (netsnmpViewGet head viewName (viewSubtree ++ more) .find) = true) ∧
    (netsnmpViewSubtreeCheck head viewName viewSubtree = .notInView →
      isIncluded (netsnmpViewGet head viewName (viewSubtree ++ more) .find) = false) := by
  cases copied : vacmString viewName with
  | none => simp [netsnmpViewSubtreeCheck, netsnmpViewGet, copied, isIncluded]
  | some view =>
      rw [netsnmpViewGet_find copied]
      simp only [netsnmpViewSubtreeCheck, copied]
      cases checked : subtreeCheckLoop view viewSubtree head none none with
      | none => simp
      | some ending =>
          rcases ending with ⟨vpShorter, vpLonger⟩
          have start : Agrees viewSubtree none none none := ⟨by simp, .inl rfl⟩
          have agrees : Agrees viewSubtree vpShorter vpLonger
              (viewGetLoop view (viewSubtree ++ more) .find head none 0).1 :=
            agrees_loops head start 0 checked
          have same (consistent : longerContradicts vpShorter vpLonger = false) :
              isIncluded (viewGetLoop view (viewSubtree ++ more) .find head none 0).1 =
                isIncluded vpShorter := by
            rcases agrees.decided with ret | ⟨entry, longer, ret, -, rfl, type_eq⟩
            · rw [ret]
            · rw [ret]
              cases vpShorter with
              | none => simpa [longerContradicts, isIncluded, ← type_eq] using consistent
              | some shorter =>
                  have type_eq' : longer.viewType = shorter.viewType := by
                    simpa [longerContradicts] using consistent
                  simp [isIncluded, ← type_eq, type_eq']
          by_cases contradicts : longerContradicts vpShorter vpLonger = true
          · simp [contradicts]
          · have consistent := Bool.eq_false_iff.mpr contradicts
            rw [same consistent]
            cases included : isIncluded vpShorter <;> simp [consistent, included]

end NetSnmp
