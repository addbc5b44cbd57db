import NetSnmp.Vacm.SimpleUsm

/-!
# Whether deleting undoes adding

Deleting passes an object identifier where a stored subtree is compared, and the
name of the group as it was before its characters were replaced.  So it undoes
adding when there was no view to make and no character to replace.
-/

namespace NetSnmp

/-- What adding did is undone: by itself if it failed, and else by deleting with the same
arguments. -/
def Undone (s : VacmState) (args : SimpleUsm) : Prop :=
  match args.user, netsnmpVacmSimpleUsmAdd s args with
  | _, none => False
  | _, some (false, s') => s' = s
  | none, some (true, _) => False
  | some user, some (true, s') => netsnmpVacmSimpleUsmDel s' user args = some s

structure Newcomer (s : VacmState) (args : SimpleUsm) : Prop where
  group : ∀ user, args.user = some user → ∀ gp ∈ s.groupList,
    gp.securityModel = vacmSecModelUsm → gp.securityName.str ≠ user
  access : ∀ user, args.user = some user → ∀ vp ∈ s.accessList,
    vp.groupName.str ≠ simpleGroup user

namespace SimpleUsm

def MakesView (args : SimpleUsm) (s : VacmState) : Prop :=
  ∃ view, args.view = some view ∧ netsnmpViewExists s.viewList view = 0

def ViewAccepted (args : SimpleUsm) (s : VacmState) : Prop :=
  match args.view with
  | none => args.oidView.subids = none
  | some view =>
      if netsnmpViewExists s.viewList view = 0 then
        view.strlen ≤ vacmMaxString ∧
          ∃ subids, args.oidView.subids = some subids ∧ subids.length ≤ maxOidLen
      else args.oidView.isGiven = false

/-- The arguments are not refused before the context is looked at. -/
structure Accepted (args : SimpleUsm) (s : VacmState) : Prop where
  user : ∃ user, args.user = some user ∧ user.strlen ≤ vacmMaxString
  authLevel : snmpSecLevelNoauth ≤ args.authLevel ∧ args.authLevel ≤ snmpSecLevelAuthpriv
  view : args.ViewAccepted s

/-- The context is not empty, and fits into the array if a `*` is to be cut off. -/
def ContextSafe (args : SimpleUsm) : Prop :=
  ∀ context, args.context = some context → context.chars ≠ [] ∧
    (context.chars.getLast? = some 0x2a → context.strlen ≤ vacmStringLen)

def ContextFits (args : SimpleUsm) : Prop :=
  ∀ context, args.context = some context →
    if context.chars.getLast? = some 0x2a then context.strlen ≤ vacmMaxString + 1
    else context.strlen ≤ vacmMaxString

/-- The part of the user name that goes into the name of the group is of letters, digits and
underscores. -/
def PlainName (args : SimpleUsm) : Prop :=
  ∀ user, args.user = some user → ∀ c ∈ user.chars.take 28, isalnum c = true ∨ c = 0x5f

end SimpleUsm

section InsertBefore

variable {α : Type} {behind isRow : α → Bool} {row : α} {list : List α}

theorem eraseP_insertBefore (here : isRow row = true)
    (others : ∀ other ∈ list, isRow other = false) :
    (insertBefore behind row list).eraseP isRow = list := by
  induction list with
  | nil => simp [insertBefore, here]
  | cons first rest ih =>
      have firstOther := others first List.mem_cons_self
      rw [insertBefore]
      split
      · rw [List.eraseP_cons_of_pos here]
      · rw [List.eraseP_cons_of_neg (by simp [firstOther]),
          ih fun other mem => others other (List.mem_cons_of_mem _ mem)]

theorem insertBefore_ne : insertBefore behind row list ≠ list := by
  intro same
  have length_eq := (insertBefore_perm behind row list).length_eq
  rw [same, List.length_cons] at length_eq
  omega

end InsertBefore

theorem nameMatches_iff_str {view : VacmString} {vp : VacmViewEntry} :
    nameMatches view vp = true ↔ vp.viewName.str = view.str := by
  rw [nameMatches_iff, VacmString.str_inj]

theorem netsnmpViewExists_eq_zero_iff {viewList : List VacmViewEntry} {view : VacmString} :
    netsnmpViewExists viewList view.str = 0 ↔ ∀ vp ∈ viewList, vp.viewName.str ≠ view.str := by
  rw [netsnmpViewExists, vacmString_eq_some_iff.mpr rfl]
  simp only [List.countP_eq_zero, nameMatches_iff_str, ne_eq]

theorem vacmDestroyViewEntry_insertView {viewList : List VacmViewEntry} {vp : VacmViewEntry}
    (newName : ∀ vp' ∈ viewList, vp'.viewName.str ≠ vp.viewName.str) :
    vacmDestroyViewEntry (insertView vp viewList) vp.viewName.str (storedSubtree vp.viewSubtree) =
      viewList := by
  rw [vacmDestroyViewEntry, insertView_eq]
  apply eraseP_insertBefore
  · simp [strcmp_eq_zero_iff]
  · intro vp' mem
    simp [strcmp_eq_zero_iff, newName vp' mem]

theorem delView_insertView {viewList : List VacmViewEntry} {vp : VacmViewEntry}
    (newName : ∀ vp' ∈ viewList, vp'.viewName.str ≠ vp.viewName.str) {oidView : OidView}
    (subids : oidView.subids = some vp.viewSubtree) :
    delView (insertView vp viewList) (some vp.viewName.str) oidView = insertView vp viewList := by
  simp only [delView, subids]
  split
  · rw [vacmDestroyViewEntry]
    apply List.eraseP_of_forall_not
    intro vp' mem
    rw [insertView_eq, mem_insertBefore] at mem
    rcases mem with rfl | mem
    · have longer : storedSubtree vp'.viewSubtree ≠ vp'.viewSubtree := by
        intro same
        have length_eq := congrArg List.length same
        simp [storedSubtree] at length_eq
      simp [longer]
    · simp [strcmp_eq_zero_iff, newName vp' mem]
  · rfl

theorem subids_of_not_isGiven {oidView : OidView} (notGiven : oidView.isGiven = false) :
    oidView.subids = none := by
  cases oidView with
  | null oidViewLen => rfl
  | array oidView => exact absurd notGiven (by simp [OidView.isGiven])

inductive ViewOutcome (s : VacmState) (args : SimpleUsm) :
    Option (CString × List VacmViewEntry × Option VacmViewEntry) → Prop
  | refused (refused : ¬ args.ViewAccepted s) : ViewOutcome s args none
  | kept {view : CString} (accepted : args.ViewAccepted s) (notMade : ¬ args.MakesView s)
      (del : delView s.viewList args.view args.oidView = s.viewList) :
      ViewOutcome s args (some (view, s.viewList, none))
  | made {view : CString} {vp : VacmViewEntry} (accepted : args.ViewAccepted s)
      (made : args.MakesView s)
      (bail : vacmDestroyViewEntry (insertView vp s.viewList) vp.viewName.str
        (storedSubtree vp.viewSubtree) = s.viewList)
      (del : delView (insertView vp s.viewList) args.view args.oidView =
        insertView vp s.viewList) :
      ViewOutcome s args (some (view, insertView vp s.viewList, some vp))

theorem viewOutcome_simpleView (s : VacmState) (args : SimpleUsm) :
    ViewOutcome s args (simpleView s.viewList args.view args.oidView) := by
  cases view_eq : args.view with
  | none =>
      have notMade : ¬ args.MakesView s := by
        rintro ⟨view, absurdity, -⟩
        exact absurd (view_eq.symm.trans absurdity) (by simp)
      by_cases given : args.oidView.subids = none
      · rw [simpleView, if_pos given]
        apply ViewOutcome.kept _ notMade
        · simp [delView, view_eq]
        · simpa [SimpleUsm.ViewAccepted, view_eq] using given
      · rw [simpleView, if_neg given]
        apply ViewOutcome.refused
        simpa [SimpleUsm.ViewAccepted, view_eq] using given
  | some view =>
      by_cases isNew : netsnmpViewExists s.viewList view = 0
      · have made : args.MakesView s := ⟨view, view_eq, isNew⟩
        rw [simpleView, if_neg (by simpa using isNew)]
        cases subids_eq : args.oidView.subids with
        | none =>
            apply ViewOutcome.refused
            simp [SimpleUsm.ViewAccepted, view_eq, isNew, subids_eq]
        | some subids =>
            cases name_eq : vacmString view with
            | none =>
                simp only [netsnmpViewCreate, name_eq, Option.map_none]
                apply ViewOutcome.refused
                have long := vacmString_eq_none_iff.mp name_eq
                simp only [SimpleUsm.ViewAccepted, view_eq, isNew, if_true]
                rintro ⟨short, -⟩
                omega
            | some name =>
                obtain rfl := vacmString_eq_some_iff.mp name_eq
                by_cases long : maxOidLen < subids.length
                · simp only [netsnmpViewCreate, name_eq, if_pos long, Option.map_none]
                  apply ViewOutcome.refused
                  simp only [SimpleUsm.ViewAccepted, view_eq, isNew, if_true, subids_eq]
                  rintro ⟨-, subids', same, short⟩
                  obtain rfl : subids = subids' := Option.some.inj same
                  omega
                · simp only [netsnmpViewCreate, name_eq, if_neg long, Option.map_some]
                  have newName := netsnmpViewExists_eq_zero_iff.mp isNew
                  apply ViewOutcome.made _ made
                  · exact vacmDestroyViewEntry_insertView newName
                  · rw [view_eq]
                    exact delView_insertView newName subids_eq
                  · simp only [SimpleUsm.ViewAccepted, view_eq, isNew, if_true]
                    exact ⟨name.short, subids, subids_eq, not_lt.mp long⟩
      · have notMade : ¬ args.MakesView s := by
          rintro ⟨view', same, isNew'⟩
          obtain rfl : view = view' := Option.some.inj (view_eq.symm.trans same)
          exact isNew isNew'
        rw [simpleView, if_pos (by simpa using isNew)]
        by_cases given : args.oidView.isGiven = true
        · rw [if_pos given]
          apply ViewOutcome.refused
          simp [SimpleUsm.ViewAccepted, view_eq, isNew, given]
        · rw [if_neg given]
          have notGiven := Bool.not_eq_true _ ▸ given
          apply ViewOutcome.kept _ notMade
          · simp [delView, view_eq, subids_of_not_isGiven notGiven]
          · simpa [SimpleUsm.ViewAccepted, view_eq, isNew] using notGiven

theorem ViewOutcome.bail_eq {s : VacmState} {args : SimpleUsm} {view : CString}
    {viewList : List VacmViewEntry} {vacmEntry : Option VacmViewEntry}
    (outcome : ViewOutcome s args (some (view, viewList, vacmEntry))) :
    bailView viewList vacmEntry = s.viewList := by
  cases outcome with
  | kept accepted notMade del => rfl
  | made accepted made bail del => exact bail

theorem ViewOutcome.del_eq_iff {s : VacmState} {args : SimpleUsm} {view : CString}
    {viewList : List VacmViewEntry} {vacmEntry : Option VacmViewEntry}
    (outcome : ViewOutcome s args (some (view, viewList, vacmEntry))) :
    args.ViewAccepted s ∧
      (delView viewList args.view args.oidView = s.viewList ↔ ¬ args.MakesView s) := by
  cases outcome with
  | kept accepted notMade del => exact ⟨accepted, iff_of_true del notMade⟩
  | made accepted made bail del =>
      refine ⟨accepted, iff_of_false ?_ (not_not.mpr made)⟩
      rw [del, insertView_eq]
      exact insertBefore_ne

theorem vacmDestroyGroupEntry_insert {groupList : List VacmGroupEntry} {name : VacmString}
    {behind : VacmGroupEntry → Bool} {gp : VacmGroupEntry}
    (model : gp.securityModel = vacmSecModelUsm) (name_eq : gp.securityName = name)
    (newName : ∀ gp' ∈ groupList, gp'.securityModel = vacmSecModelUsm →
      gp'.securityName.str ≠ name.str) :
    vacmDestroyGroupEntry (insertBefore behind gp groupList) vacmSecModelUsm name.str =
      groupList := by
  apply eraseP_insertBefore
  · simp [model, name_eq, strcmp_eq_zero_iff]
  · intro gp' mem
    have other := newName gp' mem
    simp only [Bool.and_eq_false_iff, decide_eq_false_iff_not, strcmp_eq_zero_iff]
    by_cases same : gp'.securityModel = vacmSecModelUsm
    · exact .inr (other same)
    · exact .inl same

theorem groupChar_eq_iff {c : Byte} : groupChar c = c ↔ isalnum c = true ∨ c = 0x5f := by
  unfold groupChar
  by_cases alnum : isalnum c = true
  · simp [alnum]
  · simp [alnum, eq_comm]

theorem simpleGroup_eq_iff {user : CString} :
    simpleGroup user = userGroup user ↔ ∀ c ∈ user.chars.take 28, isalnum c = true ∨ c = 0x5f := by
  have plain : ∀ c ∈ groupPrefix, groupChar c = c := by decide +kernel
  constructor
  · intro same c mem
    have chars_eq : (userGroup user).chars.map groupChar = (userGroup user).chars.map id := by
      rw [List.map_id]
      exact congrArg CString.chars same
    have fixed := List.map_inj_left.mp chars_eq c (List.mem_append_right _ mem)
    exact groupChar_eq_iff.mp fixed
  · intro kept
    apply CString.ext
    have chars_eq : (userGroup user).chars.map groupChar = (userGroup user).chars.map id := by
      apply List.map_inj_left.mpr
      intro c mem
      rcases List.mem_append.mp mem with mem | mem
      · exact plain c mem
      · exact groupChar_eq_iff.mpr (kept c mem)
    rwa [List.map_id] at chars_eq

theorem vacmDestroyAccessEntry_insert_iff {accessList : List VacmAccessEntry}
    {group context : VacmString} {authLevel : Int} {behind : VacmAccessEntry → Bool}
    {vp : VacmAccessEntry} {groupName : CString} (group_eq : vp.groupName = group)
    (context_eq : vp.contextPrefix = context) (model : vp.securityModel = vacmSecModelUsm)
    (level : vp.securityLevel = authLevel)
    (newGroup : ∀ vp' ∈ accessList, vp'.groupName.str ≠ group.str) :
    vacmDestroyAccessEntry (insertBefore behind vp accessList) groupName context.str
        vacmSecModelUsm authLevel = accessList ↔ group.str = groupName := by
  constructor
  · intro restored
    by_contra other
    have kept : vp ∈ vacmDestroyAccessEntry (insertBefore behind vp accessList) groupName
        context.str vacmSecModelUsm authLevel := by
      rw [vacmDestroyAccessEntry, List.mem_eraseP_of_neg]
      · exact mem_insertBefore.mpr (.inl rfl)
      · simp [strcmp_eq_zero_iff, group_eq, other]
    rw [restored] at kept
    exact newGroup vp kept (by rw [group_eq])
  · rintro rfl
    apply eraseP_insertBefore
    · simp [strcmp_eq_zero_iff, group_eq, context_eq, model, level]
    · intro vp' mem
      simp [strcmp_eq_zero_iff, newGroup vp' mem]

theorem strlen_simpleGroup_le (user : CString) : (simpleGroup user).strlen ≤ vacmMaxString := by
  have taken : (user.chars.take 28).length ≤ 28 := List.length_take_le _ _
  simp only [CString.strlen, simpleGroup, userGroup, groupPrefix, List.length_map,
    List.length_append, List.length_cons, List.length_nil, vacmMaxString]
  omega

theorem simpleContext_eq_none_iff (args : SimpleUsm) :
    simpleContext args.context = none ↔ ¬ args.ContextSafe := by
  unfold SimpleUsm.ContextSafe
  cases context_eq : args.context with
  | none => simp [simpleContext]
  | some context =>
      simp only [simpleContext, Option.some.injEq, forall_eq']
      cases last_eq : context.chars.getLast? with
      | none => simp [List.getLast?_eq_none_iff.mp last_eq]
      | some last =>
          have nonempty : context.chars ≠ [] := by
            intro empty
            rw [empty] at last_eq
            exact absurd last_eq (by simp)
          by_cases star : last = 0x2a
          · simp only [star, if_true, nonempty, ne_eq, not_false_eq_true, true_and, true_imp_iff]
            split
            · simpa using by omega
            · simpa using by omega
          · simp [star, nonempty]

theorem contextFits_iff {args : SimpleUsm} {context : CString} {contextMatch : Int}
    (context_eq : simpleContext args.context = some (context, contextMatch)) :
    args.ContextFits ↔ context.strlen ≤ vacmMaxString := by
  unfold SimpleUsm.ContextFits
  cases given : args.context with
  | none =>
      rw [given] at context_eq
      obtain ⟨rfl, -⟩ := Prod.mk.inj (Option.some.inj context_eq)
      simp [CString.strlen]
  | some whole =>
      rw [given] at context_eq
      simp only [simpleContext] at context_eq
      simp only [Option.some.injEq, forall_eq']
      cases last_eq : whole.chars.getLast? with
      | none =>
          rw [last_eq] at context_eq
          exact absurd context_eq (by simp)
      | some last =>
          simp only [last_eq] at context_eq
          by_cases star : last = 0x2a
          · simp only [star, if_true] at context_eq ⊢
            split at context_eq
            · exact absurd context_eq (by simp)
            · obtain ⟨rfl, -⟩ := Prod.mk.inj (Option.some.inj context_eq)
              simp only [CString.strlen, List.length_dropLast]
              omega
          · rw [if_neg star] at context_eq
            obtain ⟨rfl, -⟩ := Prod.mk.inj (Option.some.inj context_eq)
            simp [star]

def newGroupEntry (name : VacmString) : VacmGroupEntry where
  securityModel := vacmSecModelUsm
  securityName := name

def newAccessEntry (group context : VacmString) (authLevel : Int) : VacmAccessEntry where
  groupName := group
  contextPrefix := context
  securityModel := vacmSecModelUsm
  securityLevel := authLevel

theorem vacmCreateGroupEntry_eq (groupList : List VacmGroupEntry) (name : VacmString) :
    vacmCreateGroupEntry groupList vacmSecModelUsm name.str =
      some (insertBefore (groupBehind (newGroupEntry name)) (newGroupEntry name) groupList,
        newGroupEntry name) := by
  rw [vacmCreateGroupEntry, vacmString_eq_some_iff.mpr rfl]
  rfl

theorem vacmCreateAccessEntry_eq (accessList : List VacmAccessEntry) (group context : VacmString)
    (authLevel : Int) :
    vacmCreateAccessEntry accessList group.str context.str vacmSecModelUsm authLevel =
      some (insertBefore (accessBehind (newAccessEntry group context authLevel))
        (newAccessEntry group context authLevel) accessList,
        newAccessEntry group context authLevel) := by
  rw [vacmCreateAccessEntry, vacmString_eq_some_iff.mpr rfl, vacmString_eq_some_iff.mpr rfl]
  rfl

inductive AddOutcome (s : VacmState) (args : SimpleUsm) : Option (Bool × VacmState) → Prop
  | refused (refused : ¬ args.Accepted s) : AddOutcome s args (some (false, s))
  | outside (accepted : args.Accepted s) (notSafe : ¬ args.ContextSafe) : AddOutcome s args none
  | unfit (accepted : args.Accepted s) (safe : args.ContextSafe) (unfit : ¬ args.ContextFits) :
      AddOutcome s args (some (false, s))
  | added {s' : VacmState} {user : CString} (accepted : args.Accepted s)
      (safe : args.ContextSafe) (fits : args.ContextFits) (user_eq : args.user = some user)
      (del_iff : netsnmpVacmSimpleUsmDel s' user args = some s ↔
        ¬ args.MakesView s ∧ args.PlainName) : AddOutcome s args (some (true, s'))

theorem addOutcome_of_view {s : VacmState} {args : SimpleUsm} (newcomer : Newcomer s args)
    {name : VacmString} (user_eq : args.user = some name.str)
    (level : ¬ (args.authLevel < snmpSecLevelNoauth ∨ snmpSecLevelAuthpriv < args.authLevel))
    {view : CString} {viewList : List VacmViewEntry} {vacmEntry : Option VacmViewEntry}
    (view_eq : simpleView s.viewList args.view args.oidView = some (view, viewList, vacmEntry)) :
    AddOutcome s args (netsnmpVacmSimpleUsmAdd s args) := by
  have viewOutcome := viewOutcome_simpleView s args
  rw [view_eq] at viewOutcome
  have bail := viewOutcome.bail_eq
  rcases viewOutcome.del_eq_iff with ⟨viewAccepted, delViews⟩
  have accepted : args.Accepted s := ⟨⟨name.str, user_eq, name.short⟩, by omega, viewAccepted⟩
  have destroyed := @vacmDestroyGroupEntry_insert s.groupList name
    (groupBehind (newGroupEntry name)) (simpleGroupEntry (newGroupEntry name) name.str) rfl rfl
    (newcomer.group name.str user_eq)
  obtain ⟨group, group_eq⟩ : ∃ group : VacmString, group.str = simpleGroup name.str :=
    ⟨⟨simpleGroup name.str, strlen_simpleGroup_le name.str⟩, rfl⟩
  simp only [netsnmpVacmSimpleUsmAdd, user_eq, if_neg level, view_eq, vacmCreateGroupEntry_eq,
    ← group_eq]
  cases context_eq : simpleContext args.context with
  | none => exact .outside accepted ((simpleContext_eq_none_iff args).mp context_eq)
  | some context =>
      rcases context with ⟨context, contextMatch⟩
      have safe : args.ContextSafe := by
        by_contra notSafe
        rw [(simpleContext_eq_none_iff args).mpr notSafe] at context_eq
        exact absurd context_eq (by simp)
      have fits_iff := contextFits_iff context_eq
      simp only [Option.bind_eq_bind, Option.bind_some]
      cases prefix_eq : vacmString context with
      | none =>
          have long := vacmString_eq_none_iff.mp prefix_eq
          have failed : vacmCreateAccessEntry s.accessList group.str context vacmSecModelUsm
              args.authLevel = none := by
            rw [vacmCreateAccessEntry, vacmString_eq_some_iff.mpr rfl, prefix_eq]
          rw [failed]
          simp only [destroyed, bail]
          exact .unfit accepted safe (fun fits => absurd (fits_iff.mp fits) (not_le.mpr long))
      | some contextPrefix =>
          obtain rfl := vacmString_eq_some_iff.mp prefix_eq
          have newGroup : ∀ vp ∈ s.accessList, vp.groupName.str ≠ group.str := by
            rw [group_eq]
            exact newcomer.access name.str user_eq
          have accesses := @vacmDestroyAccessEntry_insert_iff s.accessList group contextPrefix
            args.authLevel (accessBehind (newAccessEntry group contextPrefix args.authLevel))
            (simpleAccessEntry (newAccessEntry group contextPrefix args.authLevel) args.rw view
              contextMatch) (userGroup name.str) rfl rfl rfl rfl newGroup
          have plain_iff : args.PlainName ↔ group.str = userGroup name.str := by
            rw [group_eq, simpleGroup_eq_iff]
            simp [SimpleUsm.PlainName, user_eq]
          rw [vacmCreateAccessEntry_eq]
          refine .added accepted safe (fits_iff.mpr contextPrefix.short) user_eq ?_
          rw [plain_iff, ← accesses, ← delViews]
          rcases s with ⟨groupList, accessList, views, statics⟩
          simp only at destroyed
          simp [netsnmpVacmSimpleUsmDel, context_eq, destroyed]
          exact and_comm

theorem addOutcome_netsnmpVacmSimpleUsmAdd {s : VacmState} {args : SimpleUsm}
    (newcomer : Newcomer s args) : AddOutcome s args (netsnmpVacmSimpleUsmAdd s args) := by
  cases user_eq : args.user with
  | none =>
      simp only [netsnmpVacmSimpleUsmAdd, user_eq]
      apply AddOutcome.refused
      rintro ⟨⟨user, given, -⟩, -⟩
      exact absurd (user_eq.symm.trans given) (by simp)
  | some user =>
      by_cases level : args.authLevel < snmpSecLevelNoauth ∨ snmpSecLevelAuthpriv < args.authLevel
      · simp only [netsnmpVacmSimpleUsmAdd, user_eq, if_pos level]
        apply AddOutcome.refused
        rintro ⟨-, range, -⟩
        omega
      have viewOutcome := viewOutcome_simpleView s args
      cases view_eq : simpleView s.viewList args.view args.oidView with
      | none =>
          rw [view_eq] at viewOutcome
          simp only [netsnmpVacmSimpleUsmAdd, user_eq, if_neg level, view_eq]
          cases viewOutcome with
          | refused refusedView => exact .refused fun accepted => refusedView accepted.view
      | some result =>
          rcases result with ⟨view, viewList, vacmEntry⟩
          cases name_eq : vacmString user with
          | some name =>
              obtain rfl := vacmString_eq_some_iff.mp name_eq
              exact addOutcome_of_view newcomer user_eq level view_eq
          | none =>
              have long := vacmString_eq_none_iff.mp name_eq
              rw [view_eq] at viewOutcome
              have failed : vacmCreateGroupEntry s.groupList vacmSecModelUsm user = none := by
                rw [vacmCreateGroupEntry, name_eq]
              simp only [netsnmpVacmSimpleUsmAdd, user_eq, if_neg level, view_eq, failed,
                viewOutcome.bail_eq]
              apply AddOutcome.refused
              rintro ⟨⟨user', given, short⟩, -⟩
              obtain rfl : user = user' := Option.some.inj (user_eq.symm.trans given)
              omega

/-- Whatever the arguments are, adding is undone exactly when they are refused at once, or the
context can be looked at and is too long for a row, or there is no view to make and the name is
plain. -/
theorem undone_iff {s : VacmState} {args : SimpleUsm} (newcomer : Newcomer s args) :
    Undone s args ↔ (args.Accepted s → args.ContextSafe ∧
      (args.ContextFits → ¬ args.MakesView s ∧ args.PlainName)) := by
  have outcome := addOutcome_netsnmpVacmSimpleUsmAdd newcomer
  unfold Undone
  generalize netsnmpVacmSimpleUsmAdd s args = result at outcome
  cases outcome with
  | refused refused => simp [refused]
  | outside accepted notSafe => simp [accepted, notSafe]
  | unfit accepted safe unfit => simp [safe, unfit]
  | added accepted safe fits user_eq del_iff => simp [accepted, safe, fits, user_eq, del_iff]

/-- The user `usr`, for reading and writing everything. -/
def plainUser : SimpleUsm where
  user := some ⟨[0x75, 0x73, 0x72], by decide⟩
  rw := true
  authLevel := 1
  view := none
  oidView := .null 0
  context := none

theorem newcomer_emptyVacm (args : SimpleUsm) : Newcomer emptyVacm args :=
  ⟨fun _ _ _ mem => absurd mem (by simp [emptyVacm]),
    fun _ _ _ mem => absurd mem (by simp [emptyVacm])⟩

theorem undone_plainUser : Undone emptyVacm plainUser := by
  apply (undone_iff (newcomer_emptyVacm plainUser)).mpr
  intro _
  refine ⟨fun context given => absurd given (by simp [plainUser]), fun _ => ⟨?_, ?_⟩⟩
  · rintro ⟨view, given, -⟩
    exact absurd given (by simp [plainUser])
  · intro user given
    obtain rfl : _ = user := Option.some.inj given
    decide +kernel

theorem noNul_v : (0 : Byte) ∉ [0x76] := by decide

/-- The user `usr`, for everything below 1.3 as the view `v`. -/
def userWithView : SimpleUsm :=
  { plainUser with
    view := some ⟨[0x76], noNul_v⟩
    oidView := .array [1, 3] }

/-- The user `a-b`, without a view. -/
def userWithDash : SimpleUsm :=
  { plainUser with user := some ⟨[0x61, 0x2d, 0x62], by decide⟩ }

/-- After adding and deleting, the view or the access row is still there. -/
theorem not_undone : ¬ Undone emptyVacm userWithView ∧ ¬ Undone emptyVacm userWithDash := by
  constructor
  · intro undone
    have view := congrArg (Option.map VacmState.viewList) undone
    exact absurd view (by decide +kernel)
  · intro undone
    have access := congrArg (Option.map VacmState.accessList) undone
    exact absurd access (by decide +kernel)

end NetSnmp
