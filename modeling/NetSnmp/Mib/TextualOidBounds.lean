import NetSnmp.Mib.HintTermination
import NetSnmp.Mib.TextualOid

/-!
# Object identifiers that stay in the array of the caller

All parts of `_add_strings_to_oid` check the capacity of the array but the loop over the octets of
a string: it stores as many as there are. The function ends, and stays in the array, if and only if
the octets of each such string fit, and the hints of quoted strings end.
-/

namespace NetSnmp

namespace TextualOid

open StoreRun (fail ofOption used store advance push setUsed room reservePosition pushWithin
  pushAll Within Extends Checked EndsAs)

section Checks

variable {maxlen maxlen' : Nat}

theorem checked_addChildren (le : maxlen ≤ maxlen') (tree : MibTree) (tp : Nat) (cp : List Byte)
    (cp2 : Rest) : Checked maxlen (addChildren tree maxlen tp cp cp2)
      (addChildren tree maxlen' tp cp cp2) := by
  induction length_eq : cp.length using Nat.strong_induction_on generalizing tp cp cp2 with
  | _ length ih =>
      rw [addChildren.eq_def tree maxlen, addChildren.eq_def tree maxlen']
      apply Checked.ite (StoreRun.checked_pure _)
      cases findChild tree (tree.node tp).childList (isolate cp).1 with
      | none => exact StoreRun.checked_fail _
      | some found =>
          apply (StoreRun.checked_pushWithin le 0 _).bind
          intro _
          split
          · exact StoreRun.checked_pure _
          · exact StoreRun.checked_pure _
          · rename_i tp' rest _ rest_eq
            exact ih _ (length_eq ▸ length_of_isolate rest_eq) _ _ _ rfl

theorem checked_addInteger (le : maxlen ≤ maxlen') (options : OidOptions) (tp : TreeNode)
    (cp : List Byte) : Checked maxlen (addInteger options maxlen tp cp)
      (addInteger options maxlen' tp cp) := by
  rw [addInteger, addInteger]
  cases enumSubid tp.enums (isolate cp).1 with
  | none => exact StoreRun.checked_fail _
  | some subid =>
      apply Checked.ite (StoreRun.checked_fail _)
      exact (StoreRun.checked_pushWithin le 0 subid).bind fun _ => StoreRun.checked_pure _

theorem checked_addNetOctets (le : maxlen ≤ maxlen') (check : Bool) (left : Nat) (cp : List Byte) :
    Checked maxlen (addNetOctets check maxlen left cp) (addNetOctets check maxlen' left cp) := by
  induction left generalizing cp with
  | zero => exact StoreRun.checked_pure _
  | succ left ih =>
      rw [addNetOctets, addNetOctets]
      split
      · rename_i subid _
        apply (StoreRun.checked_room le 1).bind
        intro _
        apply Checked.ite (StoreRun.checked_fail _)
        apply (StoreRun.checked_pushWithin le 1 subid).bind
        intro _
        cases (isolate cp).2 with
        | none => exact StoreRun.checked_pure _
        | some rest => exact ih rest
      · exact StoreRun.checked_fail _

theorem checked_addNetaddr (le : maxlen ≤ maxlen') (options : OidOptions) (cp : List Byte) :
    Checked maxlen (addNetaddr options maxlen cp) (addNetaddr options maxlen' cp) := by
  rw [addNetaddr, addNetaddr]
  split
  · rename_i subid _
    apply (StoreRun.checked_pushWithin le 1 subid).bind
    intro _
    apply Checked.ite _ (StoreRun.checked_pure _)
    cases (isolate cp).2 with
    | none => exact StoreRun.checked_pure _
    | some rest =>
        exact (checked_addNetOctets le options.check 4 rest).bind fun _ => StoreRun.checked_pure _
  · exact StoreRun.checked_fail _

theorem checked_startQuoted (le : maxlen ≤ maxlen') (len : Int) (isimplied : Bool)
    (doingquote : Byte) : Checked maxlen (startQuoted maxlen len isimplied doingquote)
      (startQuoted maxlen' len isimplied doingquote) := by
  rw [startQuoted, startQuoted]
  apply Checked.ite
  · apply Checked.ite (StoreRun.checked_fail _)
    exact (StoreRun.checked_reservePosition le).bind fun _ => StoreRun.checked_pure _
  · exact Checked.ite (StoreRun.checked_fail _) (StoreRun.checked_pure _)

theorem startQuoted_inside {len : Int} {isimplied : Bool} {doingquote : Byte}
    {buf buf' : OidBuffer} {lenIndex : Option Nat}
    (passed : startQuoted maxlen len isimplied doingquote buf = some (buf', some lenIndex)) :
    ∀ position ∈ lenIndex, position < maxlen := by
  rw [startQuoted] at passed
  split at passed
  · split at passed
    · nomatch passed
    · rcases StoreRun.bind_eq_value_iff.mp passed with ⟨middle, position, reserved, same⟩
      cases same
      rcases StoreRun.reservePosition_passed reserved with ⟨rfl, left, -⟩
      intro position mem
      cases mem
      exact left
  · split at passed
    · nomatch passed
    · cases passed
      exact nofun

theorem checked_endQuoted {lenIndex : Option Nat}
    (inside : ∀ position ∈ lenIndex, position < maxlen) (check : Bool)
    (ranges : List (Int × Int)) (len : Int) (pos : Nat) :
    Checked maxlen (endQuoted check ranges len lenIndex pos)
      (endQuoted check ranges len lenIndex pos) := by
  simp only [endQuoted]
  apply Checked.ite (StoreRun.checked_fail _)
  apply Checked.ite (StoreRun.checked_fail _)
  cases lenIndex with
  | none => exact StoreRun.checked_pure ()
  | some position => exact StoreRun.checked_store (inside position rfl) pos

theorem checked_pushLength (le : maxlen ≤ maxlen') (options : OidOptions) (doingquote : Byte)
    (cp : List Byte) :
    Checked maxlen (pushLength options maxlen doingquote cp)
      (pushLength options maxlen' doingquote cp) :=
  Checked.ite (StoreRun.checked_pushWithin le 0 _) (StoreRun.checked_pure ())

theorem checked_addRest (le : maxlen ≤ maxlen') (options : OidOptions) (cp : List Byte) :
    Checked maxlen (addRest options maxlen cp) (addRest options maxlen' cp) := by
  induction length_eq : cp.length using Nat.strong_induction_on generalizing cp with
  | _ length ih =>
      rw [addRest.eq_def options maxlen, addRest.eq_def options maxlen']
      cases cp with
      | nil => exact StoreRun.checked_fail _
      | cons c quoted =>
          apply Checked.ite
          · split
            · rename_i subid _
              apply (StoreRun.checked_pushWithin le 0 subid).bind
              intro _
              split
              · exact StoreRun.checked_pure _
              · rename_i rest rest_eq
                exact ih _ (length_eq ▸ length_of_isolate rest_eq) _ rfl
            · exact StoreRun.checked_fail _
          · apply Checked.ite _ (StoreRun.checked_fail _)
            apply (checked_pushLength le options c _).bind
            intro _
            apply (StoreRun.checked_pushAll le _).bind
            intro _
            split
            · exact StoreRun.checked_fail _
            · rename_i behind behind_eq
              have suffix := List.dropWhile_suffix (fun other : Byte => decide (other ≠ c))
                (l := quoted)
              rw [behind_eq] at suffix
              have shorter := suffix.length_le
              split
              · exact StoreRun.checked_fail _
              · exact StoreRun.checked_pure _
              · rename_i rest rest_eq
                have shortest := length_of_behindQuote rest_eq
                simp only [List.length_cons] at shorter length_eq
                exact ih _ (by omega) _ rfl

end Checks

def componentsOf (cp : List Byte) : List (List Byte) :=
  match _rest_eq : (isolate cp).2 with
  | none => [(isolate cp).1]
  | some rest => (isolate cp).1 :: componentsOf rest
termination_by cp.length
decreasing_by exact length_of_isolate _rest_eq

theorem componentsOf_last {cp : List Byte} (rest_eq : (isolate cp).2 = none) :
    componentsOf cp = [(isolate cp).1] := by
  rw [componentsOf]
  split
  · rfl
  · rename_i rest_eq'
    nomatch rest_eq.symm.trans rest_eq'

theorem componentsOf_more {cp rest : List Byte} (rest_eq : (isolate cp).2 = some rest) :
    componentsOf cp = (isolate cp).1 :: componentsOf rest := by
  rw [componentsOf]
  split
  · rename_i rest_eq'
    nomatch rest_eq.symm.trans rest_eq'
  · rename_i rest_eq'
    cases rest_eq.symm.trans rest_eq'
    rfl

/-- How many octets are taken of some components up to the first one that is none: a negative
length does not limit them. -/
def octetsTaken (check : Bool) (len : Int) (components : List (List Byte)) : Nat :=
  let tried := min components.length ((components.takeWhile (!badOctet check ·)).length + 1)
  if 0 ≤ len then min len.toNat tried else tried

theorem octetsTaken_zero (check : Bool) (components : List (List Byte)) :
    octetsTaken check 0 components = 0 := by simp [octetsTaken]

theorem octetsTaken_le (check : Bool) (len : Nat) (components : List (List Byte)) :
    octetsTaken check (len : Int) components ≤ len := by
  simp only [octetsTaken]
  split
  · simp
  · omega

theorem octetsTaken_cons (check : Bool) {len : Int} (left : len ≠ 0) (component : List Byte)
    (components : List (List Byte)) : octetsTaken check len (component :: components) =
      if badOctet check component then 1 else octetsTaken check (len - 1) components + 1 := by
  simp only [octetsTaken, List.takeWhile_cons, List.length_cons]
  cases badOctet check component with
  | true =>
      simp only [Bool.not_true, Bool.false_eq_true, if_false, if_true, List.length_nil]
      split
      · omega
      · omega
  | false =>
      simp only [Bool.not_false, Bool.false_eq_true, if_false, if_true, List.length_cons]
      split
      · rw [if_pos (by omega)]
        omega
      · rw [if_neg (by omega)]
        omega

def octetStored (check : Bool) (component : List Byte) (buf : OidBuffer) : OidBuffer :=
  { contents := Function.update buf.contents buf.used (strtoul component).1
    used := if badOctet check component then buf.used else buf.used + 1
    stores := buf.used :: buf.stores }

theorem addOctet_eq (check : Bool) (component : List Byte) (buf : OidBuffer) :
    addOctet check component buf = some (octetStored check component buf,
      if badOctet check component then none else some ()) := by
  change (if badOctet check component then fail else advance : OidRun Unit) _ = _
  rw [octetStored]
  cases badOctet check component with
  | true => rfl
  | false => rfl

theorem addOctets_last (check : Bool) {len : Int} (left : len ≠ 0) {cp : List Byte}
    (rest_eq : (isolate cp).2 = none) : addOctets check len cp =
      addOctet check (isolate cp).1 >>= fun _ => pure none := by
  rw [addOctets, if_neg left]
  congr
  funext _
  split
  · rfl
  · rename_i rest_eq'
    cases rest_eq.symm.trans rest_eq'

theorem addOctets_more (check : Bool) {len : Int} (left : len ≠ 0) {cp rest : List Byte}
    (rest_eq : (isolate cp).2 = some rest) : addOctets check len cp =
      addOctet check (isolate cp).1 >>= fun _ => addOctets check (len - 1) rest := by
  rw [addOctets, if_neg left]
  congr
  funext _
  split
  · rename_i rest_eq'
    cases rest_eq.symm.trans rest_eq'
  · rename_i rest_eq'
    cases rest_eq.symm.trans rest_eq'
    rfl

theorem addOctets_ends (check : Bool) (len : Int) (cp : List Byte) (buf : OidBuffer) :
    ∃ buf' result, addOctets check len cp buf = some (buf', result) ∧
      buf'.used ≤ buf.used + octetsTaken check len (componentsOf cp) ∧
      ∀ position, position ∈ buf'.stores ↔ position ∈ buf.stores ∨
        buf.used ≤ position ∧ position < buf.used + octetsTaken check len (componentsOf cp) := by
  induction length_eq : cp.length using Nat.strong_induction_on generalizing len cp buf with
  | _ length ih =>
      by_cases none_left : len = 0
      · rw [addOctets, if_pos none_left, none_left, octetsTaken_zero]
        exact ⟨buf, _, rfl, le_rfl, fun position => (or_iff_left (by omega)).symm⟩
      · have stored (position : Nat) : position ∈ (octetStored check (isolate cp).1 buf).stores ↔
            position ∈ buf.stores ∨ position = buf.used := by
          rw [octetStored, List.mem_cons, or_comm]
        have used_eq : (octetStored check (isolate cp).1 buf).used =
          if badOctet check (isolate cp).1 then buf.used else buf.used + 1 := rfl
        cases rest_eq : (isolate cp).2 with
        | none =>
            have taken : octetsTaken check len (componentsOf cp) = 1 := by
              rw [componentsOf_last rest_eq, octetsTaken_cons check none_left]
              simp [octetsTaken]
            rw [taken, addOctets_last check none_left rest_eq, StoreRun.bind_apply, addOctet_eq]
            have one (position : Nat) : position ∈ (octetStored check (isolate cp).1 buf).stores ↔
                position ∈ buf.stores ∨ buf.used ≤ position ∧ position < buf.used + 1 := by
              rw [stored]
              apply or_congr_right
              omega
            cases bad : badOctet check (isolate cp).1 with
            | true => exact ⟨_, none, rfl, by rw [used_eq, bad]; simp, one⟩
            | false => exact ⟨_, some none, rfl, by rw [used_eq, bad]; simp, one⟩
        | some rest =>
            rw [componentsOf_more rest_eq, octetsTaken_cons check none_left,
              addOctets_more check none_left rest_eq, StoreRun.bind_apply, addOctet_eq]
            cases bad : badOctet check (isolate cp).1 with
            | true =>
                refine ⟨_, none, rfl, by rw [used_eq, bad]; simp, ?_⟩
                intro position
                rw [stored, if_pos rfl]
                apply or_congr_right
                omega
            | false =>
                rw [bad] at used_eq
                simp only [Bool.false_eq_true, if_false] at used_eq ⊢
                rcases ih rest.length (length_eq ▸ length_of_isolate rest_eq) (len - 1) rest
                  (octetStored check (isolate cp).1 buf) rfl with
                  ⟨buf', result, ended, within, stores⟩
                rw [used_eq] at within stores
                refine ⟨buf', result, ended, by omega, ?_⟩
                intro position
                rw [stores, stored, or_assoc]
                apply or_congr_right
                omega

theorem addOctets_within_iff {maxlen : Nat} {check : Bool} {len : Int} {cp : List Byte}
    {buf buf' : OidBuffer} {result : Option Rest} (within : Within maxlen buf)
    (ended : addOctets check len cp buf = some (buf', result)) :
    (∀ position ∈ buf'.stores, position < maxlen) ↔
      buf.used + octetsTaken check len (componentsOf cp) ≤ maxlen := by
  rcases addOctets_ends check len cp buf with ⟨buf'', result', ended', -, stores⟩
  cases ended.symm.trans ended'
  constructor
  · intro inside
    by_cases taken : octetsTaken check len (componentsOf cp) = 0
    · rw [taken]
      exact within.used
    · have last := inside (buf.used + octetsTaken check len (componentsOf cp) - 1)
        ((stores _).mpr (.inr ⟨by omega, by omega⟩))
      omega
  · intro fits position mem
    rcases (stores position).mp mem with mem | mem
    · exact within.stores position mem
    · omega

theorem addOctets_within {maxlen : Nat} {check : Bool} {len : Int} {cp : List Byte}
    {buf buf' : OidBuffer} {result : Option Rest} (within : Within maxlen buf)
    (fits : buf.used + octetsTaken check len (componentsOf cp) ≤ maxlen)
    (ended : addOctets check len cp buf = some (buf', result)) : Within maxlen buf' := by
  rcases addOctets_ends check len cp buf with ⟨buf'', result', ended', used_le, -⟩
  cases ended.symm.trans ended'
  exact ⟨by omega, (addOctets_within_iff within ended).mpr fits⟩

theorem extends_addOctets (check : Bool) (len : Int) (cp : List Byte) :
    Extends (addOctets check len cp) (addOctets check len cp) := by
  refine ⟨?_, fun _ _ _ same => same⟩
  intro buf buf' result ended position mem
  rcases addOctets_ends check len cp buf with ⟨buf'', result', ended', -, stores⟩
  cases ended.symm.trans ended'
  exact (stores position).mpr (.inl mem)

section Strings

variable {maxlen maxlen' : Nat}

theorem checked_addIpaddr (le : maxlen ≤ maxlen') (options : OidOptions) (cp : List Byte) :
    Checked maxlen (addIpaddr options maxlen cp) (addIpaddr options maxlen' cp) := by
  have run_eq (maxlen : Nat) (buf : OidBuffer) : addIpaddr options maxlen cp buf =
      if maxlen < buf.used + 4 then some (buf, none) else addOctets options.check 4 cp buf := by
    change (if maxlen < buf.used + 4 then fail else addOctets options.check 4 cp : OidRun Rest) buf
      = _
    split
    · rfl
    · rfl
  refine ⟨⟨?_, ?_⟩, ?_, ?_⟩
  · intro buf buf' result ended
    rw [run_eq] at ended
    split at ended
    · cases ended
      exact List.Subset.refl _
    · exact (extends_addOctets options.check 4 cp).grows _ _ _ ended
  · intro buf buf' value ended
    rw [run_eq] at ended ⊢
    split at ended
    · nomatch ended
    · rw [if_neg (by omega)]
      exact ended
  · intro buf
    rw [run_eq]
    split
    · exact ⟨_, rfl⟩
    · rcases addOctets_ends options.check 4 cp buf with ⟨buf', result, ended, -⟩
      exact ⟨_, ended⟩
  · intro buf buf' result ended within
    rw [run_eq] at ended
    split at ended
    · cases ended
      exact within
    · have taken : octetsTaken options.check 4 (componentsOf cp) ≤ 4 :=
        octetsTaken_le options.check 4 (componentsOf cp)
      exact addOctets_within within (by omega) ended

def startTaken (check : Bool) (start : Int × Rest) : Nat :=
  match start.2 with
  | none => 0
  | some cp => octetsTaken check start.1 (componentsOf cp)

def StringFits (options : OidOptions) (maxlen : Nat) (tp : TreeNode) (isimplied : Bool)
    (cp : List Byte) (buf : OidBuffer) : Prop :=
  ∀ started start, startOctets maxlen tp.ranges isimplied cp buf = some (started, some start) →
    started.used + startTaken options.check start ≤ maxlen

theorem announceLen_eq (maxlen : Nat) (len : Int) (buf : OidBuffer) :
    announceLen maxlen len buf =
      if maxlen ≤ (buf.used + toSizeT len + 1) % 2 ^ 64 then some (buf, none)
      else push (toSizeT len) buf := by
  change (if maxlen ≤ (buf.used + toSizeT len + 1) % 2 ^ 64 then fail else push (toSizeT len) :
    OidRun Unit) buf = _
  split
  · rfl
  · rfl

theorem startOctets_cases (maxlen : Nat) (ranges : List (Int × Int)) (isimplied : Bool)
    (cp : List Byte) (buf : OidBuffer) :
    startOctets maxlen ranges isimplied cp buf = some (buf, none) ∨
    startOctets maxlen ranges isimplied cp buf = some (buf, some (fixedLen ranges, some cp)) ∨
    fixedLen ranges = -1 ∧ ∃ len, startOctets maxlen ranges isimplied cp buf =
      some (⟨Function.update buf.contents buf.used (toSizeT len), buf.used + 1,
        buf.used :: buf.stores⟩, some (len, (isolate cp).2)) := by
  rw [startOctets]
  split
  · rename_i announced
    rcases strtoul (isolate cp).1 with ⟨subid, ecp⟩
    cases ecp with
    | nil =>
        by_cases full : maxlen ≤ (buf.used + toSizeT (toCInt subid) + 1) % 2 ^ 64
        · simp only [StoreRun.bind_apply, announceLen_eq, if_pos full]
          exact .inl trivial
        · simp only [StoreRun.bind_apply, announceLen_eq, if_neg full]
          exact .inr (.inr ⟨announced.2, toCInt subid, rfl⟩)
    | cons c ecp => exact .inl rfl
  · exact .inr (.inl rfl)

theorem extends_announceLen (le : maxlen ≤ maxlen') (len : Int) :
    Extends (announceLen maxlen len) (announceLen maxlen' len) := by
  refine ⟨?_, ?_⟩
  · intro buf buf' result ended
    rw [announceLen_eq] at ended
    split at ended
    · cases ended
      exact List.Subset.refl _
    · exact (StoreRun.extends_push _).grows _ _ _ ended
  · intro buf buf' value ended
    rw [announceLen_eq] at ended ⊢
    split at ended
    · nomatch ended
    · rw [if_neg (by omega)]
      exact ended

theorem extends_startOctets (le : maxlen ≤ maxlen') (ranges : List (Int × Int)) (isimplied : Bool)
    (cp : List Byte) : Extends (startOctets maxlen ranges isimplied cp)
      (startOctets maxlen' ranges isimplied cp) := by
  rw [startOctets, startOctets]
  apply Extends.ite _ (StoreRun.extends_pure _)
  split
  · exact (extends_announceLen le _).bind fun _ => StoreRun.extends_pure _
  · exact StoreRun.extends_fail _

theorem addString_eq (options : OidOptions) (maxlen : Nat) (tp : TreeNode) (isimplied : Bool)
    (cp : List Byte) (cp2 : Rest) {buf started : OidBuffer} {start : Int × Rest}
    (started_eq : startOctets maxlen tp.ranges isimplied cp buf = some (started, some start)) :
    addString options maxlen tp isimplied cp cp2 buf =
      match start.2 with
      | none => some (started, some none)
      | some cp =>
          if fixedLen tp.ranges = 0 then some (started, some cp2)
          else addOctets options.check start.1 cp started := by
  rw [addString, StoreRun.bind_apply, started_eq]
  rcases start with ⟨len, rest⟩
  cases rest with
  | none => rfl
  | some cp =>
      simp only
      split
      · rfl
      · rfl

theorem extends_addString (le : maxlen ≤ maxlen') (options : OidOptions) (tp : TreeNode)
    (isimplied : Bool) (cp : List Byte) (cp2 : Rest) :
    Extends (addString options maxlen tp isimplied cp cp2)
      (addString options maxlen' tp isimplied cp cp2) := by
  apply (extends_startOctets le tp.ranges isimplied cp).bind
  intro start
  cases start.2 with
  | none => exact StoreRun.extends_pure _
  | some rest =>
      apply Extends.ite (StoreRun.extends_pure _)
      exact extends_addOctets options.check start.1 rest

theorem addString_returns (options : OidOptions) (maxlen : Nat) (tp : TreeNode) (isimplied : Bool)
    (cp : List Byte) (cp2 : Rest) (buf : OidBuffer) :
    ∃ ended, addString options maxlen tp isimplied cp cp2 buf = some ended := by
  have behind {started : OidBuffer} {start : Int × Rest}
      (started_eq : startOctets maxlen tp.ranges isimplied cp buf = some (started, some start)) :
      ∃ ended, addString options maxlen tp isimplied cp cp2 buf = some ended := by
    rw [addString_eq options maxlen tp isimplied cp cp2 started_eq]
    cases start.2 with
    | none => exact ⟨_, rfl⟩
    | some rest =>
        simp only
        split
        · exact ⟨_, rfl⟩
        · rcases addOctets_ends options.check start.1 rest started with ⟨buf', result, ended, -⟩
          exact ⟨_, ended⟩
  rcases startOctets_cases maxlen tp.ranges isimplied cp buf with failed | plain | ⟨-, len, pushed⟩
  · exact ⟨(buf, none), by rw [addString, StoreRun.bind_apply, failed]⟩
  · exact behind plain
  · exact behind pushed

theorem started_within {options : OidOptions} {ranges : List (Int × Int)} {isimplied : Bool}
    {cp : List Byte} {buf started : OidBuffer} {start : Int × Rest} (within : Within maxlen buf)
    (started_eq : startOctets maxlen ranges isimplied cp buf = some (started, some start))
    (inside : started.used ≤ maxlen ∨ ∀ position ∈ started.stores, position < maxlen) :
    Within maxlen started ∧ (fixedLen ranges = 0 → startTaken options.check start = 0) := by
  rcases startOctets_cases maxlen ranges isimplied cp buf with
    failed | plain | ⟨varies, len, pushed⟩
  · nomatch started_eq.symm.trans failed
  · cases started_eq.symm.trans plain
    refine ⟨within, ?_⟩
    intro empty
    rw [startTaken, empty]
    exact octetsTaken_zero _ _
  · cases started_eq.symm.trans pushed
    have left : buf.used + 1 ≤ maxlen := by
      rcases inside with used_le | inside
      · exact used_le
      · exact inside buf.used List.mem_cons_self
    refine ⟨⟨left, ?_⟩, ?_⟩
    · intro position mem
      rcases List.mem_cons.mp mem with rfl | mem
      · exact left
      · exact within.stores position mem
    · intro empty
      rw [varies] at empty
      nomatch empty

theorem addString_within {options : OidOptions} {tp : TreeNode} {isimplied : Bool}
    {cp : List Byte} {cp2 : Rest} {buf buf' : OidBuffer} {result : Option Rest}
    (within : Within maxlen buf) (fits : StringFits options maxlen tp isimplied cp buf)
    (ended : addString options maxlen tp isimplied cp cp2 buf = some (buf', result)) :
    Within maxlen buf' := by
  rcases StoreRun.bind_eq_some_iff.mp ended with ⟨failed, -⟩ | ⟨started, start, started_eq, -⟩
  · rcases startOctets_cases maxlen tp.ranges isimplied cp buf with same | plain | ⟨-, len, pushed⟩
    · cases failed.symm.trans same
      exact within
    · nomatch failed.symm.trans plain
    · nomatch failed.symm.trans pushed
  · have room := fits started start started_eq
    have startedWithin := (@started_within maxlen options _ _ _ _ _ _ within started_eq
      (.inl (by omega))).1
    rw [addString_eq options maxlen tp isimplied cp cp2 started_eq] at ended
    rw [startTaken] at room
    split at ended
    · cases ended
      exact startedWithin
    · rename_i rest rest_eq
      rw [rest_eq] at room
      split at ended
      · cases ended
        exact startedWithin
      · exact addOctets_within startedWithin room ended

theorem stringFits_of_inside {options : OidOptions} {tp : TreeNode} {isimplied : Bool}
    {cp : List Byte} {cp2 : Rest} {buf buf' : OidBuffer} {result : Option Rest}
    (within : Within maxlen buf)
    (ended : addString options maxlen tp isimplied cp cp2 buf = some (buf', result))
    (inside : ∀ position ∈ buf'.stores, position < maxlen) :
    StringFits options maxlen tp isimplied cp buf := by
  intro started start started_eq
  rw [addString_eq options maxlen tp isimplied cp cp2 started_eq] at ended
  have startedInside : ∀ position ∈ started.stores, position < maxlen := by
    intro position mem
    apply inside
    split at ended
    · cases ended
      exact mem
    · split at ended
      · cases ended
        exact mem
      · exact (extends_addOctets _ _ _).grows _ _ _ ended mem
  rcases @started_within maxlen options _ _ _ _ _ _ within started_eq (.inr startedInside) with
    ⟨startedWithin, empty⟩
  split at ended
  · rename_i rest_eq
    rw [startTaken, rest_eq]
    exact startedWithin.used
  · rename_i rest rest_eq
    split at ended
    · rename_i isEmpty
      rw [empty isEmpty]
      exact startedWithin.used
    · rw [startTaken, rest_eq]
      exact (addOctets_within_iff startedWithin ended).mp inside

def HintEnds (hintOf : CString → CString → Option HintReturn) (options : OidOptions)
    (maxlen : Nat) (tp : TreeNode) (isimplied : Bool) (doingquote : Byte) (cp : List Byte)
    (buf : OidBuffer) : Prop :=
  ∀ started lenIndex text behind,
    startQuoted maxlen (fixedLen tp.ranges) isimplied doingquote buf =
      some (started, some lenIndex) →
    applyEscapes doingquote false cp = some (text, behind) →
    ∃ subids, quotedSubids hintOf options.doHint tp.hint text = some subids

def addText (options : OidOptions) (maxlen : Nat) (tp : TreeNode) (lenIndex : Option Nat)
    (behind : List Byte) (subids : List Nat) : OidRun Rest := do
  pushAll maxlen subids
  match behindQuote behind with
  | none => fail
  | some rest => do
      endQuoted options.check tp.ranges (fixedLen tp.ranges) lenIndex subids.length
      pure rest

theorem checked_addText (le : maxlen ≤ maxlen') (options : OidOptions) (tp : TreeNode)
    {lenIndex : Option Nat} (inside : ∀ position ∈ lenIndex, position < maxlen)
    (behind : List Byte) (subids : List Nat) :
    Checked maxlen (addText options maxlen tp lenIndex behind subids)
      (addText options maxlen' tp lenIndex behind subids) := by
  apply (StoreRun.checked_pushAll le subids).bind
  intro _
  cases behindQuote behind with
  | none => exact StoreRun.checked_fail _
  | some rest =>
      exact (checked_endQuoted inside options.check tp.ranges _ subids.length).bind fun _ =>
        StoreRun.checked_pure rest

theorem extends_addText (le : maxlen ≤ maxlen') (options : OidOptions) (tp : TreeNode)
    (lenIndex : Option Nat) (behind : List Byte) (subids : List Nat) :
    Extends (addText options maxlen tp lenIndex behind subids)
      (addText options maxlen' tp lenIndex behind subids) := by
  apply (StoreRun.checked_pushAll le subids).toExtends.bind
  intro _
  cases behindQuote behind with
  | none => exact StoreRun.extends_fail _
  | some rest =>
      refine Extends.bind ?_ fun _ => StoreRun.extends_pure rest
      simp only [endQuoted]
      apply Extends.ite (StoreRun.extends_fail _)
      apply Extends.ite (StoreRun.extends_fail _)
      cases lenIndex with
      | none => exact StoreRun.extends_pure ()
      | some position => exact StoreRun.extends_store position _

theorem extends_addQuoted (le : maxlen ≤ maxlen')
    (hintOf : CString → CString → Option HintReturn) (options : OidOptions) (tp : TreeNode)
    (isimplied : Bool) (doingquote : Byte) (cp : List Byte) :
    Extends (addQuoted hintOf options maxlen tp isimplied doingquote cp)
      (addQuoted hintOf options maxlen' tp isimplied doingquote cp) := by
  apply (checked_startQuoted le (fixedLen tp.ranges) isimplied doingquote).toExtends.bind
  intro lenIndex
  cases applyEscapes doingquote false cp with
  | none => exact StoreRun.extends_fail _
  | some read =>
      exact (StoreRun.extends_ofOption _).bind fun subids =>
        extends_addText le options tp lenIndex read.2 subids

theorem addQuoted_started (hintOf : CString → CString → Option HintReturn) (options : OidOptions)
    (tp : TreeNode) {isimplied : Bool} {doingquote : Byte} {cp : List Byte}
    {buf started : OidBuffer} {lenIndex : Option Nat}
    (started_eq : startQuoted maxlen (fixedLen tp.ranges) isimplied doingquote buf =
      some (started, some lenIndex)) :
    addQuoted hintOf options maxlen tp isimplied doingquote cp buf =
      match applyEscapes doingquote false cp with
      | none => some (started, none)
      | some (text, behind) =>
          (quotedSubids hintOf options.doHint tp.hint text).bind fun subids =>
            addText options maxlen tp lenIndex behind subids started := by
  rw [addQuoted, StoreRun.bind_apply, started_eq]
  cases applyEscapes doingquote false cp with
  | none => rfl
  | some read =>
      simp only
      rw [StoreRun.bind_apply]
      cases quotedSubids hintOf options.doHint tp.hint read.1 with
      | none => rfl
      | some subids => rfl

theorem addQuoted_returns_iff (hintOf : CString → CString → Option HintReturn)
    (options : OidOptions) (maxlen : Nat) (tp : TreeNode) (isimplied : Bool) (doingquote : Byte)
    (cp : List Byte) (buf : OidBuffer) :
    (∃ ended, addQuoted hintOf options maxlen tp isimplied doingquote cp buf = some ended) ↔
      HintEnds hintOf options maxlen tp isimplied doingquote cp buf := by
  rcases (checked_startQuoted le_rfl (fixedLen tp.ranges) isimplied doingquote).returns buf with
    ⟨⟨started, result⟩, started_eq⟩
  cases result with
  | none =>
      apply iff_of_true
      · exact ⟨(started, none), by rw [addQuoted, StoreRun.bind_apply, started_eq]⟩
      · intro started' lenIndex text behind started_eq'
        nomatch started_eq.symm.trans started_eq'
  | some lenIndex =>
      rw [addQuoted_started hintOf options tp started_eq]
      constructor
      · rintro ⟨ended, ended_eq⟩ started' lenIndex' text behind started_eq' read_eq
        rw [read_eq] at ended_eq
        rcases Option.bind_eq_some_iff.mp ended_eq with ⟨subids, subids_eq, -⟩
        exact ⟨subids, subids_eq⟩
      · intro ends
        split
        · exact ⟨_, rfl⟩
        · rename_i text behind read_eq
          rcases ends started lenIndex text behind started_eq read_eq with ⟨subids, subids_eq⟩
          rw [subids_eq, Option.bind_some]
          have inside := startQuoted_inside started_eq
          exact (checked_addText le_rfl options tp inside behind subids).returns started

theorem addQuoted_within {hintOf : CString → CString → Option HintReturn} {options : OidOptions}
    {tp : TreeNode} {isimplied : Bool} {doingquote : Byte} {cp : List Byte} {buf buf' : OidBuffer}
    {result : Option Rest} (within : Within maxlen buf)
    (ended : addQuoted hintOf options maxlen tp isimplied doingquote cp buf =
      some (buf', result)) : Within maxlen buf' := by
  have checked := checked_startQuoted (le_refl maxlen) (fixedLen tp.ranges) isimplied doingquote
  rcases StoreRun.bind_eq_some_iff.mp ended with ⟨failed, -⟩ | ⟨started, lenIndex, started_eq, -⟩
  · exact checked.within _ _ _ failed within
  · have startedWithin := checked.within _ _ _ started_eq within
    rw [addQuoted_started hintOf options tp started_eq] at ended
    split at ended
    · cases ended
      exact startedWithin
    · rename_i text behind read_eq
      rcases Option.bind_eq_some_iff.mp ended with ⟨subids, -, added⟩
      have inside := startQuoted_inside started_eq
      exact (checked_addText le_rfl options tp inside behind subids).within _ _ _ added
        startedWithin

def OctetstrFits (hintOf : CString → CString → Option HintReturn) (options : OidOptions)
    (maxlen : Nat) (tp : TreeNode) (isimplied : Bool) (cp : List Byte) (buf : OidBuffer) : Prop :=
  match quoteOf cp with
  | some (doingquote, quoted) => HintEnds hintOf options maxlen tp isimplied doingquote quoted buf
  | none => StringFits options maxlen tp isimplied cp buf

theorem extends_addOctetstr (le : maxlen ≤ maxlen')
    (hintOf : CString → CString → Option HintReturn) (options : OidOptions) (tp : TreeNode)
    (isimplied : Bool) (cp : List Byte) (cp2 : Rest) :
    Extends (addOctetstr hintOf options maxlen tp isimplied cp cp2)
      (addOctetstr hintOf options maxlen' tp isimplied cp cp2) := by
  rw [addOctetstr, addOctetstr]
  cases quoteOf cp with
  | none => exact extends_addString le options tp isimplied cp cp2
  | some quote => exact extends_addQuoted le hintOf options tp isimplied quote.1 quote.2

/-- A part of the function ends and stays in the array if and only if something holds before it. -/
structure StaysIf {α : Type} (maxlen : Nat) (run : OidRun α) (buf : OidBuffer) (fits : Prop) :
    Prop where
  returns : fits → ∃ ended, run buf = some ended
  within : fits → ∀ buf' result, run buf = some (buf', result) → Within maxlen buf'
  fits_of_inside : ∀ buf' result, run buf = some (buf', result) →
    (∀ position ∈ buf'.stores, position < maxlen) → fits

theorem staysIf_checked {α : Type} {run run' : OidRun α} (checked : Checked maxlen run run')
    {buf : OidBuffer} (within : Within maxlen buf) : StaysIf maxlen run buf True :=
  ⟨fun _ => checked.returns buf, fun _ _ _ ended => checked.within _ _ _ ended within,
    fun _ _ _ _ => trivial⟩

theorem StaysIf.map {α β : Type} {run : OidRun α} {buf : OidBuffer} {fits : Prop}
    (stays : StaysIf maxlen run buf fits) (f : α → β) :
    StaysIf maxlen (run >>= fun value => pure (f value)) buf fits := by
  have ended_of {buf' : OidBuffer} {result : Option β}
      (ended : (run >>= fun value => pure (f value)) buf = some (buf', result)) :
      ∃ result, run buf = some (buf', result) := by
    rcases StoreRun.bind_eq_some_iff.mp ended with ⟨failed, -⟩ | ⟨middle, value, passed, same⟩
    · exact ⟨none, failed⟩
    · cases same
      exact ⟨some value, passed⟩
  refine ⟨?_, ?_, ?_⟩
  · intro fits
    rcases stays.returns fits with ⟨⟨middle, result⟩, ended⟩
    rw [StoreRun.bind_apply, ended]
    cases result with
    | none => exact ⟨_, rfl⟩
    | some value => exact ⟨_, rfl⟩
  · intro fits buf' result ended
    rcases ended_of ended with ⟨result, ended⟩
    exact stays.within fits _ _ ended
  · intro buf' result ended inside
    rcases ended_of ended with ⟨result, ended⟩
    exact stays.fits_of_inside _ _ ended inside

theorem StaysIf.bind {α β : Type} {run : OidRun α} {next next' : α → OidRun β} {buf : OidBuffer}
    {fits : Prop} (nextFits : OidBuffer → α → Prop) (first : StaysIf maxlen run buf fits)
    (larger : ∀ value, Extends (next value) (next' value))
    (second : ∀ middle value, run buf = some (middle, some value) → Within maxlen middle →
      StaysIf maxlen (next value) middle (nextFits middle value)) :
    StaysIf maxlen (run >>= next) buf
      (fits ∧ ∀ middle value, run buf = some (middle, some value) → nextFits middle value) := by
  refine ⟨?_, ?_, ?_⟩
  · rintro ⟨fits, rest⟩
    rcases first.returns fits with ⟨⟨middle, result⟩, ended⟩
    rw [StoreRun.bind_apply, ended]
    cases result with
    | none => exact ⟨_, rfl⟩
    | some value =>
        have middleWithin := first.within fits middle (some value) ended
        exact (second middle value ended middleWithin).returns (rest middle value ended)
  · rintro ⟨fits, rest⟩ buf' result ended
    rcases StoreRun.bind_eq_some_iff.mp ended with ⟨failed, -⟩ | ⟨middle, value, passed, ended⟩
    · exact first.within fits _ _ failed
    · have middleWithin := first.within fits _ _ passed
      exact (second middle value passed middleWithin).within (rest middle value passed) _ _ ended
  · intro buf' result ended inside
    rcases StoreRun.bind_eq_some_iff.mp ended with ⟨failed, -⟩ | ⟨middle, value, passed, ended⟩
    · refine ⟨first.fits_of_inside _ _ failed inside, ?_⟩
      intro middle value passed
      nomatch failed.symm.trans passed
    · have middleInside : ∀ position ∈ middle.stores, position < maxlen := fun position mem =>
        inside position ((larger value).grows _ _ _ ended mem)
      have fits := first.fits_of_inside _ _ passed middleInside
      refine ⟨fits, ?_⟩
      intro middle' value' passed'
      cases passed.symm.trans passed'
      exact (second middle value passed (first.within fits _ _ passed)).fits_of_inside _ _ ended
        inside

theorem staysIf_addOctetstr (hintOf : CString → CString → Option HintReturn)
    (options : OidOptions) (tp : TreeNode) (isimplied : Bool) (cp : List Byte) (cp2 : Rest)
    {buf : OidBuffer} (within : Within maxlen buf) :
    StaysIf maxlen (addOctetstr hintOf options maxlen tp isimplied cp cp2) buf
      (OctetstrFits hintOf options maxlen tp isimplied cp buf) := by
  rw [addOctetstr, OctetstrFits]
  cases quoteOf cp with
  | none =>
      refine ⟨fun _ => addString_returns options maxlen tp isimplied cp cp2 buf, ?_, ?_⟩
      · intro fits buf' result ended
        exact addString_within within fits ended
      · intro buf' result ended inside
        exact stringFits_of_inside within ended inside
  | some quote =>
      refine ⟨(addQuoted_returns_iff hintOf options maxlen tp isimplied quote.1 quote.2 buf).mpr,
        ?_, ?_⟩
      · intro _ buf' result ended
        exact addQuoted_within within ended
      · intro buf' result ended _
        exact (addQuoted_returns_iff hintOf options maxlen tp isimplied quote.1 quote.2 buf).mp
          ⟨_, ended⟩

def IndexFits (hintOf : CString → CString → Option HintReturn) (options : OidOptions)
    (maxlen : Nat) (tp : TreeNode) (isimplied : Bool) (cp : List Byte) (buf : OidBuffer) : Prop :=
  tp.type = .octetstr → OctetstrFits hintOf options maxlen tp isimplied cp buf

theorem extends_addIndex (le : maxlen ≤ maxlen')
    (hintOf : CString → CString → Option HintReturn) (options : OidOptions) (tp : TreeNode)
    (isimplied : Bool) (cp : List Byte) (cp2 : Rest) :
    Extends (addIndex hintOf options maxlen tp isimplied cp cp2)
      (addIndex hintOf options maxlen' tp isimplied cp cp2) := by
  have number := (checked_addInteger le options tp cp).toExtends.bind fun cp =>
    StoreRun.extends_pure ({ cp } : NextIndex)
  rw [addIndex, addIndex]
  cases tp.type with
  | integer => exact number
  | integer32 => exact number
  | uinteger => exact number
  | unsigned32 => exact number
  | timeticks => exact number
  | ipaddr =>
      exact (checked_addIpaddr le options cp).toExtends.bind fun _ => StoreRun.extends_pure _
  | octetstr =>
      exact (extends_addOctetstr le hintOf options tp isimplied cp cp2).bind fun _ =>
        StoreRun.extends_pure _
  | objid => exact StoreRun.extends_pure _
  | netaddr => exact (checked_addNetaddr le options cp).toExtends
  | other => exact StoreRun.extends_pure _

theorem StaysIf.congr {α : Type} {run : OidRun α} {buf : OidBuffer} {fits fits' : Prop}
    (stays : StaysIf maxlen run buf fits) (same : fits ↔ fits') : StaysIf maxlen run buf fits' := by
  rwa [propext same] at stays

theorem staysIf_addIndex (hintOf : CString → CString → Option HintReturn)
    (options : OidOptions) (tp : TreeNode) (isimplied : Bool) (cp : List Byte) (cp2 : Rest)
    {buf : OidBuffer} (within : Within maxlen buf) :
    StaysIf maxlen (addIndex hintOf options maxlen tp isimplied cp cp2) buf
      (IndexFits hintOf options maxlen tp isimplied cp buf) := by
  have number := (staysIf_checked (checked_addInteger (le_refl maxlen) options tp cp) within).map
    fun cp => ({ cp } : NextIndex)
  have none_left : StaysIf maxlen (pure { cp := some cp, more := false } : OidRun NextIndex) buf
    True := staysIf_checked (StoreRun.checked_pure _) within
  rw [addIndex, IndexFits]
  cases tp.type with
  | integer => exact number.congr (by simp)
  | integer32 => exact number.congr (by simp)
  | uinteger => exact number.congr (by simp)
  | unsigned32 => exact number.congr (by simp)
  | timeticks => exact number.congr (by simp)
  | ipaddr =>
      have address := (staysIf_checked (checked_addIpaddr (le_refl maxlen) options cp) within).map
        fun cp => ({ cp } : NextIndex)
      exact address.congr (by simp)
  | octetstr =>
      have string := (staysIf_addOctetstr hintOf options tp isimplied cp cp2 within).map
        fun cp => ({ cp } : NextIndex)
      exact string.congr (by simp)
  | objid => exact none_left.congr (by simp)
  | netaddr =>
      have address := staysIf_checked (checked_addNetaddr (le_refl maxlen) options cp) within
      exact address.congr (by simp)
  | other => exact none_left.congr (by simp)

def IndexesFit (hintOf : CString → CString → Option HintReturn) (tree : MibTree)
    (options : OidOptions) (maxlen : Nat) : List IndexEntry → (cp cp2 : Rest) → OidBuffer → Prop
  | entry :: inDices, some cp, cp2, buf =>
      ∀ tp, findTreeNode tree entry.ilabel none = some tp →
        IndexFits hintOf options maxlen (tree.node tp) entry.isimplied cp buf ∧
        ∀ buf' next,
          addIndex hintOf options maxlen (tree.node tp) entry.isimplied cp cp2 buf =
            some (buf', some next) →
          next.more = true → IndexesFit hintOf tree options maxlen inDices next.cp next.cp buf'
  | _, _, _, _ => True

theorem extends_addIndexes (le : maxlen ≤ maxlen')
    (hintOf : CString → CString → Option HintReturn) (tree : MibTree) (options : OidOptions)
    (inDices : List IndexEntry) (cp cp2 : Rest) :
    Extends (addIndexes hintOf tree options maxlen inDices cp cp2)
      (addIndexes hintOf tree options maxlen' inDices cp cp2) := by
  induction inDices generalizing cp cp2 with
  | nil => exact StoreRun.extends_pure _
  | cons entry inDices ih =>
      cases cp with
      | none => exact StoreRun.extends_pure _
      | some cp =>
          rw [addIndexes, addIndexes]
          cases findTreeNode tree entry.ilabel none with
          | none => exact StoreRun.extends_pure _
          | some tp =>
              apply (extends_addIndex le hintOf options (tree.node tp) entry.isimplied cp cp2).bind
              intro next
              exact Extends.ite (ih next.cp next.cp) (StoreRun.extends_pure _)

theorem staysIf_addIndexes (hintOf : CString → CString → Option HintReturn) (tree : MibTree)
    (options : OidOptions) (inDices : List IndexEntry) (cp cp2 : Rest) {buf : OidBuffer}
    (within : Within maxlen buf) :
    StaysIf maxlen (addIndexes hintOf tree options maxlen inDices cp cp2) buf
      (IndexesFit hintOf tree options maxlen inDices cp cp2 buf) := by
  induction inDices generalizing cp cp2 buf with
  | nil => exact staysIf_checked (StoreRun.checked_pure cp) within
  | cons entry inDices ih =>
      cases cp with
      | none => exact staysIf_checked (StoreRun.checked_pure none) within
      | some cp =>
          rw [addIndexes, IndexesFit]
          cases findTreeNode tree entry.ilabel none with
          | none =>
              exact (staysIf_checked (StoreRun.checked_pure (some cp)) within).congr (by simp)
          | some tp =>
              have here := staysIf_addIndex hintOf options (tree.node tp) entry.isimplied cp cp2
                within
              have all := here.bind (fun middle next => next.more = true →
                  IndexesFit hintOf tree options maxlen inDices next.cp next.cp middle)
                (fun next => Extends.ite (extends_addIndexes le_rfl hintOf tree options inDices
                  next.cp next.cp) (StoreRun.extends_pure next.cp))
                (by
                  intro middle next _ middleWithin
                  by_cases more : next.more = true
                  · rw [if_pos more]
                    exact (ih next.cp next.cp middleWithin).congr (by simp [more])
                  · rw [if_neg more]
                    have last := staysIf_checked (StoreRun.checked_pure next.cp) middleWithin
                    exact last.congr (by simp [more]))
              exact all.congr (by simp)

/-- The indexes that are read behind the object fit. -/
def TextFits (hintOf : CString → CString → Option HintReturn) (tree : MibTree)
    (options : OidOptions) (maxlen tp : Nat) (cp : List Byte) (buf : OidBuffer) : Prop :=
  ∀ buf' descent, addChildren tree maxlen tp cp none buf = some (buf', some descent) →
    IndexesFit hintOf tree options maxlen (inDicesOf tree descent.tp) descent.cp descent.cp2 buf'

def addLast (options : OidOptions) (maxlen : Nat) : Rest → OidRun Unit
  | none => pure ()
  | some cp => addRest options maxlen cp

theorem checked_addLast (le : maxlen ≤ maxlen') (options : OidOptions) (cp : Rest) :
    Checked maxlen (addLast options maxlen cp) (addLast options maxlen' cp) := by
  cases cp with
  | none => exact StoreRun.checked_pure ()
  | some cp => exact checked_addRest le options cp

theorem addStringsToOid_eq (hintOf : CString → CString → Option HintReturn) (tree : MibTree)
    (options : OidOptions) (maxlen tp : Nat) (cp : List Byte) :
    addStringsToOid hintOf tree options maxlen tp cp =
      addChildren tree maxlen tp cp none >>= fun descent =>
        addIndexes hintOf tree options maxlen (inDicesOf tree descent.tp) descent.cp descent.cp2 >>=
          addLast options maxlen := by
  rw [addStringsToOid]
  rfl

theorem extends_addStringsToOid (le : maxlen ≤ maxlen')
    (hintOf : CString → CString → Option HintReturn) (tree : MibTree) (options : OidOptions)
    (tp : Nat) (cp : List Byte) :
    Extends (addStringsToOid hintOf tree options maxlen tp cp)
      (addStringsToOid hintOf tree options maxlen' tp cp) := by
  rw [addStringsToOid_eq, addStringsToOid_eq]
  apply (checked_addChildren le tree tp cp none).toExtends.bind
  intro descent
  exact (extends_addIndexes le hintOf tree options _ descent.cp descent.cp2).bind fun rest =>
    (checked_addLast le options rest).toExtends

theorem staysIf_addStringsToOid (hintOf : CString → CString → Option HintReturn) (tree : MibTree)
    (options : OidOptions) (tp : Nat) (cp : List Byte) {buf : OidBuffer}
    (within : Within maxlen buf) :
    StaysIf maxlen (addStringsToOid hintOf tree options maxlen tp cp) buf
      (TextFits hintOf tree options maxlen tp cp buf) := by
  have larger (descent : Descent) := (extends_addIndexes (le_refl maxlen) hintOf tree options
    (inDicesOf tree descent.tp) descent.cp descent.cp2).bind fun rest =>
      (checked_addLast (le_refl maxlen) options rest).toExtends
  have children := staysIf_checked (checked_addChildren (le_refl maxlen) tree tp cp none) within
  have all := children.bind _ larger fun middle descent _ middleWithin =>
    (staysIf_addIndexes hintOf tree options (inDicesOf tree descent.tp) descent.cp descent.cp2
      middleWithin).bind _ (fun rest => (checked_addLast (le_refl maxlen) options rest).toExtends)
      fun last rest _ lastWithin =>
        staysIf_checked (checked_addLast (le_refl maxlen) options rest) lastWithin
  rw [addStringsToOid_eq]
  apply all.congr
  simp [TextFits]

end Strings

theorem fuelStep_repeatPasses {σ α : Type} (pass : Nat → σ → α ⊕ σ) (fuel call : Nat)
    (state : σ) : FuelStep fuel fun fuel => repeatPasses pass fuel call state := by
  induction fuel generalizing call state with
  | zero => exact nofun
  | succ fuel ih =>
      intro value ended
      simp only [repeatPasses] at ended ⊢
      cases passed : pass call state with
      | inl result =>
          rw [passed] at ended
          exact ended
      | inr next =>
          rw [passed] at ended
          exact ih (call + 1) next value ended

theorem parseHintsParse_more {fuel : Nat} {ph : ParseHints} {v : List Byte}
    {parsed : Option (List Byte × List Byte)} (ended : parseHintsParse fuel ph v = some parsed) :
    parseHintsParse (fuel + 1) ph v = some parsed :=
  (fuelStep_repeatPasses ph.pass fuel 0 _).map _ parsed ended

theorem fuelStep_endRecord {fuel : Nat} {ph : ParseHints} {result v : List Byte}
    {next : Nat → List Byte → List Byte → Option HintStop}
    (step : ∀ result v, FuelStep fuel fun fuel => next fuel result v) :
    FuelStep fuel fun fuel => endRecord fuel ph result v (next fuel) := by
  intro stop ended
  simp only [endRecord] at ended ⊢
  cases parsed_eq : parseHintsParse fuel ph v with
  | none =>
      rw [parsed_eq] at ended
      cases ended
  | some parsed =>
      rw [parsed_eq] at ended
      rw [parseHintsParse_more parsed_eq]
      cases parsed with
      | none => exact ended
      | some read => exact step _ _ stop ended

theorem fuelStep_readHint (fuel : Nat) (state : HintState) (ph : ParseHints) (result : List Byte)
    (hint v : List Byte) : FuelStep fuel fun fuel => readHint fuel state ph result hint v := by
  induction hint generalizing state ph result v with
  | nil => exact fun _ same => same
  | cons h hint ih =>
      simp only [readHint]
      apply FuelStep.ite (fuelStep_const _)
      cases state with
      | hint12 =>
          apply FuelStep.ite (ih _ _ _ _)
          exact FuelStep.ite (ih _ _ _ _) (fuelStep_const _)
      | hint23 =>
          apply FuelStep.ite (ih _ _ _ _)
          exact FuelStep.ite (ih _ _ _ _) (fuelStep_const _)
      | hint124 =>
          apply FuelStep.ite (fuelStep_endRecord fun _ _ => ih _ _ _ _)
          exact FuelStep.ite (fuelStep_endRecord fun _ _ => ih _ _ _ _) (ih _ _ _ _)
      | hint125 =>
          apply FuelStep.ite (fuelStep_endRecord fun _ _ => ih _ _ _ _)
          exact FuelStep.ite (fuelStep_endRecord fun _ _ => ih _ _ _ _)
            (fuelStep_endRecord fun _ _ => ih _ _ _ _)

theorem finalLoop_more {fuel passes : Nat} {ph : ParseHints} {result v : List Byte}
    {ret : HintReturn} (ended : finalLoop fuel passes ph result v = some ret) :
    finalLoop (fuel + 1) (passes + 1) ph result v = some ret := by
  induction passes generalizing result v with
  | zero => cases ended
  | succ passes ih =>
      rw [finalLoop] at ended ⊢
      split at ended
      · rename_i noneLeft
        rw [if_pos noneLeft]
        exact ended
      · rename_i left
        rw [if_neg left]
        cases parsed_eq : parseHintsParse fuel ph v with
        | none =>
            rw [parsed_eq] at ended
            cases ended
        | some parsed =>
            rw [parsed_eq] at ended
            rw [parseHintsParse_more parsed_eq]
            cases parsed with
            | none => exact ended
            | some read => exact ih ended

theorem fuelStep_parseOctetHint (fuel : Nat) (hint value : CString) :
    FuelStep fuel fun fuel => parseOctetHint fuel hint value := by
  apply (fuelStep_readHint fuel .hint12 {} [] hint.chars value.chars).bind
  intro stop ret ended
  cases stop with
  | refused v => exact ended
  | failed v => exact ended
  | ended ph result v => exact finalLoop_more ended

section Hints

variable {hintOf hintOf' : CString → CString → Option HintReturn}

theorem endsAs_addQuoted
    (same : ∀ hint value ret, hintOf hint value = some ret → hintOf' hint value = some ret)
    (options : OidOptions) (maxlen : Nat) (tp : TreeNode) (isimplied : Bool) (doingquote : Byte)
    (cp : List Byte) : EndsAs (addQuoted hintOf options maxlen tp isimplied doingquote cp)
      (addQuoted hintOf' options maxlen tp isimplied doingquote cp) := by
  apply (StoreRun.endsAs_refl _).bind
  intro lenIndex
  cases applyEscapes doingquote false cp with
  | none => exact StoreRun.endsAs_refl _
  | some read =>
      refine EndsAs.bind (StoreRun.endsAs_ofOption ?_) fun _ => StoreRun.endsAs_refl _
      intro subids subids_eq
      cases doHint_eq : options.doHint with
      | false =>
          rw [doHint_eq] at subids_eq
          exact subids_eq
      | true =>
          cases hint_eq : tp.hint with
          | none =>
              rw [doHint_eq, hint_eq] at subids_eq
              exact subids_eq
          | some hint =>
              rw [doHint_eq, hint_eq] at subids_eq
              rcases Option.map_eq_some_iff.mp subids_eq with ⟨ret, ret_eq, rfl⟩
              exact Option.map_eq_some_iff.mpr ⟨ret, same _ _ _ ret_eq, rfl⟩

theorem endsAs_addIndex
    (same : ∀ hint value ret, hintOf hint value = some ret → hintOf' hint value = some ret)
    (options : OidOptions) (maxlen : Nat) (tp : TreeNode) (isimplied : Bool) (cp : List Byte)
    (cp2 : Rest) : EndsAs (addIndex hintOf options maxlen tp isimplied cp cp2)
      (addIndex hintOf' options maxlen tp isimplied cp cp2) := by
  rw [addIndex, addIndex]
  cases tp.type with
  | octetstr =>
      refine EndsAs.bind ?_ fun _ => StoreRun.endsAs_refl _
      rw [addOctetstr, addOctetstr]
      cases quoteOf cp with
      | none => exact StoreRun.endsAs_refl _
      | some quote => exact endsAs_addQuoted same options maxlen tp isimplied quote.1 quote.2
  | _ => exact StoreRun.endsAs_refl _

theorem endsAs_addIndexes
    (same : ∀ hint value ret, hintOf hint value = some ret → hintOf' hint value = some ret)
    (tree : MibTree) (options : OidOptions) (maxlen : Nat) (inDices : List IndexEntry)
    (cp cp2 : Rest) : EndsAs (addIndexes hintOf tree options maxlen inDices cp cp2)
      (addIndexes hintOf' tree options maxlen inDices cp cp2) := by
  induction inDices generalizing cp cp2 with
  | nil => exact StoreRun.endsAs_refl _
  | cons entry inDices ih =>
      cases cp with
      | none => exact StoreRun.endsAs_refl _
      | some cp =>
          rw [addIndexes, addIndexes]
          cases findTreeNode tree entry.ilabel none with
          | none => exact StoreRun.endsAs_refl _
          | some tp =>
              apply (endsAs_addIndex same options maxlen _ entry.isimplied cp cp2).bind
              intro next
              split
              · exact ih next.cp next.cp
              · exact StoreRun.endsAs_refl _

theorem endsAs_addStringsToOid
    (same : ∀ hint value ret, hintOf hint value = some ret → hintOf' hint value = some ret)
    (tree : MibTree) (options : OidOptions) (maxlen tp : Nat) (cp : List Byte) :
    EndsAs (addStringsToOid hintOf tree options maxlen tp cp)
      (addStringsToOid hintOf' tree options maxlen tp cp) := by
  rw [addStringsToOid_eq, addStringsToOid_eq]
  apply (StoreRun.endsAs_refl _).bind
  intro descent
  exact (endsAs_addIndexes same tree options maxlen _ _ _).bind fun _ => StoreRun.endsAs_refl _

end Hints

/-- `_add_strings_to_oid` ends, stores in the array only, leaves no more than its capacity used, and
fails for a text that needs more. -/
def StaysInBuffer (tree : MibTree) (options : OidOptions) (maxlen tp : Nat) (cp : List Byte)
    (buf : OidBuffer) : Prop :=
  ∃ buf' result,
    Settles (fun fuel => addStringsToOid (parseOctetHint fuel) tree options maxlen tp cp buf)
      (buf', result) ∧
    Within maxlen buf' ∧
    ∀ maxlen' larger, maxlen ≤ maxlen' →
      Settles (fun fuel => addStringsToOid (parseOctetHint fuel) tree options maxlen' tp cp buf)
        (larger, some ()) →
      maxlen < larger.used → result = none

theorem settles_addStringsToOid {fuel : Nat} {tree : MibTree} {options : OidOptions}
    {maxlen tp : Nat} {cp : List Byte} {buf : OidBuffer} {ended : OidBuffer × Option Unit}
    (eq_some : addStringsToOid (parseOctetHint fuel) tree options maxlen tp cp buf = some ended) :
    Settles (fun fuel => addStringsToOid (parseOctetHint fuel) tree options maxlen tp cp buf)
      ended := by
  apply settles_of_fuel fuel _ eq_some
  intro fuel ended
  exact endsAs_addStringsToOid (fun hint value => fuelStep_parseOctetHint fuel hint value) tree
    options maxlen tp cp buf ended

/-- The function stays in the array if and only if its strings fit. -/
theorem staysInBuffer_iff (tree : MibTree) (options : OidOptions) {maxlen : Nat} (tp : Nat)
    (cp : List Byte) {buf : OidBuffer} (within : Within maxlen buf) :
    StaysInBuffer tree options maxlen tp cp buf ↔
      ∃ fuel, TextFits (parseOctetHint fuel) tree options maxlen tp cp buf := by
  constructor
  · rintro ⟨buf', result, ⟨fuel, settled⟩, within', -⟩
    have stays := staysIf_addStringsToOid (parseOctetHint fuel) tree options tp cp within
    exact ⟨fuel, stays.fits_of_inside _ _ (settled fuel le_rfl) within'.stores⟩
  · rintro ⟨fuel, fits⟩
    have stays := staysIf_addStringsToOid (parseOctetHint fuel) tree options tp cp within
    rcases stays.returns fits with ⟨⟨buf', result⟩, ended⟩
    have within' := stays.within fits _ _ ended
    refine ⟨buf', result, settles_addStringsToOid ended, within', ?_⟩
    intro maxlen' larger le settled more
    cases result with
    | none => rfl
    | some done =>
        have same := (extends_addStringsToOid le (parseOctetHint fuel) tree options tp cp).more
          _ _ _ ended
        cases (settles_addStringsToOid same).unique settled
        have used_le := within'.used
        omega

/-- The column `c` of a table whose index `i` is an implied string. -/
def impliedTree : MibTree where
  node tp :=
    if tp = 1 then { label := [0x63], subid := 1, parents := [2] }
    else if tp = 2 then
      { label := [0x65], subid := 1, childList := [1], indexes := [⟨[0x69], true⟩] }
    else { label := [0x69], subid := 2, type := .octetstr }
  tbuckets := [1, 2, 3]

def bothOptions : OidOptions := ⟨true, true, fun _ => 0⟩

def fullBuffer : OidBuffer := { contents := fun _ => 1, used := 2 }

theorem staysInBuffer_iff_fullBuffer : Within 2 fullBuffer ∧
    (StaysInBuffer impliedTree bothOptions 2 1 [0x31] fullBuffer ↔
      ∃ fuel, TextFits (parseOctetHint fuel) impliedTree bothOptions 2 1 [0x31] fullBuffer) :=
  have within : Within 2 fullBuffer := ⟨le_rfl, nofun⟩
  ⟨within, staysInBuffer_iff impliedTree bothOptions 1 [0x31] within⟩

/-- The octets of an implied string are stored behind the end of the array. -/
theorem not_staysInBuffer : ¬∀ (tree : MibTree) (options : OidOptions) (maxlen tp : Nat)
    (cp : List Byte) (buf : OidBuffer), Within maxlen buf →
      StaysInBuffer tree options maxlen tp cp buf := by
  intro stays
  rcases stays impliedTree bothOptions 2 1 [0x31, 0x2e, 0x32] fullBuffer ⟨le_rfl, nofun⟩ with
    ⟨buf', result, ⟨bound, settled⟩, within, -⟩
  have stored : (addStringsToOid (fun _ _ => none) impliedTree bothOptions 2 1 [0x31, 0x2e, 0x32]
      fullBuffer).map (fun ended => ended.1.stores) = some [3, 2] := by decide +kernel
  rcases Option.map_eq_some_iff.mp stored with ⟨ended, ended_eq, stores_eq⟩
  have same := @endsAs_addStringsToOid (fun _ _ => none) (parseOctetHint bound)
    (fun _ _ _ absent => nomatch absent) impliedTree bothOptions 2 1 [0x31, 0x2e, 0x32] fullBuffer
    ended ended_eq
  cases same.symm.trans (settled bound le_rfl)
  have inside := within.stores 3 (by rw [stores_eq]; exact List.mem_cons_self)
  omega

theorem nodeToOidLoop_within (lenids numids : Nat) (subids : List Nat) {buf : OidBuffer}
    (within : Within lenids buf) : ∃ buf', nodeToOidLoop lenids numids subids buf =
      some (buf', some ()) ∧ Within lenids buf' := by
  induction subids generalizing numids buf with
  | nil => exact ⟨buf, rfl, within⟩
  | cons subid subids ih =>
      rw [nodeToOidLoop, StoreRun.bind_apply, storeFromEnd]
      by_cases full : lenids ≤ numids
      · rw [if_pos full]
        exact ih (numids + 1) within
      · rw [if_neg full]
        have stored := StoreRun.checked_store (show lenids - 1 - numids < lenids by omega) subid
        exact ih (numids + 1) (stored.within _ _ _ rfl within)

theorem nodeToOid_within (tree : MibTree) (tp : Nat) {buf : OidBuffer}
    (within : Within buf.used buf) : ∃ buf' result,
      nodeToOid tree tp buf = some (buf', result) ∧
      (∀ position ∈ buf'.stores, position < buf.used) ∧
      (result = some () → Within buf.used buf') := by
  rcases nodeToOidLoop_within buf.used 0
    ((tp :: (tree.node tp).parents).map fun tp => (tree.node tp).subid) within with
    ⟨filled, filled_eq, filledWithin⟩
  have run_eq : nodeToOid tree tp buf =
      (if buf.used < (tp :: (tree.node tp).parents).length then fail
      else if (tp :: (tree.node tp).parents).length < buf.used then
        moveFront (buf.used - (tp :: (tree.node tp).parents).length)
          (tp :: (tree.node tp).parents).length
      else pure () : OidRun Unit)
        { filled with used := (tp :: (tree.node tp).parents).length } := by
    rw [nodeToOid]
    simp only [List.length_map]
    change (nodeToOidLoop buf.used 0 _ >>= _) buf = _
    rw [StoreRun.bind_apply, filled_eq]
    rfl
  rw [run_eq]
  generalize (tp :: (tree.node tp).parents).length = numids
  by_cases many : buf.used < numids
  · rw [if_pos many]
    exact ⟨_, none, rfl, filledWithin.stores, nofun⟩
  · rw [if_neg many]
    by_cases few : numids < buf.used
    · rw [if_pos few]
      have inside : ∀ position ∈ List.range numids ++ filled.stores, position < buf.used := by
        intro position mem
        rcases List.mem_append.mp mem with mem | mem
        · have low := List.mem_range.mp mem
          omega
        · exact filledWithin.stores position mem
      exact ⟨_, some (), rfl, inside, fun _ => ⟨le_of_lt few, inside⟩⟩
    · rw [if_neg few]
      exact ⟨_, some (), rfl, filledWithin.stores, fun _ => ⟨not_lt.mp many, filledWithin.stores⟩⟩

theorem getModuleNode_inside (hintOf : CString → CString → Option HintReturn) (tree : MibTree)
    (options : OidOptions) (modid : Option Int) (fname : List Byte) {buf : OidBuffer}
    (within : Within buf.used buf)
    (fits : ∀ tp cp filled, TextFits hintOf tree options buf.used tp cp filled) :
    ∃ buf' result, getModuleNode hintOf tree options modid fname buf = some (buf', result) ∧
      (∀ position ∈ buf'.stores, position < buf.used) ∧
      (result = some () → buf'.used ≤ buf.used) := by
  rw [getModuleNode]
  cases found : findTreeNode tree (isolate fname).1 modid with
  | none => exact ⟨buf, none, rfl, within.stores, nofun⟩
  | some tp =>
      rcases nodeToOid_within tree tp within with ⟨filled, result, filled_eq, inside, filledWithin⟩
      change ∃ buf' result, (nodeToOid tree tp >>= _) buf = some (buf', result) ∧ _
      rw [StoreRun.bind_apply, filled_eq]
      cases result with
      | none => exact ⟨filled, none, rfl, inside, nofun⟩
      | some done =>
          cases rest_eq : (isolate fname).2 with
          | none => exact ⟨filled, some (), rfl, inside, fun _ => (filledWithin rfl).used⟩
          | some cp =>
              have stays := staysIf_addStringsToOid hintOf tree options tp cp (filledWithin rfl)
              rcases stays.returns (fits tp cp filled) with ⟨⟨buf', result⟩, ended⟩
              have within' := stays.within (fits tp cp filled) _ _ ended
              exact ⟨buf', result, ended, within'.stores, fun _ => within'.used⟩

def WithoutStringIndex (tree : MibTree) : Prop :=
  ∀ tp, ∀ entry ∈ inDicesOf tree tp, ∀ index, findTreeNode tree entry.ilabel none = some index →
    (tree.node index).type ≠ .octetstr

theorem indexesFit_of_numbers {hintOf : CString → CString → Option HintReturn} {tree : MibTree}
    {options : OidOptions} {maxlen : Nat} {inDices : List IndexEntry} {cp cp2 : Rest}
    {buf : OidBuffer} (numbers : ∀ entry ∈ inDices, ∀ index,
      findTreeNode tree entry.ilabel none = some index → (tree.node index).type ≠ .octetstr) :
    IndexesFit hintOf tree options maxlen inDices cp cp2 buf := by
  induction inDices generalizing cp cp2 buf with
  | nil => trivial
  | cons entry inDices ih =>
      cases cp with
      | none => trivial
      | some cp =>
          intro index found
          have number := numbers entry List.mem_cons_self index found
          refine ⟨fun isString => absurd isString number, fun _ _ _ _ => ?_⟩
          exact ih fun entry mem => numbers entry (List.mem_cons_of_mem _ mem)

/-- Of the indexes, only strings are stored outside of the array. -/
theorem getModuleNode_staysInside (hintOf : CString → CString → Option HintReturn)
    (tree : MibTree) (options : OidOptions) (modid : Option Int) (fname : List Byte)
    (buf : OidBuffer) (numbers : WithoutStringIndex tree) (within : Within buf.used buf) :
    ∃ buf' result, getModuleNode hintOf tree options modid fname buf = some (buf', result) ∧
      (∀ position ∈ buf'.stores, position < buf.used) ∧
      (result = some () → buf'.used ≤ buf.used) :=
  getModuleNode_inside hintOf tree options modid fname within fun _ _ _ _ descent _ =>
    indexesFit_of_numbers (numbers descent.tp)

/-- The column `c` of a table whose index `i` is a number. -/
def numberTree : MibTree where
  node tp :=
    if tp = 1 then { label := [0x63], subid := 1, parents := [2] }
    else if tp = 2 then
      { label := [0x65], subid := 1, childList := [1], indexes := [⟨[0x69], false⟩] }
    else { label := [0x69], subid := 2, type := .integer }
  tbuckets := [1, 2, 3]

theorem getModuleNode_staysInside_number : ∃ buf' result,
    getModuleNode (fun _ _ => none) numberTree bothOptions none [0x63, 0x2e, 0x37]
      { contents := fun _ => 0, used := 3 } = some (buf', result) ∧
    (∀ position ∈ buf'.stores, position < 3) ∧ (result = some () → buf'.used ≤ 3) := by
  apply getModuleNode_staysInside
  · intro tp entry _ index _
    simp only [numberTree]
    split_ifs <;> decide
  · exact ⟨le_rfl, nofun⟩

end TextualOid

end NetSnmp
