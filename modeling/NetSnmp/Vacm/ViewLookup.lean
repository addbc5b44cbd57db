import Mathlib.Data.List.GetD
import Mathlib.Data.List.Nodup
import Mathlib.Data.Nat.Bitwise
import NetSnmp.Vacm.AccessOrder
import NetSnmp.Vacm.SubtreeCheck

/-!
# The entry that decides on a name

The lookup walks the mask of every entry along with the subidentifiers and keeps
the longest entry that matches.  Read declaratively: a family of subtrees is
given by the subidentifiers whose bit of the mask is set or missing, and the
decision for a name is the greatest entry whose family has the name.
-/

namespace NetSnmp

theorem nameMatches_iff {view : VacmString} {vp : VacmViewEntry} :
    nameMatches view vp = true ↔ vp.viewName = view := by
  rw [nameMatches, decide_eq_true_iff, memcmp_eq_zero_iff, eq_comm, ← memcmp_eq_zero_iff,
    memcmp_stored_eq_zero_iff]

def viewLength (vp : VacmViewEntry) : Nat ×ₗ Oid :=
  toLex (vp.viewSubtree.length, vp.viewSubtree)

theorem keepLonger_eq (best : Option VacmViewEntry) (vp : VacmViewEntry) :
    keepLonger best vp =
      keepBest (fun vpret vp => decide (viewLength vpret < viewLength vp)) best vp := by
  cases best with
  | none => rfl
  | some vpret =>
      simp only [keepLonger, keepBest, viewLength, Prod.Lex.toLex_lt_toLex, snmpOidCompare,
        lexCompare_pos_iff, decide_eq_true_eq, eq_comm (a := vp.viewSubtree.length)]

section Lookup

variable {mode : VacmMode} (keeps : mode ≠ .checkSubtree)

include keeps

theorem viewGetLoop_eq_foldl (view : VacmString) (viewSubtree : Oid) (head : List VacmViewEntry)
    (vpret : Option VacmViewEntry) (count : Nat) :
    (viewGetLoop view viewSubtree mode head vpret count).1 =
      (head.filter (viewMatches view viewSubtree mode)).foldl
        (keepBest fun vpret vp => decide (viewLength vpret < viewLength vp)) vpret := by
  induction head generalizing vpret count with
  | nil => rfl
  | cons vp rest ih =>
      rw [viewGetLoop]
      split
      · rename_i accepted
        rw [List.filter_cons_of_pos accepted, List.foldl_cons, ih, keepLonger_eq]
      · rename_i rejected
        rw [List.filter_cons_of_neg rejected, ih]

theorem isBest_netsnmpViewGet (head : List VacmViewEntry) (view : VacmString) (viewSubtree : Oid) :
    IsBest viewLength (head.filter (viewMatches view viewSubtree mode))
      (netsnmpViewGet head view.str viewSubtree mode) := by
  have loop := viewGetLoop_eq_foldl keeps view viewSubtree head none 0
  simp only [netsnmpViewGet, vacmString_eq_some_iff.mpr rfl]
  rw [if_neg fun absurdity => keeps absurdity.1, loop]
  apply isBest_foldl_keepBest
  apply List.pairwise_of_forall
  intro first second
  exact ⟨decide_eq_true, fun longer => le_of_lt (of_decide_eq_true longer)⟩

end Lookup

/-- The bit of the mask for a subidentifier, the highest bit of the first octet in front.  Bits
behind the end of the mask are set. -/
def maskBit (vp : VacmViewEntry) (oidpos : Nat) : Bool :=
  match vp.viewMask[oidpos / 8]? with
  | none => true
  | some octet => octet.toNat.testBit (7 - oidpos % 8)

def InFamily (vp : VacmViewEntry) (name : Oid) : Prop :=
  vp.viewSubtree.length ≤ name.length ∧
    ∀ oidpos < vp.viewSubtree.length, maskBit vp oidpos = true →
      name[oidpos]? = vp.viewSubtree[oidpos]?

/-- The value of `mask` in the loop over the subidentifiers. -/
def subidMask (oidpos : Nat) : Byte := UInt8.ofNat (2 ^ (7 - oidpos % 8))

theorem subidMask_eq_one_iff {oidpos : Nat} : subidMask oidpos = 1 ↔ oidpos % 8 = 7 := by
  have bits : ∀ bit < 8, UInt8.ofNat (2 ^ (7 - bit)) = 1 ↔ bit = 7 := by decide
  exact bits _ (Nat.mod_lt _ (by decide))

theorem subidMask_shiftRight {oidpos : Nat} (inner : oidpos % 8 ≠ 7) :
    subidMask oidpos >>> 1 = subidMask (oidpos + 1) := by
  have bits : ∀ bit < 7, UInt8.ofNat (2 ^ (7 - bit)) >>> 1 = UInt8.ofNat (2 ^ (7 - (bit + 1))) := by
    decide
  have bit_lt : oidpos % 8 < 7 := by omega
  have next : (oidpos + 1) % 8 = oidpos % 8 + 1 := by omega
  rw [subidMask, subidMask, next]
  exact bits _ bit_lt

theorem and_ne_zero_iff {octet : Byte} {bit : Nat} (small : bit < 8) :
    octet &&& UInt8.ofNat (2 ^ bit) ≠ 0 ↔ octet.toNat.testBit bit = true := by
  have power : (UInt8.ofNat (2 ^ bit)).toNat = 2 ^ bit := by
    apply UInt8.toNat_ofNat_of_lt'
    exact Nat.pow_lt_pow_right (by decide) small
  rw [ne_eq, ← UInt8.toNat_inj, UInt8.toNat_and, power, Nat.and_two_pow]
  cases octet.toNat.testBit bit <;> simp

theorem viewMask_ne_zero_iff {vp : VacmViewEntry} {oidpos : Nat} :
    viewMask vp (oidpos / 8) (subidMask oidpos) ≠ 0 ↔ maskBit vp oidpos = true := by
  by_cases stored : oidpos / 8 < vp.viewMask.length
  · rw [viewMask, if_neg (not_le.mpr stored), maskBit, List.getElem?_eq_getElem stored,
      List.getD_eq_getElem _ _ stored]
    apply and_ne_zero_iff
    omega
  · have missing : vp.viewMask[oidpos / 8]? = none := List.getElem?_eq_none (not_lt.mp stored)
    have bits : ∀ bit < 8, UInt8.ofNat (2 ^ (7 - bit)) ≠ 0 := by decide
    simp only [viewMask, if_pos (not_lt.mp stored), maskBit, missing, iff_true]
    exact bits _ (Nat.mod_lt _ (by decide))

theorem checkMask_cons {vp : VacmViewEntry} {oidpos : Nat} {subid subid' : Nat}
    {name entrySubtree : Oid} :
    checkMask vp false (subidMask oidpos) (oidpos / 8) (subid :: name) (subid' :: entrySubtree) =
      (decide (maskBit vp oidpos = true → subid = subid') &&
        checkMask vp false (subidMask (oidpos + 1)) ((oidpos + 1) / 8) name entrySubtree) := by
  rw [checkMask]
  simp only [Bool.false_eq_true, false_or, viewMask_ne_zero_iff]
  by_cases differs : maskBit vp oidpos = true ∧ subid ≠ subid'
  · rw [if_pos differs]
    simp [differs.1, differs.2]
  · have agrees : maskBit vp oidpos = true → subid = subid' := by
      intro told
      by_contra other
      exact differs ⟨told, other⟩
    rw [if_neg differs, decide_eq_true agrees, Bool.true_and]
    by_cases last : oidpos % 8 = 7
    · have next : (oidpos + 1) / 8 = oidpos / 8 + 1 := by omega
      have first : subidMask (oidpos + 1) = 0x80 := by
        have wraps : (oidpos + 1) % 8 = 0 := by omega
        rw [subidMask, wraps]
        rfl
      rw [if_pos (subidMask_eq_one_iff.mpr last), next, first]
    · have next : (oidpos + 1) / 8 = oidpos / 8 := by omega
      rw [if_neg (last ∘ subidMask_eq_one_iff.mp), subidMask_shiftRight last, next]

theorem checkMask_iff {vp : VacmViewEntry} {oidpos : Nat} {name entrySubtree : Oid}
    (le : entrySubtree.length ≤ name.length) :
    checkMask vp false (subidMask oidpos) (oidpos / 8) name entrySubtree = true ↔
      ∀ behind < entrySubtree.length, maskBit vp (oidpos + behind) = true →
        name[behind]? = entrySubtree[behind]? := by
  induction entrySubtree generalizing oidpos name with
  | nil => simp [checkMask]
  | cons subid' entrySubtree ih =>
      cases name with
      | nil => exact absurd le (by simp)
      | cons subid name =>
          have le' : entrySubtree.length ≤ name.length := by simpa using le
          rw [checkMask_cons, Bool.and_eq_true, decide_eq_true_iff, ih le']
          constructor
          · rintro ⟨here, later⟩ behind lt told
            cases behind with
            | zero => simp [here told]
            | succ behind =>
                have told' : maskBit vp (oidpos + 1 + behind) = true := by
                  rwa [Nat.add_assoc, Nat.add_comm 1]
                simpa using later behind (Nat.lt_of_succ_lt_succ lt) told'
          · intro agrees
            constructor
            · intro told
              simpa using agrees 0 (Nat.succ_pos _) told
            · intro behind lt told
              have told' : maskBit vp (oidpos + (behind + 1)) = true := by
                rwa [Nat.add_comm behind, ← Nat.add_assoc]
              simpa using agrees (behind + 1) (Nat.succ_lt_succ lt) told'

theorem viewMatches_find_iff_inFamily {view : VacmString} {name : Oid} {vp : VacmViewEntry} :
    viewMatches view name .find vp = true ↔ vp.viewName = view ∧ InFamily vp name := by
  rw [viewMatches_find_iff, nameMatches_iff, InFamily]
  apply and_congr_right
  intro _
  apply and_congr_right
  intro le
  have whole := (checkMask_iff le : checkMask vp false (subidMask 0) (0 / 8) _ _ = true ↔ _)
  simp only [Nat.zero_add] at whole
  exact whole

/-- The entry of the view that decides on a name: it is the one with the longest subtree among those
with the name in their family, and among subtrees of that length the lexicographically greatest. -/
def Decides (head : List VacmViewEntry) (viewName : CString) (name : Oid) :
    Option VacmViewEntry → Prop
  | none => ∀ vp ∈ head, vp.viewName.str = viewName → ¬ InFamily vp name
  | some vp =>
      vp ∈ head ∧ vp.viewName.str = viewName ∧ InFamily vp name ∧
        ∀ other ∈ head, other.viewName.str = viewName → InFamily other name → other ≠ vp →
          other.viewSubtree.length < vp.viewSubtree.length ∨
            (other.viewSubtree.length = vp.viewSubtree.length ∧
              other.viewSubtree < vp.viewSubtree)

def UniqueViews (head : List VacmViewEntry) : Prop :=
  (head.map fun vp => (vp.viewName, vp.viewSubtree)).Nodup

theorem UniqueViews.eq {head : List VacmViewEntry} (unique : UniqueViews head)
    {vp other : VacmViewEntry} (mem : vp ∈ head) (mem' : other ∈ head)
    (name_eq : vp.viewName = other.viewName) (subtree_eq : vp.viewSubtree = other.viewSubtree) :
    vp = other := by
  apply List.inj_on_of_nodup_map unique mem mem'
  simp [name_eq, subtree_eq]

theorem decides_netsnmpViewGet {head : List VacmViewEntry} (unique : UniqueViews head)
    (viewName : CString) (name : Oid) :
    Decides head viewName name (netsnmpViewGet head viewName name .find) := by
  cases copied : vacmString viewName with
  | none =>
      -- a name that is too long for the table is not in it
      have long := vacmString_eq_none_iff.mp copied
      simp only [netsnmpViewGet, copied]
      rintro vp - rfl
      exact absurd vp.viewName.short (not_le_of_gt long)
  | some view =>
      obtain rfl := vacmString_eq_some_iff.mp copied
      have best := isBest_netsnmpViewGet (show VacmMode.find ≠ .checkSubtree by simp) head view name
      cases found : netsnmpViewGet head view.str name .find with
      | none =>
          rw [found] at best
          intro vp mem name_eq inFamily
          apply List.filter_eq_nil_iff.mp best vp mem
          exact viewMatches_find_iff_inFamily.mpr ⟨VacmString.str_inj.mp name_eq, inFamily⟩
      | some vp =>
          rw [found] at best
          rcases best with ⟨mem, greatest⟩
          rw [List.mem_filter, viewMatches_find_iff_inFamily] at mem
          rcases mem with ⟨mem, name_eq, inFamily⟩
          refine ⟨mem, VacmString.str_inj.mpr name_eq, inFamily, ?_⟩
          intro other otherMem otherName otherIn different
          have other_eq := VacmString.str_inj.mp otherName
          have le := greatest other (List.mem_filter.mpr ⟨otherMem,
            viewMatches_find_iff_inFamily.mpr ⟨other_eq, otherIn⟩⟩)
          rcases Prod.Lex.toLex_le_toLex.mp le with shorter | ⟨same, smaller⟩
          · exact .inl shorter
          · refine .inr ⟨same, lt_of_le_of_ne smaller ?_⟩
            intro subtree_eq
            exact different (unique.eq otherMem mem (other_eq.trans name_eq.symm) subtree_eq)

theorem Decides.eq {head : List VacmViewEntry} {viewName : CString} {name : Oid}
    {left right : Option VacmViewEntry} (decides : Decides head viewName name left)
    (decides' : Decides head viewName name right) : left = right := by
  cases left with
  | none =>
      cases right with
      | none => rfl
      | some vp => exact absurd decides'.2.2.1 (decides vp decides'.1 decides'.2.1)
  | some vp =>
      cases right with
      | none => exact absurd decides.2.2.1 (decides' vp decides.1 decides.2.1)
      | some vp' =>
          rcases decides with ⟨mem, name_eq, inFamily, longest⟩
          rcases decides' with ⟨mem', name_eq', inFamily', longest'⟩
          by_contra different
          have different' : vp ≠ vp' := by simpa using different
          have lt := longest vp' mem' name_eq' inFamily' different'.symm
          have gt := longest' vp mem name_eq inFamily different'
          rcases lt with lt | ⟨same, lt⟩
          · rcases gt with gt | ⟨same', -⟩ <;> omega
          · rcases gt with gt | ⟨-, gt⟩
            · omega
            · exact lt_asymm lt gt

theorem Decides.perm {head head' : List VacmViewEntry} {viewName : CString} {name : Oid}
    {vpret : Option VacmViewEntry} (decides : Decides head viewName name vpret)
    (perm : head.Perm head') : Decides head' viewName name vpret := by
  cases vpret with
  | none =>
      intro vp mem
      exact decides vp (perm.mem_iff.mpr mem)
  | some vp =>
      rcases decides with ⟨mem, name_eq, inFamily, longest⟩
      refine ⟨perm.mem_iff.mp mem, name_eq, inFamily, ?_⟩
      intro other otherMem
      exact longest other (perm.mem_iff.mpr otherMem)

/-- The lookup finds the entry that decides on a name, in whatever order the list is. -/
theorem netsnmpViewGet_decides_of_any_order {head head' : List VacmViewEntry}
    (unique : UniqueViews head) (viewName : CString) (name : Oid) (perm : head.Perm head') :
    Decides head viewName name (netsnmpViewGet head viewName name .find) ∧
      netsnmpViewGet head' viewName name .find = netsnmpViewGet head viewName name .find := by
  have unique' : UniqueViews head' := (perm.map _).nodup_iff.mp unique
  have decides := decides_netsnmpViewGet unique viewName name
  refine ⟨decides, ?_⟩
  exact (decides_netsnmpViewGet unique' viewName name).eq (decides.perm perm)

theorem netsnmpViewGet_decides_of_overlap :
    let all : VacmString := ⟨⟨[97], by decide⟩, by decide⟩
    let wide : VacmViewEntry :=
      { viewName := all, viewSubtree := [1, 3, 6], viewMask := [0xc0], viewType := 1 }
    let narrow : VacmViewEntry :=
      { viewName := all, viewSubtree := [1, 3, 5], viewMask := [0xff], viewType := 2 }
    UniqueViews [wide, narrow] ∧ List.Perm [wide, narrow] [narrow, wide] ∧
      Decides [wide, narrow] all.str [1, 3, 5, 1]
        (netsnmpViewGet [wide, narrow] all.str [1, 3, 5, 1] .find) ∧
      netsnmpViewGet [narrow, wide] all.str [1, 3, 5, 1] .find =
        netsnmpViewGet [wide, narrow] all.str [1, 3, 5, 1] .find := by
  intro all wide narrow
  have unique : UniqueViews [wide, narrow] := by
    show List.Nodup _
    decide
  have perm : List.Perm [wide, narrow] [narrow, wide] := List.Perm.swap _ _ _
  exact ⟨unique, perm, netsnmpViewGet_decides_of_any_order unique all.str [1, 3, 5, 1] perm⟩

end NetSnmp
