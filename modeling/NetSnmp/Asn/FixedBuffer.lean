import NetSnmp.Asn.ReverseWrites

/-!
# The reverse encoders in a buffer of a fixed size

An encoder that may not grow its buffer either fails or writes what it writes
into a buffer that grows.
-/

namespace NetSnmp

/-- What a routine returns when it may not grow the buffer it also returns when it may. -/
def SameWhenFixed {α : Type} (routine : Bool → Option α) : Prop :=
  ∀ result, routine false = some result → routine true = some result

namespace SameWhenFixed

variable {α β : Type}

theorem const (result : Option α) : SameWhenFixed fun _ => result := fun _ => id

theorem bind {first : Bool → Option α} {next : Bool → α → Option β} (same : SameWhenFixed first)
    (sameNext : ∀ value, SameWhenFixed (next · value)) :
    SameWhenFixed fun r => first r >>= next r := by
  intro result fixed
  rcases Option.bind_eq_some_iff.mp fixed with ⟨value, first_eq, next_eq⟩
  apply Option.bind_eq_some_iff.mpr
  exact ⟨value, same value first_eq, sameNext value result next_eq⟩

theorem ite {condition : Prop} [Decidable condition] {left right : Bool → Option α}
    (sameLeft : SameWhenFixed left) (sameRight : SameWhenFixed right) :
    SameWhenFixed fun r => if condition then left r else right r := by
  by_cases holds : condition
  · simpa [holds] using sameLeft
  · simpa [holds] using sameRight

theorem written_eq {encoder : Bool → Option RBuf} {bytes : List Byte} {buf buf' : RBuf}
    {r : Bool} (same : SameWhenFixed encoder) (wrote : Wrote (encoder true) bytes buf)
    (result : encoder r = some buf') : buf'.written = bytes ++ buf.written := by
  have grown : encoder true = some buf' := by
    cases r with
    | false => exact same buf' result
    | true => exact result
  rcases wrote with ⟨buf'', result', written⟩
  obtain rfl : buf'' = buf' := Option.some.inj (result'.symm.trans grown)
  exact written

end SameWhenFixed

theorem same_storeByte (buf : RBuf) (byte : Byte) : SameWhenFixed (storeByte · buf byte) := by
  apply SameWhenFixed.bind
  · intro result fixed
    by_cases full : buf.room < 1
    · simp [makeRoom, full] at fixed
    · simpa [makeRoom, full] using fixed
  · intro buf'
    exact .const _

theorem same_reserve (size : Nat) (buf : RBuf) : SameWhenFixed (reserve · size buf) := by
  intro result fixed
  change reserve false size buf = some result at fixed
  change reserve true size buf = some result
  rw [reserve] at fixed ⊢
  by_cases small : buf.room < size
  · simp [small] at fixed
  · simpa [small] using fixed

theorem same_storeLengthOctets (buf : RBuf) (length : Nat) :
    SameWhenFixed (storeLengthOctets · buf length) := by
  induction length using Nat.strong_induction_on generalizing buf with
  | _ length ih =>
      have unfolded (r : Bool) : storeLengthOctets r buf length =
          if 0xff < length then
            storeByte r buf (toUChar length) >>= fun buf' =>
              storeLengthOctets r buf' (length / 2 ^ 8)
          else some (buf, length) := by
        rewrite [storeLengthOctets]
        rfl
      simp only [unfolded]
      by_cases large : 0xff < length
      · simp only [large, if_true]
        exact (same_storeByte _ _).bind fun buf' => ih (length / 2 ^ 8) (by omega) buf'
      · simp only [large, if_false]
        exact .const _

theorem same_asnReallocRbuildLength (buf : RBuf) (length : Nat) :
    SameWhenFixed (asnReallocRbuildLength · buf length) := by
  unfold asnReallocRbuildLength
  apply SameWhenFixed.ite
  · exact same_storeByte _ _
  · exact (same_storeLengthOctets _ _).bind fun ⟨buf', length'⟩ =>
      (same_reserve 2 buf').bind fun buf'' => .const _

theorem same_asnReallocRbuildHeader (buf : RBuf) (type : Byte) (length : Nat) :
    SameWhenFixed (asnReallocRbuildHeader · buf type length) :=
  (same_asnReallocRbuildLength _ _).bind fun buf' => same_storeByte buf' type

theorem same_storeHighSubid (buf : RBuf) (subid : Nat) :
    SameWhenFixed (storeHighSubid · buf subid) := by
  induction subid using Nat.strong_induction_on generalizing buf with
  | _ subid ih =>
      have unfolded (r : Bool) : storeHighSubid r buf subid =
          if subid ≠ 0 then
            storeByte r buf (toUChar subid ||| 0x80) >>= fun buf' =>
              storeHighSubid r buf' (subid / 2 ^ 7)
          else some buf := by
        rewrite [storeHighSubid]
        rfl
      simp only [unfolded]
      by_cases more : subid ≠ 0
      · simp only [more, if_true, ne_eq, not_false_eq_true]
        exact (same_storeByte _ _).bind fun buf' => ih (subid / 2 ^ 7) (by omega) buf'
      · simp only [more, if_false]
        exact .const _

theorem same_storeUint32 (buf : RBuf) (subid : Nat) : SameWhenFixed (storeUint32 · buf subid) :=
  (same_storeByte _ _).bind fun buf' => same_storeHighSubid buf' _

theorem same_storeSubids (buf : RBuf) (reversed : Oid) :
    SameWhenFixed (storeSubids · buf reversed) := by
  induction reversed generalizing buf with
  | nil => exact .const _
  | cons subid reversed ih => exact (same_storeUint32 _ _).bind fun buf' => ih buf'

theorem same_rbuildObjidContents (buf : RBuf) (objid : Oid) :
    SameWhenFixed (rbuildObjidContents · buf objid) := by
  match objid with
  | [] => exact same_storeByte _ _
  | [_] => exact .ite (.const _) (same_storeByte _ _)
  | _ :: _ :: _ =>
      exact .ite (.const _) ((same_storeSubids _ _).bind fun buf' =>
        .ite (.const _) (same_storeUint32 buf' _))

theorem same_asnReallocRbuildObjid (buf : RBuf) (type : Byte) (objid : Oid) :
    SameWhenFixed (asnReallocRbuildObjid · buf type objid) :=
  (same_rbuildObjidContents _ _).bind fun _ =>
    (same_asnReallocRbuildHeader _ _ _).bind fun _ => .const _

theorem same_storeOctets (buf : RBuf) (integer : Int) :
    SameWhenFixed (storeOctets · buf integer) := by
  induction size : integer.natAbs using Nat.strong_induction_on generalizing integer buf with
  | _ size ih =>
      have unfolded (r : Bool) : storeOctets r buf integer =
          if integer ≠ testvalue integer then
            storeByte r buf (toUChar integer) >>= fun buf' =>
              storeOctets r buf' (integer / 2 ^ 8)
          else some buf := by
        rewrite [storeOctets]
        rfl
      simp only [unfolded]
      by_cases more : integer ≠ testvalue integer
      · simp only [more, if_true, ne_eq, not_false_eq_true]
        have smaller := natAbs_shift_lt more
        exact (same_storeByte _ _).bind fun buf' =>
          ih (integer / 2 ^ 8).natAbs (by omega) buf' (integer / 2 ^ 8) rfl
      · simp only [more, if_false]
        exact .const _

theorem same_fixSign (buf : RBuf) (testvalue : Int) : SameWhenFixed (fixSign · buf testvalue) :=
  .ite (same_storeByte _ _) (.const _)

theorem same_rbuildOctets (buf : RBuf) (integer : Int) :
    SameWhenFixed (rbuildOctets · buf integer) :=
  (same_storeByte _ _).bind fun buf' =>
    (same_storeOctets buf' _).bind fun buf'' => same_fixSign buf'' _

theorem same_asnReallocRbuildInt (buf : RBuf) (type : Byte) (intp : Int) :
    SameWhenFixed (asnReallocRbuildInt · buf type intp) :=
  (same_rbuildOctets _ _).bind fun _ => (same_asnReallocRbuildHeader _ _ _).bind fun _ => .const _

theorem same_asnReallocRbuildUnsignedInt (buf : RBuf) (type : Byte) (intp : Nat) :
    SameWhenFixed (asnReallocRbuildUnsignedInt · buf type intp) :=
  (same_rbuildOctets _ _).bind fun _ => (same_asnReallocRbuildHeader _ _ _).bind fun _ => .const _

theorem same_storeFill (buf : RBuf) (octet : Byte) (missing : Nat) :
    SameWhenFixed (storeFill · buf octet missing) := by
  induction missing generalizing buf with
  | zero => exact .const _
  | succ missing ih => exact (same_storeByte _ _).bind fun buf' => ih buf'

theorem same_rbuildHighHalf (buf : RBuf) (missing : Nat) (high : Int) :
    SameWhenFixed (rbuildHighHalf · buf missing high) :=
  .ite ((same_storeFill _ _ _).bind fun buf' =>
    (same_storeByte buf' _).bind fun buf'' => same_storeOctets buf'' _) (.const _)

theorem same_rbuildOpaqueWrapper (buf : RBuf) (special : Byte) (size : Nat) :
    SameWhenFixed (rbuildOpaqueWrapper · buf special size) := by
  apply (SameWhenFixed.const (poke buf (toUChar size))).bind
  intro buf'
  apply (SameWhenFixed.const (poke buf' special)).bind
  intro buf''
  apply (SameWhenFixed.const (poke buf'' asnOpaqueTag1)).bind
  intro tagged
  exact (same_asnReallocRbuildHeader tagged _ _).bind fun _ => .const _

theorem same_rbuildUnsignedInt64Octets (buf : RBuf) (high low : Nat) :
    SameWhenFixed (rbuildUnsignedInt64Octets · buf high low) :=
  (same_storeByte _ _).bind fun buf' => (same_storeOctets buf' _).bind fun buf'' =>
    (same_rbuildHighHalf buf'' _ _).bind fun signed => same_fixSign signed _

theorem same_asnReallocRbuildUnsignedInt64 (buf : RBuf) (type : Byte) (high low : Nat) :
    SameWhenFixed (asnReallocRbuildUnsignedInt64 · buf type high low) :=
  (same_rbuildUnsignedInt64Octets _ _ _).bind fun buf' =>
    .ite ((same_reserve 5 buf').bind fun _ => same_rbuildOpaqueWrapper _ _ _)
      ((same_asnReallocRbuildHeader buf' _ _).bind fun _ => .const _)

theorem same_storeLowOctets (buf : RBuf) (testvalue : Int) (missing : Nat) (low : Int) :
    SameWhenFixed (storeLowOctets · buf testvalue missing low) := by
  induction missing generalizing buf low with
  | zero => exact .const _
  | succ missing ih =>
      exact .ite ((same_storeByte _ _).bind fun buf' => ih buf' (low / 2 ^ 8)) (.const _)

theorem same_rbuildSignedInt64Octets (buf : RBuf) (high low : Int) :
    SameWhenFixed (rbuildSignedInt64Octets · buf high low) :=
  (same_storeByte _ _).bind fun buf' => (same_storeLowOctets buf' _ _ _).bind fun buf'' =>
    (same_rbuildHighHalf buf'' _ _).bind fun signed => same_fixSign signed _

theorem same_asnReallocRbuildSignedInt64 (buf : RBuf) (high low : Nat) :
    SameWhenFixed (asnReallocRbuildSignedInt64 · buf high low) :=
  (same_rbuildSignedInt64Octets _ _ _).bind fun buf' =>
    (same_reserve 5 buf').bind fun _ => same_rbuildOpaqueWrapper _ _ _

end NetSnmp
