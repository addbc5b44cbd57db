import Mathlib.Data.Prod.Lex
import NetSnmp.Usm.UserList

/-!
# The order of the users

The list of users is kept strictly in order, so that an engine ID and a name
belong to one entry at most, and a search finds the user that was added last.
-/

namespace NetSnmp

namespace UsmUser

/-- The index of a user: the length of the engine ID, `NULL` in front of an engine ID without bytes,
its bytes, the length of the name and its bytes. -/
def order (user : UsmUser) : Nat ×ₗ Bool ×ₗ List Nat ×ₗ Nat ×ₗ List Nat :=
  toLex (user.engineIDLen, toLex (user.engineID.isSome, toLex (byteValues user.engineBytes,
    toLex (user.name.strlen, byteValues user.name.chars))))

theorem order_inj {user user' : UsmUser} : user.order = user'.order ↔ user = user' := by
  constructor
  · intro same
    rcases user with ⟨engineID, name⟩
    rcases user' with ⟨engineID', name'⟩
    simp only [order, EmbeddingLike.apply_eq_iff_eq, Prod.mk.injEq] at same
    rcases same with ⟨-, isSome_eq, bytes_eq, -, chars_eq⟩
    have bytes_eq := byteValues_inj.mp bytes_eq
    have name_eq : name = name' := CString.ext (byteValues_inj.mp chars_eq)
    have engineID_eq : engineID = engineID' := by
      cases engineID <;> cases engineID' <;> simp_all [engineBytes]
    rw [name_eq, engineID_eq]
  · intro same
    rw [same]

end UsmUser

section Verdict

variable {nptr user : UsmUser}

theorem memcmp_engineBytes (len_eq : nptr.engineIDLen = user.engineIDLen) :
    memcmp nptr.engineBytes user.engineBytes user.engineIDLen =
      lexCompare (byteValues nptr.engineBytes) (byteValues user.engineBytes) := by
  have left : nptr.engineBytes.take user.engineIDLen = nptr.engineBytes :=
    List.take_of_length_le (le_of_eq len_eq)
  have right : user.engineBytes.take user.engineIDLen = user.engineBytes :=
    List.take_of_length_le le_rfl
  rw [memcmp, left, right]

theorem sameEngineID_iff (len_eq : nptr.engineIDLen = user.engineIDLen) :
    sameEngineID nptr user ↔ nptr.engineBytes = user.engineBytes := by
  rw [sameEngineID, memcmp_engineBytes len_eq, lexCompare_eq_zero_iff, byteValues_inj]
  constructor
  · rintro (⟨nptrNull, userNull⟩ | same)
    · rw [UsmUser.engineBytes, UsmUser.engineBytes, nptrNull, userNull]
    · exact same
  · exact .inr

theorem usmAddVerdict_of_sameEngineID (len_eq : nptr.engineIDLen = user.engineIDLen)
    (alike : nptr.engineID = none ↔ user.engineID = none)
    (bytes_eq : nptr.engineBytes = user.engineBytes) :
    usmAddVerdict nptr user =
      if user.name.strlen < nptr.name.strlen then .insertHere
      else if nptr.name.strlen = user.name.strlen ∧ 0 < strcmp nptr.name user.name then .insertHere
      else if nptr.name.strlen = user.name.strlen ∧ strcmp nptr.name user.name =
        0 then .replaceEntry
      else .goOn := by
  have notLess : ¬ user.engineIDLen < nptr.engineIDLen := by
    rw [len_eq]
    exact lt_irrefl _
  have notNull : ¬ (user.engineID = none ∧ nptr.engineID ≠ none) := fun both =>
    both.2 (alike.mpr both.1)
  have notNull' : ¬ (nptr.engineID = none ∧ user.engineID ≠ none) := fun both =>
    both.2 (alike.mp both.1)
  have same : sameEngineID nptr user := (sameEngineID_iff len_eq).mpr bytes_eq
  have notGreater : ¬ 0 < memcmp nptr.engineBytes user.engineBytes user.engineIDLen := by
    rw [memcmp_engineBytes len_eq, bytes_eq, lexCompare_self]
    exact lt_irrefl _
  rw [usmAddVerdict, if_neg notLess, if_neg notNull, if_neg (fun all => notGreater all.2.2.2),
    if_pos notNull']
  simp only [len_eq, same, true_and]

theorem usmAddVerdict_of_ne (len_eq : nptr.engineIDLen = user.engineIDLen)
    (nptrSome : nptr.engineID ≠ none) (userSome : user.engineID ≠ none)
    (bytes_ne : nptr.engineBytes ≠ user.engineBytes) :
    usmAddVerdict nptr user =
      if byteValues user.engineBytes < byteValues nptr.engineBytes then .insertHere else .goOn := by
  have notSame : ¬ sameEngineID nptr user := fun same =>
    bytes_ne ((sameEngineID_iff len_eq).mp same)
  have greater_iff : 0 < memcmp nptr.engineBytes user.engineBytes user.engineIDLen ↔
      byteValues user.engineBytes < byteValues nptr.engineBytes := by
    rw [memcmp_engineBytes len_eq, lexCompare_pos_iff]
  simp [usmAddVerdict, len_eq, nptrSome, userSome, notSame, greater_iff]

theorem order_lt_iff : user.order < nptr.order ↔
    user.engineIDLen < nptr.engineIDLen ∨ user.engineIDLen = nptr.engineIDLen ∧
      (user.engineID.isSome < nptr.engineID.isSome ∨
        user.engineID.isSome = nptr.engineID.isSome ∧
          (byteValues user.engineBytes < byteValues nptr.engineBytes ∨
            byteValues user.engineBytes = byteValues nptr.engineBytes ∧
              (user.name.strlen < nptr.name.strlen ∨ user.name.strlen = nptr.name.strlen ∧
                byteValues user.name.chars < byteValues nptr.name.chars))) := by
  simp only [UsmUser.order, Prod.Lex.toLex_lt_toLex]

theorem engineIDLen_of_null (null : user.engineID = none) : user.engineIDLen = 0 := by
  simp [UsmUser.engineIDLen, UsmUser.engineBytes, null]

theorem usmAddVerdict_of_lt (lt : user.order < nptr.order) : usmAddVerdict nptr user =
    .insertHere := by
  rcases order_lt_iff.mp lt with less | ⟨len_eq, less | ⟨isSome_eq, less | ⟨bytes_eq, less⟩⟩⟩
  · rw [usmAddVerdict, if_pos less]
  · have notLess : ¬ user.engineIDLen < nptr.engineIDLen := len_eq ▸ lt_irrefl _
    have nulls : user.engineID = none ∧ nptr.engineID ≠ none := by
      rcases Bool.lt_iff.mp less with ⟨userNull, nptrSome⟩
      exact ⟨Option.isNone_iff_eq_none.mp (by simpa using userNull),
        Option.isSome_iff_ne_none.mp nptrSome⟩
    rw [usmAddVerdict, if_neg notLess, if_pos nulls]
  · have bytes_ne : nptr.engineBytes ≠ user.engineBytes := by
      intro same
      rw [same] at less
      exact lt_irrefl _ less
    have isSome : nptr.engineID ≠ none ∧ user.engineID ≠ none := by
      cases userID : user.engineID <;> cases nptrID : nptr.engineID <;>
        simp_all [UsmUser.engineBytes]
    rw [usmAddVerdict_of_ne len_eq.symm isSome.1 isSome.2 bytes_ne, if_pos less]
  · have alike : nptr.engineID = none ↔ user.engineID = none := by
      cases userID : user.engineID <;> cases nptrID : nptr.engineID <;> simp_all
    rw [usmAddVerdict_of_sameEngineID len_eq.symm alike (byteValues_inj.mp bytes_eq).symm]
    rcases less with shorter | ⟨strlen_eq, less⟩
    · rw [if_pos shorter]
    · have notShorter : ¬ user.name.strlen < nptr.name.strlen := strlen_eq ▸ lt_irrefl _
      rw [if_neg notShorter, if_pos ⟨strlen_eq.symm, lexCompare_pos_iff.mpr less⟩]

theorem usmAddVerdict_self : usmAddVerdict user user = .replaceEntry := by
  rw [usmAddVerdict_of_sameEngineID rfl Iff.rfl rfl]
  simp [strcmp]

theorem usmAddVerdict_of_gt (gt : nptr.order < user.order) : usmAddVerdict nptr user = .goOn := by
  rcases order_lt_iff.mp gt with less | ⟨len_eq, less | ⟨isSome_eq, less | ⟨bytes_eq, less⟩⟩⟩
  · have notLess : ¬ user.engineIDLen < nptr.engineIDLen := not_lt_of_gt less
    have userSome : user.engineID ≠ none := by
      intro null
      rw [engineIDLen_of_null null] at less
      exact Nat.not_lt_zero _ less
    simp [usmAddVerdict, notLess, userSome, ne_of_lt less]
  · have nulls : nptr.engineID = none ∧ user.engineID ≠ none := by
      rcases Bool.lt_iff.mp less with ⟨nptrNull, userSome⟩
      exact ⟨Option.isNone_iff_eq_none.mp (by simpa using nptrNull),
        Option.isSome_iff_ne_none.mp userSome⟩
    simp [usmAddVerdict, len_eq, nulls.1, nulls.2]
  · have bytes_ne : nptr.engineBytes ≠ user.engineBytes := by
      intro same
      rw [same] at less
      exact lt_irrefl _ less
    have isSome : nptr.engineID ≠ none ∧ user.engineID ≠ none := by
      cases userID : user.engineID <;> cases nptrID : nptr.engineID <;>
        simp_all [UsmUser.engineBytes]
    rw [usmAddVerdict_of_ne len_eq isSome.1 isSome.2 bytes_ne, if_neg (not_lt_of_gt less)]
  · have alike : nptr.engineID = none ↔ user.engineID = none := by
      cases userID : user.engineID <;> cases nptrID : nptr.engineID <;> simp_all
    rw [usmAddVerdict_of_sameEngineID len_eq alike (byteValues_inj.mp bytes_eq)]
    rcases less with shorter | ⟨strlen_eq, less⟩
    · have notShorter : ¬ user.name.strlen < nptr.name.strlen := not_lt_of_gt shorter
      simp [notShorter, ne_of_lt shorter]
    · have neg : strcmp nptr.name user.name < 0 := lexCompare_neg_iff.mpr less
      simp [strlen_eq, not_lt_of_gt neg, ne_of_lt neg]

end Verdict

end NetSnmp
