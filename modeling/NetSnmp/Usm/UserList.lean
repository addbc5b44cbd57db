import NetSnmp.CString
import NetSnmp.LinkedList

/-!
# The list of USM users

`usm_add_user`, `usm_remove_user` and `usm_get_user2`: the users are cells of a
doubly linked list that is changed in place.
-/

namespace NetSnmp

/-- The fields of `struct usmUser` by which the list is searched and kept in order.  An engine ID is
`NULL` or points to `engineIDLen` bytes. -/
structure UsmUser where
  engineID : Option (List Byte)
  name : CString
  deriving DecidableEq, Repr

namespace UsmUser

/-- What `engineID` points to. -/
def engineBytes (user : UsmUser) : List Byte := user.engineID.getD []

def engineIDLen (user : UsmUser) : Nat := user.engineBytes.length

end UsmUser

/-- What the insertion loop does at an entry of the list. -/
inductive AddVerdict where
  /-- `break`: the new user goes in front of the entry. -/
  | insertHere
  /-- The entry is an exact match: it is removed and the new user takes its place. -/
  | replaceEntry
  | goOn
  deriving DecidableEq, Repr

/-- Both engine IDs are `NULL`, or both have the same bytes. -/
def sameEngineID (nptr user : UsmUser) : Prop :=
  (nptr.engineID = none ∧ user.engineID = none) ∨
    memcmp nptr.engineBytes user.engineBytes user.engineIDLen = 0

instance (nptr user : UsmUser) : Decidable (sameEngineID nptr user) :=
  inferInstanceAs (Decidable (_ ∨ _))

def usmAddVerdict (nptr user : UsmUser) : AddVerdict :=
  if user.engineIDLen < nptr.engineIDLen then .insertHere
  else if user.engineID = none ∧ nptr.engineID ≠ none then .insertHere
  else if nptr.engineIDLen = user.engineIDLen ∧ nptr.engineID ≠ none ∧ user.engineID ≠ none ∧
      0 < memcmp nptr.engineBytes user.engineBytes user.engineIDLen then .insertHere
  else if ¬ (nptr.engineID = none ∧ user.engineID ≠ none) then
    if nptr.engineIDLen = user.engineIDLen ∧ sameEngineID nptr user ∧
        user.name.strlen < nptr.name.strlen then .insertHere
    else if nptr.engineIDLen = user.engineIDLen ∧ sameEngineID nptr user ∧
        nptr.name.strlen = user.name.strlen ∧ 0 < strcmp nptr.name user.name then .insertHere
    else if nptr.engineIDLen = user.engineIDLen ∧ sameEngineID nptr user ∧
        nptr.name.strlen = user.name.strlen ∧ strcmp nptr.name user.name = 0 then .replaceEntry
    else .goOn
  else .goOn

/-- The users in memory, the links between them, `userList` and `noNameUser`. -/
structure UsmState where
  user : Addr → UsmUser
  links : Links
  userList : Option Addr
  noNameUser : Option Addr

/-- The insertion loop, with a bound on the number of its passes.  It ends with the links, `pptr`
and `nptr`. -/
def usmAddUserLoop (users : Addr → UsmUser) (links : Links) (user : UsmUser) :
    (passes : Nat) → (nptr pptr : Option Addr) → Option (Links × Option Addr × Option Addr)
  | 0, _, _ => none
  | _ + 1, none, pptr => some (links, pptr, none)
  | passes + 1, some nptr, pptr =>
      match usmAddVerdict (users nptr) user with
      | .insertHere => some (links, pptr, some nptr)
      | .replaceEntry =>
          -- `optr` is `nptr`: it is taken out of the list and freed
          let behind := links.next nptr
          let links := links.bypass pptr behind
          some ((links.setNext nptr none).setPrev nptr none, pptr, behind)
      | .goOn => usmAddUserLoop users links user passes (links.next nptr) (some nptr)

/-- `usm_add_user_to_list`: the links and the head of the list. -/
def usmAddUserToList (passes : Nat) (state : UsmState) (user : Addr) (puserList : Option Addr) :
    Option (Links × Addr) := do
  let (links, pptr, nptr) ←
    usmAddUserLoop state.user state.links (state.user user) passes puserList none
  let links := links.insertBetween pptr user nptr
  let head ← links.rewind passes user
  return (links, head)

def usmAddUser (passes : Nat) (state : UsmState) (user : Addr) : Option UsmState := do
  let (links, head) ← usmAddUserToList passes state user state.userList
  return { state with links := links, userList := some head }

/-- `for (...; nptr != NULL; pptr = nptr, nptr = nptr->next) if (nptr == user) break;` -/
def usmFindUserLoop (links : Links) (user : Addr) :
    (passes : Nat) → (nptr pptr : Option Addr) → Option (Option Addr × Option Addr)
  | 0, _, _ => none
  | _ + 1, none, pptr => some (none, pptr)
  | passes + 1, some nptr, pptr =>
      if nptr = user then some (some nptr, pptr)
      else usmFindUserLoop links user passes (links.next nptr) (some nptr)

/-- `usm_remove_usmUser_from_list` on `userList`; `false` is `SNMPERR_USM_UNKNOWNSECURITYNAME`. -/
def usmRemoveUser (passes : Nat) (state : UsmState) (user : Addr) : Option (UsmState × Bool) := do
  let (nptr, pptr) ← usmFindUserLoop state.links user passes state.userList none
  match nptr with
  | none => return (state, false)
  | some nptr =>
      let links := state.links.bypass pptr (state.links.next nptr)
      let userList := if some nptr = state.userList then links.next nptr else state.userList
      return ({ state with links := links, userList := userList }, true)

def usmMatches (entry : UsmUser) (engineID : Option (List Byte)) (name : List Byte) : Prop :=
  (entry.name.strlen = name.length ∧ memcmp entry.name.chars name name.length = 0) ∧
    entry.engineIDLen = (engineID.getD []).length ∧
      ((entry.engineID = none ∧ engineID = none) ∨
        (entry.engineID ≠ none ∧ engineID ≠ none ∧
          memcmp entry.engineBytes (engineID.getD []) (engineID.getD []).length = 0))

instance (entry : UsmUser) (engineID : Option (List Byte)) (name : List Byte) :
    Decidable (usmMatches entry engineID name) :=
  inferInstanceAs (Decidable ((_ ∧ _) ∧ _ ∧ (_ ∨ _)))

/-- The loop of `usm_get_user_from_list`; the outer `none` is the bound on the number of passes. -/
def usmGetUserLoop (state : UsmState) (engineID : Option (List Byte)) (name : List Byte) :
    (passes : Nat) → (ptr : Option Addr) → Option (Option Addr)
  | 0, _ => none
  | _ + 1, none => some none
  | passes + 1, some ptr =>
      if usmMatches (state.user ptr) engineID name then some (some ptr)
      else usmGetUserLoop state engineID name passes (state.links.next ptr)

/-- `usm_get_user2` for the name of `name.length` bytes with `behind` after it in memory. -/
def usmGetUser2 (passes : Nat) (state : UsmState) (engineID : Option (List Byte))
    (name behind : List Byte) : Option (Option Addr) := do
  match ← usmGetUserLoop state engineID name passes state.userList with
  | some ptr => return some ptr
  | none =>
      -- the user for the discovery of engine IDs
      if CString.ofBuffer (name ++ behind) = ⟨[], CString.noNul_nil⟩ then return state.noNameUser
      else return none

end NetSnmp
