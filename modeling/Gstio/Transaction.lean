import Gstio.Objects

/-!
# Gstio.Transaction — the inline members of `transaction.hpp`

`transaction_header::get_ref_blocknum`, `transaction::total_actions` and
`transaction::first_authorizor` are the only members of `transaction.hpp` defined in the header;
the others are declared there and defined elsewhere.  Of an action only its `authorization` list is
read, and of a permission level only its `actor`.

`get_ref_blocknum` reads no field of the header, `ref_block_num` included: it is a function of
`head_blocknum` alone.

* `firstAuthorizor_eq` — the nested loop of `first_authorizor` returns the actor of the first
  permission level of all the actions' authorizations taken in order, and `account_name()` when
  there is none.
-/

namespace Gstio

/-- `permission_level`, of which `first_authorizor` reads the `actor`. -/
structure PermissionLevel where
  actor : Name
deriving DecidableEq, Repr

/-- `action`, of which `first_authorizor` reads the `authorization` list. -/
structure Action where
  authorization : List PermissionLevel
deriving DecidableEq, Repr

/-- `transaction`: its two action lists. -/
structure Transaction where
  contextFreeActions : List Action
  actions : List Action
deriving DecidableEq, Repr

/-! ## The reference block -/

/-- `transaction_header::get_ref_blocknum`, in `uint32_t` (`block_num_type`). -/
def getRefBlocknum (headBlocknum : U32) : U32 :=
  (headBlocknum / 0xffff) * 0xffff + headBlocknum % 0xffff

/-! ## The actions -/

/-- `transaction::total_actions`: the two sizes added, returned as `uint32_t`. -/
def totalActions (t : Transaction) : U32 :=
  toUnsigned 32 (t.contextFreeActions.length + t.actions.length)

/-- `transaction::first_authorizor`. -/
def firstAuthorizor (t : Transaction) : Name := Id.run do
  for a in t.actions do
    for u in a.authorization do
      return u.actor
  return 0

/-- **The first authorizer.**  The inner loop returns at its first element, so the nested loop
skips the actions without authorization and returns the actor of the first permission level of
the concatenated authorization lists; with none, `account_name()`. -/
theorem firstAuthorizor_eq (t : Transaction) :
    firstAuthorizor t = ((t.actions.flatMap Action.authorization).head?.map PermissionLevel.actor).getD 0 := by
  obtain ⟨_, actions⟩ := t
  unfold firstAuthorizor
  induction actions with
  | nil => rfl
  | cons a rest ih =>
    cases h : a.authorization with
    | nil => simpa [List.forIn_cons, h] using ih
    | cons u us => simp [List.forIn_cons, h, Id.run]

end Gstio
