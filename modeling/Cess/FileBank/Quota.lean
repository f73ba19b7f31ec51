import Cess.FileBank.Dispatch

/-!
# The quota ledger

`add_puchased_package`, `update_user_space`, `get_price` and `buy_package`: an account's
purchased space, charged when a file is registered and refunded when it is deleted.

`update_user_space` takes an operation code; the closure each branch hands to `try_mutate`
is named here (`uploadSpace`, `deleteSpace`) so that laws can speak of it, and the function
itself dispatches on the code exactly as the source does.
-/

set_option autoImplicit false

namespace Cess.FileBank

/-- `add_puchased_package`: a fresh record, written over any record the account had. The
month count is a `u32`, the block number a `u32`. -/
def addPuchasedPackage (env : Env) (acc : AccountId) (space month packageType : Nat) :
    Dispatch Unit := do
  let now := env.blockNumber
  let surBlock ← okOr ((checkedMul 32 month 30).bind (checkedMul 32 · 86400) |>.bind
    (checkedDiv · 3)) .overflow
  let deadline ← okOr (checkedAdd 32 now surBlock) .overflow
  let state ← okOr (tryInto env.stringLimit normalTag) .boundedVecError
  (packageSlot acc).put (some
    { space, usedSpace := 0, remainingSpace := 0, tenancy := month, packageType,
      start := now, deadline, state })

/-- The closure of `update_user_space`'s operation 1 ("upload files"). Every quantity is a
`u128`; `s.space - s.used_space` is the unchecked difference. -/
def uploadSpace (size : Nat) (sOpt : Option PackageDetails) :
    Dispatch (Option PackageDetails) := do
  let s ← okOr sOpt .notPurchasedPackage
  ensure (s.state ≠ frozenTag) .leaseFreeze
  ensure (¬ size > wrappingSub 128 s.space s.usedSpace) .insufficientStorage
  let usedSpace ← okOr (checkedAdd 128 s.usedSpace size) .overflow
  let remainingSpace ← okOr (checkedSub s.remainingSpace size) .overflow
  pure (some { s with usedSpace, remainingSpace })

/-- The closure of `update_user_space`'s operation 2 ("delete file"). -/
def deleteSpace (size : Nat) (sOpt : Option PackageDetails) :
    Dispatch (Option PackageDetails) := do
  let s ← unwrap sOpt
  let usedSpace ← okOr (checkedSub s.usedSpace size) .overflow
  let remainingSpace ← okOr (checkedSub s.space usedSpace) .overflow
  pure (some { s with usedSpace, remainingSpace })

/-- `update_user_space`; operation 1 uploads files, 2 deletes them. -/
def updateUserSpace (acc : AccountId) (operation size : Nat) : Dispatch Unit :=
  match operation with
  | 1 => (packageSlot acc).tryMutate (uploadSpace size)
  | 2 => (packageSlot acc).tryMutate (deleteSpace size)
  | _ => fail .wrongOperation

/-- `get_price`: the unit price of a purchase, inversely proportional to the network's
available space. -/
def getPrice (env : Env) (buySpace : Nat) : Dispatch Nat := do
  let totalSpace ← lift env.getSpace
  ensure (totalSpace ≠ 0) .isZero
  okOr ((checkedMul 128 buySpace 1000000000000).bind (checkedMul 128 · 10000) |>.bind
    (checkedDiv · totalSpace) |>.bind (checkedAdd 128 · 1000000000000000)) .overflow

/-- The `match package_type` of `buy_package`: the space, the unit price and the months of
each package type. Type 4 grants one TiB at the price of five. -/
def packageTerms (env : Env) (packageType count : Nat) : Dispatch (Nat × Nat × Nat) :=
  match packageType with
  | 1 => pure (10 * gByte, 0, 1)
  | 2 => do pure (500 * gByte, ← getPrice env (500 * gByte), 1)
  | 3 => do pure (tByte, ← getPrice env tByte, 1)
  | 4 => do pure (tByte, ← getPrice env (5 * tByte), 1)
  | 5 => do
    ensure (¬ count < 5) .wrongOperation
    pure (wrappingMul 128 count tByte, ← getPrice env (wrappingMul 128 count tByte), 1)
  | _ => fail .wrongOperation

/-- `buy_package`. The first check is the source's `ensure!(contains_key(&sender), ..)`:
it lets the call through only for an account that already has a package. `BalanceOf` is the
runtime's `u128`, so the final `try_into` cannot fail. -/
def buyPackage (env : Env) (origin : Origin) (packageType count : Nat) : Dispatch Unit := do
  let sender ← ensureSigned origin
  ensure ((← (packageSlot sender).get).isSome) .purchasedPackage
  let (space, mUnitPrice, month) ← packageTerms env packageType count
  addPuchasedPackage env sender space month packageType
  let gUnitPrice ← okOr (checkedDiv mUnitPrice gByte) .overflow
  let price ← okOr ((checkedDiv space gByte).bind (checkedMul 128 · gUnitPrice)) .overflow
  external (.transfer sender env.palletAccount price) (env.transfer sender env.palletAccount price)

end Cess.FileBank
