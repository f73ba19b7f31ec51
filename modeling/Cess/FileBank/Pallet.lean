import Cess.FileBank.Registry

/-!
# The pallet as a state machine

A `Call` is a dispatchable of the file bank or a `RandomFileList` function another pallet
calls. Calls run one at a time, each in an `Env` of its own: the collaborators may answer
anything, and differently at every call.

`Call.next` is the store a call leaves. A call that returns an error leaves what it wrote
before the error, since nothing is rolled back; a call that panics aborts its extrinsic and
leaves the store as it was. `Reachable` is every store a run of calls from empty storage
can reach.

`on_initialize` is not modelled: its body is unfinished in the source and does not compile.
-/

set_option autoImplicit false

namespace Cess.FileBank

/-- A call into the file bank. -/
inductive Call where
  | uploadDeclaration (origin : Origin) (fileHash fileName : Bytes)
  | upload (origin : Origin) (fileHash : Bytes) (fileSize blockNum scanSize segmentSize : Nat)
      (minerAcc : AccountId) (minerId : Nat) (minerIp : Bytes) (user : AccountId)
  | uploadFiller (origin : Origin) (miner : AccountId) (fillerList : List FillerInfo)
  | deleteFile (origin : Origin) (fileid : Bytes)
  | buyPackage (origin : Origin) (packageType count : Nat)
  | clearInvalidFile (origin : Origin) (fileHash : Bytes)
  | addMember (origin : Origin) (acc : AccountId)
  | delMember (origin : Origin) (acc : AccountId)
  | clearAllFiller (origin : Origin)
  | deleteFiller (minerAcc : AccountId) (fillerId : Bytes)
  | deleteMinerAllFiller (minerAcc : AccountId)
  | clearFile (fileHash : Bytes)
  | addInvalidFile (minerAcc : AccountId) (fileHash : Bytes)

/-- The dispatch a call runs. -/
def Call.run (env : Env) : Call → Dispatch Unit
  | .uploadDeclaration o h n => FileBank.uploadDeclaration env o h n
  | .upload o h size block scan segment miner id ip user =>
    FileBank.upload env o h size block scan segment miner id ip user
  | .uploadFiller o miner fillers => FileBank.uploadFiller env o miner fillers
  | .deleteFile o h => FileBank.deleteFile env o h
  | .buyPackage o ty count => FileBank.buyPackage env o ty count
  | .clearInvalidFile o h => FileBank.clearInvalidFile env o h
  | .addMember o acc => FileBank.addMember env o acc
  | .delMember o acc => FileBank.delMember o acc
  | .clearAllFiller o => FileBank.clearAllFiller env o
  | .deleteFiller miner id => FileBank.deleteFiller env miner id
  | .deleteMinerAllFiller miner => FileBank.deleteMinerAllFiller miner
  | .clearFile h => FileBank.clearFile env h
  | .addInvalidFile miner h => FileBank.addInvalidFile env miner h

/-- The store after a call. -/
def Call.next (env : Env) (c : Call) (s : Store) : Store :=
  match c.run env s with
  | .ok _ s' => s'
  | .error (.error _) s' => s'
  | .error .panic _ => s

/-- The stores a run of calls from empty storage reaches. -/
inductive Reachable : Store → Prop
  | empty : Reachable Store.empty
  | step {s : Store} (env : Env) (c : Call) : Reachable s → Reachable (c.next env s)

/-- A predicate every call keeps, whatever its outcome, holds of every store a run from a
store satisfying it reaches. -/
theorem Call.next_of_preserves {P : Store → Prop} (h : ∀ env c, Preserves P (Call.run env c))
    (env : Env) (c : Call) {s : Store} (hs : P s) : P (c.next env s) := by
  unfold Call.next
  have := h env c s hs
  split <;> simp_all [storeOf]

/-- A predicate that holds of empty storage and that every call keeps holds of every
reachable store. -/
theorem Reachable.of_preserves {P : Store → Prop} (h₀ : P Store.empty)
    (h : ∀ env c, Preserves P (Call.run env c)) {s : Store} (hs : Reachable s) : P s := by
  induction hs with
  | empty => exact h₀
  | step env c _ ih => exact Call.next_of_preserves h env c ih

/-- A runtime in which every collaborator accepts: bounds of 64 (8 for the owner lists), the
block number 0, account 9 the only scheduler, every miner positive with id 0 and ample unused
power, and a randomness source that answers its seed. -/
def Env.accepting : Env where
  stringLimit := 64
  itemLimit := 64
  userLimit := 8
  nameLimit := 8
  blockNumber := 0
  palletAccount := 0
  containsScheduler acc := acc = 9
  getMinerState _ := .ok positiveTag
  getMinerId _ := .ok 0
  getPowerAndSpace _ := .ok (2 ^ 64, 0)
  getSpace := .ok tByte
  addPower _ _ := .ok ()
  subPower _ _ := .ok ()
  addSpace _ _ := .ok ()
  subSpace _ _ := .ok ()
  transfer _ _ _ := .ok ()
  random seed := seed

end Cess.FileBank
