import Cess.FileBank.Quota

/-!
# The file registry

The calls and helpers of `lib.rs` that write `File`, `UserHoldFileList`, `FillerMap` and
`InvalidFile`: `upload_declaration`, `upload` with `replace_file`, `upload_filler`,
`delete_file` with `clear_user_file`, and the `RandomFileList` functions other pallets call
(`delete_filler`, `clear_file`, `add_invalid_file`, `delete_miner_all_filler`).

The loops of the source are structural recursions over the list they walk: the owner search
of `clear_user_file` (`ownerIndex`), the filler walk of `replace_file` (`replaceLoop`), the
insertions of `upload_filler` (`insertFillers`). `replace_file` walks the miner's fillers as
they stood when the loop began: it only ever removes the entry it is visiting, which leaves
the iteration of the rest unchanged.
-/

set_option autoImplicit false

namespace Cess.FileBank

/-- The width of `usize` in the runtime (wasm32). -/
def usizeBits : Nat := 32

/-- `vec_to_bound`. -/
def vecToBound {α : Type} (env : Env) (param : List α) : Dispatch (List α) :=
  okOr (tryInto env.stringLimit param) .boundedVecError

/-- `Vec::remove`: panics past the end. -/
def removeAt {α : Type} (l : List α) (index : Nat) : Dispatch (List α) :=
  if index < l.length then pure (l.eraseIdx index) else EStateM.throw .panic

/-- `add_user_hold_fileslice`. -/
def addUserHoldFileslice (env : Env) (user : AccountId) (fileHashBound : Bytes)
    (fileSize : Nat) : Dispatch Unit :=
  (holdSlot user).tryMutate fun v =>
    okOr (tryPush env.itemLimit v ⟨fileHashBound, fileSize⟩) .storageLimitReached

/-- `add_invalid_file`: queue a hash for a miner to delete. -/
def addInvalidFile (env : Env) (minerAcc : AccountId) (fileHash : Bytes) : Dispatch Unit :=
  (invalidSlot minerAcc).tryMutate fun o => do
    let h ← okOr (tryInto env.stringLimit fileHash) .boundedVecError
    okOr (tryPush env.stringLimit o h) .storageLimitReached

/-- `delete_filler`. -/
def deleteFiller (env : Env) (minerAcc : AccountId) (fillerId : Bytes) : Dispatch Unit := do
  let fillerBoud ← okOr (tryInto env.stringLimit fillerId) .boundedVecError
  ensure ((← (fillerSlot minerAcc fillerBoud).get).isSome) .fileNonExistent
  (fillerSlot minerAcc fillerBoud).put none

/-- `delete_miner_all_filler`. -/
def deleteMinerAllFiller (minerAcc : AccountId) : Dispatch Unit :=
  update fun s => { s with fillerMap := s.fillerMap.removePrefix minerAcc }

/-- `clear_file`: remove a file's record, whoever owns it. -/
def clearFile (env : Env) (fileHash : Bytes) : Dispatch Unit := do
  let fileHashBounded ← okOr (tryInto env.stringLimit fileHash) .boundedVecError
  ensure ((← (fileSlot fileHashBounded).get).isSome) .fileNonExistent
  (fileSlot fileHashBounded).put none

/-! ## Commit and filler replacement -/

/-- The loop of `replace_file`: walk the miner's filler ids, collecting and deleting each
until `replace_num` are done. `counter` is a `u128`, the id list a `BoundedList`. -/
def replaceLoop (env : Env) (minerAcc : AccountId) (replaceNum : Nat) :
    List Bytes → Nat → List Bytes → Dispatch (List Bytes)
  | [], _, fillerIdList => pure fillerIdList
  | fillerId :: rest, counter, fillerIdList =>
    if counter = replaceNum then pure fillerIdList
    else do
      let fillerIdList ← okOr (tryPush env.stringLimit fillerIdList fillerId)
        .storageLimitReached
      let counter ← okOr (checkedAdd 128 counter 1) .overflow
      deleteFiller env minerAcc fillerId
      replaceLoop env minerAcc replaceNum rest counter fillerIdList

/-- The closure `replace_file` hands to `InvalidFile::try_mutate`: push every id. -/
def pushAll (limit : Nat) (o : List Bytes) : List Bytes → Option (List Bytes)
  | [] => some o
  | h :: rest => (tryPush limit o h).bind (pushAll limit · rest)

/-- `replace_file`: after a file of `file_size` bytes is committed to a miner, retire
`file_size / 8 / M_BYTE + 1` of its fillers and queue their ids for deletion. -/
def replaceFile (env : Env) (minerAcc : AccountId) (fileSize : Nat) : Dispatch Unit := do
  external (.addSpace minerAcc fileSize) (env.addSpace minerAcc fileSize)
  let (power, space) ← lift (env.getPowerAndSpace minerAcc)
  (if power > space then ensure (¬ power - space < fileSize) .minerPowerInsufficient
    else fail .overflow)
  let replaceNum ← okOr ((checkedDiv fileSize 8).bind (checkedDiv · mByte) |>.bind
    (checkedAdd 128 · 1)) .overflow
  let fillers ← read fun s => s.fillerMap.iterPrefix minerAcc
  let fillerIdList ← replaceLoop env minerAcc replaceNum (fillers.map Prod.fst) 0 []
  (invalidSlot minerAcc).tryMutate fun o =>
    okOr (pushAll env.stringLimit o fillerIdList) .storageLimitReached

/-- The closure `upload_declaration` hands to `File::try_mutate` for a declared file: charge
the sender the file's size, index it for the sender, and append the sender and the name. -/
def addOwner (env : Env) (sender : AccountId) (fileHashBound fileNameBound : Bytes)
    (sOpt : Option FileInfo) : Dispatch (Option FileInfo) := do
  let s ← okOr sOpt .fileNonExistent
  ensure (sender ∉ s.user) .declarated
  updateUserSpace sender 1 s.fileSize
  addUserHoldFileslice env sender fileHashBound s.fileSize
  let user ← okOr (tryPush env.userLimit s.user sender) .storageLimitReached
  let fileName ← okOr (tryPush env.nameLimit s.fileName fileNameBound) .storageLimitReached
  pure (some { s with user := user, fileName := fileName })

/-- `upload_declaration`: declare a file, or join its owners if it is declared already. -/
def uploadDeclaration (env : Env) (origin : Origin) (fileHash fileName : Bytes) :
    Dispatch Unit := do
  let sender ← ensureSigned origin
  let fileHashBound ← okOr (tryInto env.stringLimit fileHash) .overflow
  let fileNameBound ← okOr (tryInto env.stringLimit fileName) .overflow
  if (← (fileSlot fileHashBound).get).isSome then
    (fileSlot fileHashBound).tryMutate (addOwner env sender fileHashBound fileNameBound)
  else do
    let user ← okOr (tryInto env.userLimit [sender]) .boundedVecError
    let fileName ← okOr (tryInto env.nameLimit [fileNameBound]) .boundedVecError
    let fileState ← okOr (tryInto env.stringLimit pendingTag) .boundedVecError
    (fileSlot fileHashBound).put (some
      { fileSize := 0, blockNum := 0, scanSize := 0, segmentSize := 0, minerAcc := sender,
        minerId := 0, minerIp := [], user := user, fileName := fileName,
        fileState := fileState })

/-- The closure `upload` hands to `File::try_mutate`: commit the file's layout and miner. -/
def commitFile (env : Env) (fileSize blockNum scanSize segmentSize : Nat)
    (minerAcc : AccountId) (minerId : Nat) (minerIp : Bytes) (user : AccountId)
    (sOpt : Option FileInfo) : Dispatch (Option FileInfo) := do
  let s ← unwrap sOpt
  ensure (user ∈ s.user) .userNotDeclared
  ensure (s.fileState ≠ activeTag) .fileExistent
  let minerIp ← okOr (tryInto env.stringLimit minerIp) .boundedVecError
  let fileState ← okOr (tryInto env.stringLimit activeTag) .boundedVecError
  pure (some { s with
    fileSize := fileSize, blockNum := blockNum, scanSize := scanSize,
    segmentSize := segmentSize, minerAcc := minerAcc, minerId := minerId, minerIp := minerIp,
    fileState := fileState })

/-- `upload`: a coordinator commits a declared file for one of its owners. -/
def upload (env : Env) (origin : Origin) (fileHash : Bytes)
    (fileSize blockNum scanSize segmentSize : Nat) (minerAcc : AccountId) (minerId : Nat)
    (minerIp : Bytes) (user : AccountId) : Dispatch Unit := do
  let sender ← ensureSigned origin
  ensure (env.containsScheduler sender) .scheduleNonExistent
  let fileHashBounded ← okOr (tryInto env.stringLimit fileHash) .boundedVecError
  ensure ((← (fileSlot fileHashBounded).get).isSome) .fileNonExistent
  updateUserSpace user 1 fileSize
  (fileSlot fileHashBounded).tryMutate
    (commitFile env fileSize blockNum scanSize segmentSize minerAcc minerId minerIp user)
  addUserHoldFileslice env user fileHashBounded fileSize
  replaceFile env minerAcc fileSize

/-- The insertions of `upload_filler`, one filler after the other. -/
def insertFillers (miner : AccountId) : List FillerInfo → Dispatch Unit
  | [] => pure ()
  | i :: rest => do
    ensure (¬ ((← (fillerSlot miner i.fillerId).get).isSome)) .fileExistent
    (fillerSlot miner i.fillerId).put (some i)
    insertFillers miner rest

/-- `upload_filler`: a coordinator stores at most ten fillers for a miner. -/
def uploadFiller (env : Env) (origin : Origin) (miner : AccountId)
    (fillerList : List FillerInfo) : Dispatch Unit := do
  let sender ← ensureSigned origin
  ensure (¬ fillerList.length > 10) .lengthExceedsLimit
  ensure (env.containsScheduler sender) .scheduleNonExistent
  let minerState ← lift (env.getMinerState miner)
  ensure (minerState = positiveTag) .notQualified
  insertFillers miner fillerList
  let power ← okOr ((checkedMul 128 mByte 8).bind (checkedMul 128 · fillerList.length))
    .overflow
  external (.addPower miner power) (env.addPower miner power)

/-! ## Deletion -/

/-- The owner search of `clear_user_file`: the index of `user`, counted in a `usize`; the
length of the list when `user` is absent. -/
def ownerIndex (user : AccountId) : List AccountId → Nat → Dispatch Nat
  | [], index => pure index
  | acc :: rest, index =>
    if acc = user then pure index
    else do
      let index ← okOr (checkedAdd usizeBits index 1) .overflow
      ownerIndex user rest index

/-- The closure `clear_user_file` hands to `File::try_mutate` when other owners remain:
remove `user` and the name at the same index. -/
def removeOwner (user : AccountId) (sOpt : Option FileInfo) : Dispatch (Option FileInfo) := do
  let s ← unwrap sOpt
  let index ← ownerIndex user s.user 0
  let user ← removeAt s.user index
  let fileName ← removeAt s.fileName index
  pure (some { s with user, fileName })

/-- `clear_user_file`: `user` gives up a file; the last owner's departure deletes it. -/
def clearUserFile (env : Env) (fileHash : Bytes) (user : AccountId) : Dispatch Unit := do
  let file ← unwrap (← (fileSlot fileHash).get)
  ensure (user ∈ file.user) .notOwner
  updateUserSpace user 2 file.fileSize
  (if file.user.length > 1 then (fileSlot fileHash).tryMutate (removeOwner user)
    else do
      (fileSlot fileHash).put none
      addInvalidFile env file.minerAcc fileHash
      external (.subPower file.minerAcc file.fileSize) (env.subPower file.minerAcc file.fileSize)
      external (.subSpace file.minerAcc file.fileSize) (env.subSpace file.minerAcc file.fileSize))
  (holdSlot user).tryMutate fun s => pure (s.filter (·.fileHash ≠ fileHash))

/-- `delete_file`. -/
def deleteFile (env : Env) (origin : Origin) (fileid : Bytes) : Dispatch Unit := do
  let sender ← ensureSigned origin
  let boundedFileid ← vecToBound env fileid
  ensure ((← (fileSlot boundedFileid).get).isSome) .fileNonExistent
  clearUserFile env boundedFileid sender

/-- `clear_expired_file`: clear every file an account holds. `try_get` fails on a key that
was never written. -/
def clearExpiredFile (env : Env) (acc : AccountId) : Dispatch Unit := do
  let fileList ← okOr (← read fun s => s.userHoldFileList acc) .overflow
  fileList.forM fun v => clearUserFile env v.fileHash acc

/-! ## The miners' calls -/

/-- `clear_invalid_file`: a miner reports a queued hash deleted. -/
def clearInvalidFile (env : Env) (origin : Origin) (fileHash : Bytes) : Dispatch Unit := do
  let sender ← ensureSigned origin
  let boundedString ← okOr (tryInto env.stringLimit fileHash) .boundedVecError
  (invalidSlot sender).tryMutate fun o => pure (o.filter (· ≠ boundedString))

/-- `clear_all_filler`: an exiting miner drops its fillers. -/
def clearAllFiller (env : Env) (origin : Origin) : Dispatch Unit := do
  let sender ← ensureSigned origin
  let state ← lift (env.getMinerState sender)
  ensure (state = exitTag) .notQualified
  deleteMinerAllFiller sender

/-- `add_member`. -/
def addMember (env : Env) (origin : Origin) (acc : AccountId) : Dispatch Unit := do
  ensureRoot origin
  ensure (acc ∉ (← membersSlot.get)) .alreadyExist
  membersSlot.tryMutate fun o => okOr (tryPush env.stringLimit o acc) .storageLimitReached

/-- `del_member`. -/
def delMember (origin : Origin) (acc : AccountId) : Dispatch Unit := do
  ensureRoot origin
  membersSlot.tryMutate fun o => pure (o.filter (· ≠ acc))

/-- `contains_member`. -/
def containsMember (s : Store) (acc : AccountId) : Bool := decide (acc ∈ s.members)

end Cess.FileBank
