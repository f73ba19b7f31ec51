import Cess.FileBank.Pallet

/-!
# Footprints: what each call can write

Every law about the pallet's storage reduces to one question: what can a call write, and
under which guard does it write it? This module answers it once.

The writes are sorted into families (`FileWrites`, `PkgWrites`, `FillerWrites`,
`AuxWrites`, and the two in-place list edits `MembersWrites` and `AckWrites`, which only
`add_member`, `del_member` and `clear_invalid_file` make); the writes of `update_user_space`
are a part of `PkgWrites` of their own (`UsageWrites`). Each field of a family is one kind
of write the source makes, stated with the guard the source has checked by the time it
writes: a new `File` record only where the
hash has none, an owner appended only when absent, a file committed only when not yet
active, a quota credit only within the space left, and so on.

**The law** (`Call.run_steps`): for any relation `R` that chains (`Chain`) and admits
every write of the families, every run of every call, whatever its outcome, relates
the store it starts from to the store it leaves by `R`. An invariant `P` is the relation
`P s → P s'`, so a law that some predicate holds of every reachable store needs only one
short proof per kind of write (`Reachable.of_writes`). Every call but the three list edits
needs only the first four families (`Call.run_steps_of_files`), so a frame of `Members` or
of a miner's queue is proved for all of them at once.

Each helper of `lib.rs` has its own footprint lemma, which asks only for the families it
writes; frames follow by instantiating `R` with "this part is unchanged". Each closure
handed to `try_mutate` has a success lemma (`*_eq_ok`) that recovers the guard.
-/

set_option autoImplicit false

namespace Cess.FileBank

/-! ## Write families -/

/-- A relation that runs of writes compose by. -/
structure Chain (R : Store → Store → Prop) : Prop where
  refl : ∀ s, R s s
  trans : ∀ a b c, R a b → R b c → R a c

/-- The writes to `File`, with the guards the source checks first. -/
structure FileWrites (R : Store → Store → Prop) : Prop where
  /-- `upload_declaration` of a new hash: a pending record owned by the sender. -/
  declare : ∀ s h (sender : AccountId) (name : Bytes), s.file.get h = none →
    R s ((fileSlot h).write (some
      { fileSize := 0, blockNum := 0, scanSize := 0, segmentSize := 0, minerAcc := sender,
        minerId := 0, minerIp := [], user := [sender], fileName := [name],
        fileState := pendingTag }) s)
  /-- `upload_declaration` of a declared hash: the sender and the name appended. -/
  addOwner : ∀ s h f (sender : AccountId) (name : Bytes), s.file.get h = some f →
    sender ∉ f.user →
    R s ((fileSlot h).write (some
      { f with user := f.user ++ [sender], fileName := f.fileName ++ [name] }) s)
  /-- `upload`: an owner's file committed. -/
  commit : ∀ s h f (user : AccountId) (fileSize blockNum scanSize segmentSize : Nat)
    (minerAcc : AccountId) (minerId : Nat) (minerIp : Bytes), s.file.get h = some f →
    user ∈ f.user → f.fileState ≠ activeTag →
    R s ((fileSlot h).write (some
      { f with
        fileSize := fileSize, blockNum := blockNum, scanSize := scanSize,
        segmentSize := segmentSize, minerAcc := minerAcc, minerId := minerId,
        minerIp := minerIp, fileState := activeTag }) s)
  /-- `clear_user_file` with other owners left: the owner and its name removed. -/
  removeOwner : ∀ s h f (user : AccountId), s.file.get h = some f → user ∈ f.user →
    1 < f.user.length → f.user.indexOf user < f.fileName.length →
    R s ((fileSlot h).write (some
      { f with
        user := f.user.eraseIdx (f.user.indexOf user),
        fileName := f.fileName.eraseIdx (f.user.indexOf user) }) s)
  /-- `clear_user_file` of the last owner, and `clear_file`. -/
  remove : ∀ s h, R s ((fileSlot h).write none s)

/-- The writes of `update_user_space` to `PurchasedPackage`. -/
structure UsageWrites (R : Store → Store → Prop) : Prop where
  /-- Operation 1, "upload files". -/
  credit : ∀ s acc p (size : Nat), s.purchasedPackage acc = some p → p.state ≠ frozenTag →
    ¬ size > wrappingSub 128 p.space p.usedSpace → p.usedSpace + size < 2 ^ 128 →
    size ≤ p.remainingSpace →
    R s ((packageSlot acc).write (some
      { p with
        usedSpace := p.usedSpace + size, remainingSpace := p.remainingSpace - size }) s)
  /-- Operation 2, "delete file". -/
  debit : ∀ s acc p (size : Nat), s.purchasedPackage acc = some p → size ≤ p.usedSpace →
    p.usedSpace - size ≤ p.space →
    R s ((packageSlot acc).write (some
      { p with
        usedSpace := p.usedSpace - size, remainingSpace := p.space - (p.usedSpace - size) }) s)

/-- The writes to `PurchasedPackage`. -/
structure PkgWrites (R : Store → Store → Prop) extends UsageWrites R : Prop where
  /-- `buy_package` through `add_puchased_package`: a fresh record of a `u128` space, over
  the record the account must already have. -/
  purchase : ∀ s acc (space month packageType start deadline : Nat),
    s.purchasedPackage acc ≠ none → space < 2 ^ 128 →
    R s ((packageSlot acc).write (some
      { space := space, usedSpace := 0, remainingSpace := 0, tenancy := month,
        packageType := packageType, start := start, deadline := deadline,
        state := normalTag }) s)

/-- The writes to `FillerMap`. -/
structure FillerWrites (R : Store → Store → Prop) : Prop where
  /-- `upload_filler`: a filler stored under its own id, where that key was free. -/
  insert : ∀ s miner (i : FillerInfo), s.fillerMap.get (miner, i.fillerId) = none →
    R s ((fillerSlot miner i.fillerId).write (some i) s)
  /-- `delete_filler`. -/
  remove : ∀ s miner id, R s ((fillerSlot miner id).write none s)
  /-- `remove_prefix`. -/
  removePrefix : ∀ s miner, R s { s with fillerMap := s.fillerMap.removePrefix miner }

/-- The other writes of the file calls: held-file indexes, collaborator calls, and the miners'
`InvalidFile` queues, which these calls only extend. -/
structure AuxWrites (R : Store → Store → Prop) : Prop where
  hold : ∀ s acc l, R s ((holdSlot acc).write l s)
  /-- `add_invalid_file` and `replace_file`: hashes pushed at the end of a miner's queue. -/
  invalid : ∀ s acc l, R s ((invalidSlot acc).write (s.invalidFile acc ++ l) s)
  calls : ∀ s c, R s { s with calls := s.calls ++ [c] }

/-- Root's writes of `Members` (`add_member`, `del_member`). -/
structure MembersWrites (R : Store → Store → Prop) : Prop where
  members : ∀ s l, R s (membersSlot.write l s)

/-- A miner's acknowledgement (`clear_invalid_file`): every copy of a hash leaves the
signer's own queue. -/
structure AckWrites (R : Store → Store → Prop) : Prop where
  acknowledge : ∀ s acc (fileHash : Bytes),
    R s ((invalidSlot acc).write ((s.invalidFile acc).filter (· ≠ fileHash)) s)

/-! ## Frames -/

/-- The `File` map is unchanged. -/
def FileKept (s s' : Store) : Prop := s'.file = s.file

theorem Chain.and {R R' : Store → Store → Prop} (h : Chain R) (h' : Chain R') :
    Chain (fun s s' => R s s' ∧ R' s s') :=
  ⟨fun s => ⟨h.refl s, h'.refl s⟩, fun _ _ _ h₁ h₂ => ⟨h.trans _ _ _ h₁.1 h₂.1, h'.trans _ _ _ h₁.2 h₂.2⟩⟩

theorem UsageWrites.and {R R' : Store → Store → Prop} (h : UsageWrites R) (h' : UsageWrites R') :
    UsageWrites (fun s s' => R s s' ∧ R' s s') :=
  ⟨fun s a p n h₁ h₂ h₃ h₄ h₅ => ⟨h.credit s a p n h₁ h₂ h₃ h₄ h₅, h'.credit s a p n h₁ h₂ h₃ h₄ h₅⟩,
    fun s a p n h₁ h₂ h₃ => ⟨h.debit s a p n h₁ h₂ h₃, h'.debit s a p n h₁ h₂ h₃⟩⟩

theorem chain_fileKept : Chain FileKept :=
  ⟨fun _ => rfl, fun _ _ _ h₁ h₂ => h₂.trans h₁⟩

theorem usageWrites_fileKept : UsageWrites FileKept :=
  ⟨fun _ _ _ _ _ _ _ _ _ => rfl, fun _ _ _ _ _ _ _ => rfl⟩

theorem pkgWrites_fileKept : PkgWrites FileKept :=
  ⟨usageWrites_fileKept, fun _ _ _ _ _ _ _ _ _ => rfl⟩

theorem fillerWrites_fileKept : FillerWrites FileKept :=
  ⟨fun _ _ _ _ => rfl, fun _ _ _ => rfl, fun _ _ => rfl⟩

theorem auxWrites_fileKept : AuxWrites FileKept :=
  ⟨fun _ _ _ => rfl, fun _ _ _ => rfl, fun _ _ => rfl⟩

/-! ## The quota ledger -/

section Quota

variable {R : Store → Store → Prop} {s s' : Store}

theorem uploadSpace_eq_ok {size : Nat} {sOpt v : Option PackageDetails}
    (h : uploadSpace size sOpt s = .ok v s') :
    s' = s ∧ ∃ p, sOpt = some p ∧ p.state ≠ frozenTag ∧
      ¬ size > wrappingSub 128 p.space p.usedSpace ∧ p.usedSpace + size < 2 ^ 128 ∧
      size ≤ p.remainingSpace ∧
      v = some { p with
        usedSpace := p.usedSpace + size, remainingSpace := p.remainingSpace - size } := by
  simp only [uploadSpace, bind_eq_ok, okOr_eq_ok, ensure_eq_ok] at h
  obtain ⟨p, _, ⟨rfl, rfl⟩, _, _, ⟨hf, rfl⟩, _, _, ⟨hi, rfl⟩, h⟩ := h
  simp only [bind_eq_ok, okOr_eq_ok, pure_eq_ok, checkedAdd_eq_some, checkedSub_eq_some] at h
  obtain ⟨_, _, ⟨⟨h₁, rfl⟩, rfl⟩, _, _, ⟨⟨h₂, rfl⟩, rfl⟩, rfl, rfl⟩ := h
  exact ⟨rfl, p, rfl, hf, hi, h₁, h₂, rfl⟩

theorem deleteSpace_eq_ok {size : Nat} {sOpt v : Option PackageDetails}
    (h : deleteSpace size sOpt s = .ok v s') :
    s' = s ∧ ∃ p, sOpt = some p ∧ size ≤ p.usedSpace ∧ p.usedSpace - size ≤ p.space ∧
      v = some { p with
        usedSpace := p.usedSpace - size, remainingSpace := p.space - (p.usedSpace - size) } := by
  simp only [deleteSpace, bind_eq_ok, okOr_eq_ok, unwrap_eq_ok, pure_eq_ok,
    checkedSub_eq_some] at h
  obtain ⟨p, _, ⟨rfl, rfl⟩, _, _, ⟨⟨h₁, rfl⟩, rfl⟩, _, _, ⟨⟨h₂, rfl⟩, rfl⟩, rfl, rfl⟩ := h
  exact ⟨rfl, p, rfl, h₁, h₂, rfl⟩

theorem readOnly_uploadSpace (size : Nat) (sOpt : Option PackageDetails) :
    ReadOnly (uploadSpace size sOpt) := by
  unfold uploadSpace
  exact (readOnly_okOr _ _).bind fun _ => (readOnly_ensure _ _).bind fun _ =>
    (readOnly_ensure _ _).bind fun _ => (readOnly_okOr _ _).bind fun _ =>
    (readOnly_okOr _ _).bind fun _ => readOnly_pure _

theorem readOnly_deleteSpace (size : Nat) (sOpt : Option PackageDetails) :
    ReadOnly (deleteSpace size sOpt) := by
  unfold deleteSpace
  exact (readOnly_unwrap _).bind fun _ => (readOnly_okOr _ _).bind fun _ =>
    (readOnly_okOr _ _).bind fun _ => readOnly_pure _

theorem steps_updateUserSpace (hc : Chain R) (hp : UsageWrites R) (acc : AccountId)
    (operation size : Nat) : Steps R (updateUserSpace acc operation size) := by
  unfold updateUserSpace
  split
  · refine Slot.steps_tryMutate hc.trans (fun v => (readOnly_uploadSpace size v).steps hc.refl) ?_
    intro s v s' h
    obtain ⟨rfl, p, hp₀, hf, hi, h₁, h₂, rfl⟩ := uploadSpace_eq_ok h
    exact hp.credit _ acc p size hp₀ hf hi h₁ h₂
  · refine Slot.steps_tryMutate hc.trans (fun v => (readOnly_deleteSpace size v).steps hc.refl) ?_
    intro s v s' h
    obtain ⟨rfl, p, hp₀, h₁, h₂, rfl⟩ := deleteSpace_eq_ok h
    exact hp.debit _ acc p size hp₀ h₁ h₂
  · exact (readOnly_fail _).steps hc.refl

theorem steps_addPuchasedPackage (hc : Chain R) (hp : PkgWrites R) (env : Env)
    (acc : AccountId) {space : Nat} (month packageType : Nat) (hspace : space < 2 ^ 128) :
    Steps (fun s s' => s.purchasedPackage acc ≠ none → R s s')
      (addPuchasedPackage env acc space month packageType) := by
  unfold addPuchasedPackage
  refine ReadOnly.bind_steps (readOnly_okOr _ _) (fun _ => ?_) fun s _ => hc.refl s
  refine ReadOnly.bind_steps (readOnly_okOr _ _) (fun deadline => ?_) fun s _ => hc.refl s
  refine okOr_bind_steps (fun s _ => hc.refl s) fun state hstate => ?_
  obtain ⟨-, rfl⟩ := tryInto_eq_some.mp hstate
  exact Slot.steps_put fun s hs => hp.purchase s acc space month packageType _ deadline hs hspace

theorem readOnly_getPrice (env : Env) (buySpace : Nat) : ReadOnly (getPrice env buySpace) := by
  unfold getPrice
  exact (readOnly_lift _).bind fun _ => (readOnly_ensure _ _).bind fun _ => readOnly_okOr _ _

theorem readOnly_packageTerms (env : Env) (packageType count : Nat) :
    ReadOnly (packageTerms env packageType count) := by
  unfold packageTerms
  split
  all_goals first
    | exact readOnly_pure _
    | exact readOnly_fail _
    | exact (readOnly_getPrice _ _).bind fun _ => readOnly_pure _
    | exact (readOnly_ensure _ _).bind fun _ =>
        (readOnly_getPrice _ _).bind fun _ => readOnly_pure _

/-- Every package type grants a `u128` space. -/
theorem packageTerms_eq_ok {env : Env} {packageType count : Nat} {t : Nat × Nat × Nat}
    (h : packageTerms env packageType count s = .ok t s') : t.1 < 2 ^ 128 := by
  unfold packageTerms at h
  split at h <;> simp only [bind_eq_ok, pure_eq_ok, ensure_eq_ok, fail_eq_ok] at h
  · obtain ⟨rfl, -⟩ := h; exact (by decide : 10 * gByte < 2 ^ 128)
  · obtain ⟨_, _, -, rfl, -⟩ := h; exact (by decide : 500 * gByte < 2 ^ 128)
  · obtain ⟨_, _, -, rfl, -⟩ := h; exact (by decide : tByte < 2 ^ 128)
  · obtain ⟨_, _, -, rfl, -⟩ := h; exact (by decide : tByte < 2 ^ 128)
  · obtain ⟨_, _, -, _, _, -, rfl, -⟩ := h; exact Nat.mod_lt _ (Nat.two_pow_pos 128)

theorem steps_buyPackage (hc : Chain R) (hp : PkgWrites R) (ha : AuxWrites R) (env : Env)
    (origin : Origin) (packageType count : Nat) :
    Steps R (buyPackage env origin packageType count) := by
  unfold buyPackage
  refine ReadOnly.bind_steps (readOnly_ensureSigned _) (fun sender => ?_) hc.refl
  refine Slot.get_bind_steps fun cur => ensure_bind_steps (fun s _ => hc.refl s) fun hcur => ?_
  refine ReadOnly.bind_steps_of (readOnly_packageTerms _ _ _)
    (fun _ _ _ h => packageTerms_eq_ok h) (fun ⟨_, _, _⟩ hspace => ?_) fun s _ => hc.refl s
  refine Steps.bind_guarded hc.trans ((steps_addPuchasedPackage hc hp _ _ _ _ hspace).mono
    fun s _ h (hs : s.purchasedPackage sender = cur) =>
      h (Option.isSome_iff_ne_none.mp (hs ▸ hcur))) fun _ => ?_
  refine ReadOnly.bind_steps (readOnly_okOr _ _) (fun _ => ?_) hc.refl
  refine ReadOnly.bind_steps (readOnly_okOr _ _) (fun _ => ?_) hc.refl
  exact steps_external hc.trans hc.refl fun s => ha.calls s _

end Quota

/-! ## The registry's helpers -/

section Registry

variable {R : Store → Store → Prop}

theorem steps_addUserHoldFileslice (hc : Chain R) (ha : AuxWrites R) (env : Env)
    (user : AccountId) (fileHashBound : Bytes) (fileSize : Nat) :
    Steps R (addUserHoldFileslice env user fileHashBound fileSize) :=
  Slot.steps_tryMutate hc.trans (fun _ => (readOnly_okOr _ _).steps hc.refl)
    fun _ _ _ _ => ha.hold _ _ _

theorem steps_addInvalidFile (hc : Chain R) (ha : AuxWrites R) (env : Env)
    (minerAcc : AccountId) (fileHash : Bytes) : Steps R (addInvalidFile env minerAcc fileHash) :=
  Slot.steps_tryMutate_readOnly hc.refl
    (fun _ => (readOnly_okOr _ _).bind fun _ => readOnly_okOr _ _) fun s v' h => by
      simp only [bind_eq_ok, okOr_eq_ok, tryInto_eq_some, tryPush_eq_some] at h
      obtain ⟨_, _, ⟨⟨-, rfl⟩, rfl⟩, ⟨-, rfl⟩, -⟩ := h
      exact ha.invalid _ minerAcc _

theorem steps_deleteFiller (hc : Chain R) (hl : FillerWrites R) (env : Env)
    (minerAcc : AccountId) (fillerId : Bytes) : Steps R (deleteFiller env minerAcc fillerId) :=
  ReadOnly.bind_steps (readOnly_okOr _ _) (fun _ => ReadOnly.bind_steps (Slot.readOnly_get _)
    (fun _ => ReadOnly.bind_steps (readOnly_ensure _ _)
      (fun _ => Slot.steps_put fun s => hl.remove s _ _) hc.refl) hc.refl) hc.refl

theorem steps_deleteMinerAllFiller (hl : FillerWrites R) (minerAcc : AccountId) :
    Steps R (deleteMinerAllFiller minerAcc) :=
  steps_update fun s => hl.removePrefix s minerAcc

theorem steps_clearFile (hc : Chain R) (hf : FileWrites R) (env : Env) (fileHash : Bytes) :
    Steps R (clearFile env fileHash) :=
  ReadOnly.bind_steps (readOnly_okOr _ _) (fun _ => ReadOnly.bind_steps (Slot.readOnly_get _)
    (fun _ => ReadOnly.bind_steps (readOnly_ensure _ _)
      (fun _ => Slot.steps_put fun s => hf.remove s _) hc.refl) hc.refl) hc.refl

theorem steps_replaceLoop (hc : Chain R) (hl : FillerWrites R) (env : Env)
    (minerAcc : AccountId) (replaceNum : Nat) (ids : List Bytes) (counter : Nat)
    (fillerIdList : List Bytes) :
    Steps R (replaceLoop env minerAcc replaceNum ids counter fillerIdList) := by
  induction ids generalizing counter fillerIdList with
  | nil => exact (readOnly_pure _).steps hc.refl
  | cons fillerId rest ih =>
    unfold replaceLoop
    refine Steps.ite ((readOnly_pure _).steps hc.refl) ?_
    refine ReadOnly.bind_steps (readOnly_okOr _ _) (fun _ => ?_) hc.refl
    refine ReadOnly.bind_steps (readOnly_okOr _ _) (fun _ => ?_) hc.refl
    exact Steps.bind hc.trans (steps_deleteFiller hc hl _ _ _) fun _ => ih _ _

/-- The closure of `InvalidFile::try_mutate` in `replace_file` appends every id, or fails. -/
theorem pushAll_eq_some {limit : Nat} :
    ∀ {o o' : List Bytes} {ids : List Bytes}, pushAll limit o ids = some o' → o' = o ++ ids
  | _, _, [], h => by cases h; exact (List.append_nil _).symm
  | o, o', id :: rest, h => by
    simp only [pushAll, Option.bind_eq_some, tryPush_eq_some] at h
    obtain ⟨_, ⟨-, rfl⟩, h⟩ := h
    rw [pushAll_eq_some h, List.append_assoc, List.singleton_append]

theorem steps_replaceFile (hc : Chain R) (hl : FillerWrites R) (ha : AuxWrites R) (env : Env)
    (minerAcc : AccountId) (fileSize : Nat) : Steps R (replaceFile env minerAcc fileSize) := by
  unfold replaceFile
  refine Steps.bind hc.trans (steps_external hc.trans hc.refl fun s => ha.calls s _)
    fun _ => ?_
  refine ReadOnly.bind_steps (readOnly_lift _) (fun ⟨_, _⟩ => ?_) hc.refl
  dsimp only
  refine ReadOnly.bind_steps ?_ (fun _ => ?_) hc.refl
  · split
    · exact readOnly_ensure _ _
    · exact readOnly_fail _
  refine ReadOnly.bind_steps (readOnly_okOr _ _) (fun _ => ?_) hc.refl
  refine ReadOnly.bind_steps (readOnly_read _) (fun _ => ?_) hc.refl
  refine Steps.bind hc.trans (steps_replaceLoop hc hl _ _ _ _ _ _) fun _ => ?_
  exact Slot.steps_tryMutate_readOnly hc.refl (fun _ => readOnly_okOr _ _) fun s v' h => by
    rw [pushAll_eq_some (okOr_eq_ok.mp h).1]
    exact ha.invalid s minerAcc _

/-! ## Declaration -/

theorem steps_addOwner (hc : Chain R) (hp : UsageWrites R) (ha : AuxWrites R) (env : Env)
    (sender : AccountId) (fileHashBound fileNameBound : Bytes) (sOpt : Option FileInfo) :
    Steps R (addOwner env sender fileHashBound fileNameBound sOpt) := by
  unfold addOwner
  refine ReadOnly.bind_steps (readOnly_okOr _ _) (fun _ => ?_) hc.refl
  refine ReadOnly.bind_steps (readOnly_ensure _ _) (fun _ => ?_) hc.refl
  refine Steps.bind hc.trans (steps_updateUserSpace hc hp _ _ _) fun _ => ?_
  refine Steps.bind hc.trans (steps_addUserHoldFileslice hc ha _ _ _ _) fun _ => ?_
  exact ((readOnly_okOr _ _).bind fun _ => (readOnly_okOr _ _).bind fun _ =>
    readOnly_pure _).steps hc.refl

theorem addOwner_eq_ok {env : Env} {sender : AccountId} {fileHashBound fileNameBound : Bytes}
    {sOpt v : Option FileInfo} {s s' : Store}
    (h : addOwner env sender fileHashBound fileNameBound sOpt s = .ok v s') :
    s'.file = s.file ∧ ∃ f, sOpt = some f ∧ sender ∉ f.user ∧
      v = some { f with user := f.user ++ [sender], fileName := f.fileName ++ [fileNameBound] } := by
  simp only [addOwner, bind_eq_ok, okOr_eq_ok, ensure_eq_ok] at h
  obtain ⟨f, _, ⟨rfl, rfl⟩, _, _, ⟨hnot, rfl⟩, _, s₁, h₁, _, s₂, h₂, h⟩ := h
  simp only [bind_eq_ok, okOr_eq_ok, pure_eq_ok, tryPush_eq_some] at h
  obtain ⟨_, _, ⟨⟨-, rfl⟩, rfl⟩, _, _, ⟨⟨-, rfl⟩, rfl⟩, rfl, rfl⟩ := h
  have k₁ := (steps_updateUserSpace chain_fileKept usageWrites_fileKept _ _ _).of_ok h₁
  have k₂ := (steps_addUserHoldFileslice chain_fileKept auxWrites_fileKept _ _ _ _).of_ok h₂
  exact ⟨k₂.trans k₁, f, rfl, hnot, rfl⟩

theorem steps_uploadDeclaration (hc : Chain R) (hf : FileWrites R) (hp : UsageWrites R)
    (ha : AuxWrites R) (env : Env) (origin : Origin) (fileHash fileName : Bytes) :
    Steps R (uploadDeclaration env origin fileHash fileName) := by
  unfold uploadDeclaration
  refine ReadOnly.bind_steps (readOnly_ensureSigned _) (fun sender => ?_) hc.refl
  refine ReadOnly.bind_steps (readOnly_okOr _ _) (fun hb => ?_) hc.refl
  refine ReadOnly.bind_steps (readOnly_okOr _ _) (fun nb => ?_) hc.refl
  refine Slot.get_bind_steps fun cur => ?_
  split
  · refine Steps.mono (fun _ _ h _ => h) (Slot.steps_tryMutate hc.trans
      (fun _ => steps_addOwner hc hp ha _ _ _ _ _) fun s v s' h => ?_)
    obtain ⟨hfile, f, hf₀, hnot, rfl⟩ := addOwner_eq_ok h
    exact hf.addOwner s' hb f sender nb (hfile ▸ hf₀) hnot
  · next hcur =>
    have hnone : cur = none := Option.not_isSome_iff_eq_none.mp hcur
    refine okOr_bind_steps (fun s _ => hc.refl s) fun _ huser => ?_
    refine okOr_bind_steps (fun s _ => hc.refl s) fun _ hname => ?_
    refine okOr_bind_steps (fun s _ => hc.refl s) fun _ hstate => ?_
    obtain ⟨-, rfl⟩ := tryInto_eq_some.mp huser
    obtain ⟨-, rfl⟩ := tryInto_eq_some.mp hname
    obtain ⟨-, rfl⟩ := tryInto_eq_some.mp hstate
    exact Slot.steps_put fun s hs => hf.declare s hb sender nb (hs.trans hnone)

/-! ## Commit -/

theorem readOnly_commitFile (env : Env) (fileSize blockNum scanSize segmentSize : Nat)
    (minerAcc : AccountId) (minerId : Nat) (minerIp : Bytes) (user : AccountId)
    (sOpt : Option FileInfo) :
    ReadOnly (commitFile env fileSize blockNum scanSize segmentSize minerAcc minerId minerIp
      user sOpt) := by
  unfold commitFile
  exact (readOnly_unwrap _).bind fun _ => (readOnly_ensure _ _).bind fun _ =>
    (readOnly_ensure _ _).bind fun _ => (readOnly_okOr _ _).bind fun _ =>
    (readOnly_okOr _ _).bind fun _ => readOnly_pure _

theorem commitFile_eq_ok {env : Env} {fileSize blockNum scanSize segmentSize : Nat}
    {minerAcc : AccountId} {minerId : Nat} {minerIp : Bytes} {user : AccountId}
    {sOpt v : Option FileInfo} {s s' : Store}
    (h : commitFile env fileSize blockNum scanSize segmentSize minerAcc minerId minerIp user sOpt
      s = .ok v s') :
    s' = s ∧ ∃ f, sOpt = some f ∧ user ∈ f.user ∧ f.fileState ≠ activeTag ∧
      v = some { f with
        fileSize := fileSize, blockNum := blockNum, scanSize := scanSize,
        segmentSize := segmentSize, minerAcc := minerAcc, minerId := minerId,
        minerIp := minerIp, fileState := activeTag } := by
  simp only [commitFile, bind_eq_ok, unwrap_eq_ok, ensure_eq_ok] at h
  obtain ⟨f, _, ⟨rfl, rfl⟩, _, _, ⟨hu, rfl⟩, _, _, ⟨hs, rfl⟩, h⟩ := h
  simp only [bind_eq_ok, okOr_eq_ok, pure_eq_ok, tryInto_eq_some] at h
  obtain ⟨_, _, ⟨⟨-, rfl⟩, rfl⟩, _, _, ⟨⟨-, rfl⟩, rfl⟩, rfl, rfl⟩ := h
  exact ⟨rfl, f, rfl, hu, hs, rfl⟩

theorem steps_upload (hc : Chain R) (hf : FileWrites R) (hp : UsageWrites R) (hl : FillerWrites R)
    (ha : AuxWrites R) (env : Env) (origin : Origin) (fileHash : Bytes)
    (fileSize blockNum scanSize segmentSize : Nat) (minerAcc : AccountId) (minerId : Nat)
    (minerIp : Bytes) (user : AccountId) :
    Steps R (upload env origin fileHash fileSize blockNum scanSize segmentSize minerAcc minerId
      minerIp user) := by
  unfold upload
  refine ReadOnly.bind_steps (readOnly_ensureSigned _) (fun _ => ?_) hc.refl
  refine ReadOnly.bind_steps (readOnly_ensure _ _) (fun _ => ?_) hc.refl
  refine ReadOnly.bind_steps (readOnly_okOr _ _) (fun h => ?_) hc.refl
  refine ReadOnly.bind_steps (Slot.readOnly_get _) (fun _ => ?_) hc.refl
  refine ReadOnly.bind_steps (readOnly_ensure _ _) (fun _ => ?_) hc.refl
  refine Steps.bind hc.trans (steps_updateUserSpace hc hp _ _ _) fun _ => ?_
  refine Steps.bind hc.trans (Slot.steps_tryMutate hc.trans
    (fun _ => (readOnly_commitFile _ _ _ _ _ _ _ _ _ _).steps hc.refl) fun s v s' hv => ?_)
    fun _ => ?_
  · obtain ⟨rfl, f, hf₀, hu, hs, rfl⟩ := commitFile_eq_ok hv
    exact hf.commit _ h f user _ _ _ _ _ _ _ hf₀ hu hs
  refine Steps.bind hc.trans (steps_addUserHoldFileslice hc ha _ _ _ _) fun _ => ?_
  exact steps_replaceFile hc hl ha _ _ _

theorem steps_insertFillers (hc : Chain R) (hl : FillerWrites R) (miner : AccountId)
    (fillers : List FillerInfo) : Steps R (insertFillers miner fillers) := by
  induction fillers with
  | nil => exact (readOnly_pure _).steps hc.refl
  | cons i rest ih =>
    unfold insertFillers
    refine Slot.get_bind_steps fun cur => ?_
    refine ensure_bind_steps (fun s _ => hc.refl s) fun hcur => ?_
    refine Steps.bind_guarded hc.trans (Slot.steps_put fun s hs => hl.insert s miner i ?_)
      fun _ => ih
    exact hs.trans (Option.not_isSome_iff_eq_none.mp hcur)

theorem steps_uploadFiller (hc : Chain R) (hl : FillerWrites R) (ha : AuxWrites R) (env : Env)
    (origin : Origin) (miner : AccountId) (fillerList : List FillerInfo) :
    Steps R (uploadFiller env origin miner fillerList) := by
  unfold uploadFiller
  refine ReadOnly.bind_steps (readOnly_ensureSigned _) (fun _ => ?_) hc.refl
  refine ReadOnly.bind_steps (readOnly_ensure _ _) (fun _ => ?_) hc.refl
  refine ReadOnly.bind_steps (readOnly_ensure _ _) (fun _ => ?_) hc.refl
  refine ReadOnly.bind_steps (readOnly_lift _) (fun _ => ?_) hc.refl
  refine ReadOnly.bind_steps (readOnly_ensure _ _) (fun _ => ?_) hc.refl
  refine Steps.bind hc.trans (steps_insertFillers hc hl _ _) fun _ => ?_
  refine ReadOnly.bind_steps (readOnly_okOr _ _) (fun _ => ?_) hc.refl
  exact steps_external hc.trans hc.refl fun s => ha.calls s _

/-! ## Deletion -/

variable {s s' : Store}

theorem removeAt_eq_ok {α : Type} {l l' : List α} {index : Nat}
    (h : removeAt l index s = .ok l' s') : index < l.length ∧ l' = l.eraseIdx index ∧ s' = s := by
  unfold removeAt at h
  split at h
  · next hi => obtain ⟨rfl, rfl⟩ := pure_eq_ok.mp h; exact ⟨hi, rfl, rfl⟩
  · exact absurd h (by simp)

/-- The owner search counts up to the owner's position, or to the end when it is absent. -/
theorem ownerIndex_eq_ok {user : AccountId} {l : List AccountId} {index n : Nat}
    (h : ownerIndex user l index s = .ok n s') : n = index + l.indexOf user ∧ s' = s := by
  induction l generalizing index with
  | nil => obtain ⟨rfl, rfl⟩ := pure_eq_ok.mp h; simp
  | cons acc rest ih =>
    unfold ownerIndex at h
    split at h
    · next hacc => obtain ⟨rfl, rfl⟩ := pure_eq_ok.mp h; simp [List.indexOf_cons_eq _ hacc]
    · next hacc =>
      simp only [bind_eq_ok, okOr_eq_ok, checkedAdd_eq_some] at h
      obtain ⟨_, _, ⟨⟨-, rfl⟩, rfl⟩, h⟩ := h
      obtain ⟨rfl, rfl⟩ := ih h
      refine ⟨?_, rfl⟩
      rw [List.indexOf_cons_ne _ hacc]
      omega

theorem readOnly_ownerIndex (user : AccountId) (l : List AccountId) (index : Nat) :
    ReadOnly (ownerIndex user l index) := by
  induction l generalizing index with
  | nil => exact readOnly_pure _
  | cons acc rest ih =>
    unfold ownerIndex
    split
    · exact readOnly_pure _
    · exact (readOnly_okOr _ _).bind fun _ => ih _

theorem readOnly_removeOwner (user : AccountId) (sOpt : Option FileInfo) :
    ReadOnly (removeOwner user sOpt) := by
  unfold removeOwner removeAt
  refine (readOnly_unwrap _).bind fun _ => (readOnly_ownerIndex _ _ _).bind fun _ => ?_
  refine ReadOnly.bind ?_ fun _ => ReadOnly.bind ?_ fun _ => readOnly_pure _ <;>
    exact fun s => by split <;> rfl

/-- Removing an owner takes out the owner and the name at the owner's position, both of
which must exist. -/
theorem removeOwner_eq_ok {user : AccountId} {sOpt v : Option FileInfo}
    (h : removeOwner user sOpt s = .ok v s') :
    s' = s ∧ ∃ f, sOpt = some f ∧ f.user.indexOf user < f.user.length ∧
      f.user.indexOf user < f.fileName.length ∧
      v = some { f with
        user := f.user.eraseIdx (f.user.indexOf user),
        fileName := f.fileName.eraseIdx (f.user.indexOf user) } := by
  simp only [removeOwner, bind_eq_ok, unwrap_eq_ok, pure_eq_ok] at h
  obtain ⟨f, _, ⟨rfl, rfl⟩, n, _, hn, _, _, hu, _, _, hname, rfl, rfl⟩ := h
  obtain ⟨rfl, rfl⟩ := ownerIndex_eq_ok hn
  obtain ⟨hlt, rfl, rfl⟩ := removeAt_eq_ok hu
  obtain ⟨hlt', rfl, rfl⟩ := removeAt_eq_ok hname
  rw [Nat.zero_add] at hlt hlt' ⊢
  exact ⟨rfl, f, rfl, hlt, hlt', rfl⟩

theorem steps_clearUserFile (hc : Chain R) (hf : FileWrites R) (hp : UsageWrites R)
    (ha : AuxWrites R) (env : Env) (fileHash : Bytes) (user : AccountId) :
    Steps R (clearUserFile env fileHash user) := by
  unfold clearUserFile
  refine Slot.get_bind_steps fun cur => unwrap_bind_steps (fun s _ => hc.refl s) fun file hcur => ?_
  subst hcur
  refine ensure_bind_steps (fun s _ => hc.refl s) fun hmem => ?_
  have hq : Steps (fun s s' => R s s' ∧ FileKept s s') (updateUserSpace user 2 file.fileSize) :=
    steps_updateUserSpace (hc.and chain_fileKept) (hp.and usageWrites_fileKept) _ _ _
  refine Steps.bind_keeping hc.trans (hq.mono fun s s' h => ⟨h.1, fun hs => ?_⟩) fun _ => ?_
  · show s'.file.get fileHash = some file
    rw [h.2]
    exact hs
  refine Steps.bind_guarded hc.trans ?_ fun _ =>
    Slot.steps_tryMutate_readOnly hc.refl (fun _ => readOnly_pure _) fun _ _ _ => ha.hold _ _ _
  split
  · next hlen =>
    refine Slot.steps_tryMutate_readOnly (fun s _ => hc.refl s) (readOnly_removeOwner user)
      fun s v h hs => ?_
    obtain ⟨-, f, hf₀, -, hname, rfl⟩ := removeOwner_eq_ok h
    obtain rfl : f = file := Option.some_injective _ (hf₀.symm.trans hs)
    exact hf.removeOwner s fileHash f user hs hmem hlen hname
  · refine Steps.mono (fun _ _ h _ => h) ?_
    refine Steps.bind hc.trans (Slot.steps_put fun s => hf.remove s fileHash) fun _ => ?_
    refine Steps.bind hc.trans (steps_addInvalidFile hc ha _ _ _) fun _ => ?_
    exact Steps.bind hc.trans (steps_external hc.trans hc.refl fun s => ha.calls s _)
      fun _ => steps_external hc.trans hc.refl fun s => ha.calls s _

theorem steps_deleteFile (hc : Chain R) (hf : FileWrites R) (hp : UsageWrites R)
    (ha : AuxWrites R) (env : Env) (origin : Origin) (fileid : Bytes) :
    Steps R (deleteFile env origin fileid) := by
  unfold deleteFile vecToBound
  refine ReadOnly.bind_steps (readOnly_ensureSigned _) (fun _ => ?_) hc.refl
  refine ReadOnly.bind_steps (readOnly_okOr _ _) (fun _ => ?_) hc.refl
  refine ReadOnly.bind_steps (Slot.readOnly_get _) (fun _ => ?_) hc.refl
  exact ReadOnly.bind_steps (readOnly_ensure _ _)
    (fun _ => steps_clearUserFile hc hf hp ha _ _ _) hc.refl

/-! ## The miners' and the root's calls -/

/-- `clear_invalid_file` edits the signer's own queue only. -/
theorem steps_clearInvalidFile (hrefl : ∀ s, R s s) (env : Env) (origin : Origin)
    (fileHash : Bytes) (hk : ∀ s sender, origin = .signed sender →
      R s ((invalidSlot sender).write ((s.invalidFile sender).filter (· ≠ fileHash)) s)) :
    Steps R (clearInvalidFile env origin fileHash) := by
  unfold clearInvalidFile
  refine ReadOnly.bind_steps_of (readOnly_ensureSigned _)
    (fun _ _ _ h => (ensureSigned_eq_ok.mp h).1) (fun sender hsender => ?_) hrefl
  refine okOr_bind_steps hrefl fun _ hb => ?_
  obtain ⟨-, rfl⟩ := tryInto_eq_some.mp hb
  exact Slot.steps_tryMutate_readOnly hrefl (fun _ => readOnly_pure _) fun s _ h => by
    obtain ⟨rfl, -⟩ := pure_eq_ok.mp h
    exact hk s sender hsender

theorem steps_clearAllFiller (hc : Chain R) (hl : FillerWrites R) (env : Env) (origin : Origin) :
    Steps R (clearAllFiller env origin) :=
  ReadOnly.bind_steps (readOnly_ensureSigned _) (fun _ => ReadOnly.bind_steps (readOnly_lift _)
    (fun _ => ReadOnly.bind_steps (readOnly_ensure _ _)
      (fun _ => steps_deleteMinerAllFiller hl _) hc.refl) hc.refl) hc.refl

theorem steps_addMember (hc : Chain R) (hm : MembersWrites R) (env : Env) (origin : Origin)
    (acc : AccountId) : Steps R (addMember env origin acc) :=
  ReadOnly.bind_steps (readOnly_ensureRoot _) (fun _ => ReadOnly.bind_steps (Slot.readOnly_get _)
    (fun _ => ReadOnly.bind_steps (readOnly_ensure _ _)
      (fun _ => Slot.steps_tryMutate_readOnly hc.refl (fun _ => readOnly_okOr _ _)
        fun _ _ _ => hm.members _ _) hc.refl) hc.refl) hc.refl

theorem steps_delMember (hc : Chain R) (hm : MembersWrites R) (origin : Origin) (acc : AccountId) :
    Steps R (delMember origin acc) :=
  ReadOnly.bind_steps (readOnly_ensureRoot _) (fun _ => Slot.steps_tryMutate_readOnly hc.refl
    (fun _ => readOnly_pure _) fun _ _ _ => hm.members _ _) hc.refl

end Registry

/-! ## Every call -/

section Calls

variable {R : Store → Store → Prop}

/-- Whether a call edits a list in place: root's `add_member` and `del_member`, and a miner's
`clear_invalid_file`. -/
def Call.editsList : Call → Bool
  | .addMember _ _ => true
  | .delMember _ _ => true
  | .clearInvalidFile _ _ => true
  | _ => false

/-- Every other call writes only the families of the file calls. -/
theorem Call.run_steps_of_files (hc : Chain R) (hf : FileWrites R) (hp : PkgWrites R)
    (hl : FillerWrites R) (ha : AuxWrites R) (env : Env) :
    ∀ c : Call, c.editsList = false → Steps R (c.run env)
  | .uploadDeclaration o h n, _ => steps_uploadDeclaration hc hf hp.toUsageWrites ha env o h n
  | .upload o h size block scan segment miner id ip user, _ =>
    steps_upload hc hf hp.toUsageWrites hl ha env o h size block scan segment miner id ip user
  | .uploadFiller o miner fillers, _ => steps_uploadFiller hc hl ha env o miner fillers
  | .deleteFile o h, _ => steps_deleteFile hc hf hp.toUsageWrites ha env o h
  | .buyPackage o ty count, _ => steps_buyPackage hc hp ha env o ty count
  | .clearAllFiller o, _ => steps_clearAllFiller hc hl env o
  | .deleteFiller miner id, _ => steps_deleteFiller hc hl env miner id
  | .deleteMinerAllFiller miner, _ => steps_deleteMinerAllFiller hl miner
  | .clearFile h, _ => steps_clearFile hc hf env h
  | .addInvalidFile miner h, _ => steps_addInvalidFile hc ha env miner h
  | .addMember _ _, h => nomatch h
  | .delMember _ _, h => nomatch h
  | .clearInvalidFile _ _, h => nomatch h

/-- **The footprint law.** Every run of every call relates the stores it starts from and
leaves by any chaining relation that admits every write of the families. -/
theorem Call.run_steps (hc : Chain R) (hf : FileWrites R) (hp : PkgWrites R)
    (hl : FillerWrites R) (ha : AuxWrites R) (hm : MembersWrites R) (hk : AckWrites R) (env : Env)
    (c : Call) : Steps R (c.run env) := by
  cases c with
  | clearInvalidFile o h =>
    exact steps_clearInvalidFile hc.refl env o h fun s sender _ => hk.acknowledge s sender h
  | addMember o acc => exact steps_addMember hc hm env o acc
  | delMember o acc => exact steps_delMember hc hm o acc
  | _ => exact Call.run_steps_of_files hc hf hp hl ha env _ rfl

/-- The store a call leaves, a panic's included, is related to the one it started from. -/
theorem Call.next_rel (hc : Chain R) (hf : FileWrites R) (hp : PkgWrites R)
    (hl : FillerWrites R) (ha : AuxWrites R) (hm : MembersWrites R) (hk : AckWrites R) (env : Env)
    (c : Call) (s : Store) : R s (c.next env s) := by
  have h := Call.run_steps hc hf hp hl ha hm hk env c s
  unfold Call.next
  split <;> simp_all only [storeOf]
  exact hc.refl s

/-- Every predicate chains as an invariant. -/
theorem chain_imp (P : Store → Prop) : Chain (fun s s' => P s → P s') :=
  ⟨fun _ h => h, fun _ _ _ h₁ h₂ h => h₂ (h₁ h)⟩

/-- **Invariants.** A predicate of empty storage that every kind of write keeps holds of every
reachable store. -/
theorem Reachable.of_writes {P : Store → Prop} (h₀ : P Store.empty)
    (hf : FileWrites (fun s s' => P s → P s')) (hp : PkgWrites (fun s s' => P s → P s'))
    (hl : FillerWrites (fun s s' => P s → P s')) (ha : AuxWrites (fun s s' => P s → P s'))
    (hm : MembersWrites (fun s s' => P s → P s')) (hk : AckWrites (fun s s' => P s → P s'))
    {s : Store} (hs : Reachable s) : P s :=
  Reachable.of_preserves h₀ (fun env c => Call.run_steps (chain_imp P) hf hp hl ha hm hk env c) hs

end Calls

end Cess.FileBank
