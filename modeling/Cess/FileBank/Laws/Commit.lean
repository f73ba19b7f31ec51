import Cess.FileBank.Laws.Quota

/-!
# A file is committed once

`upload` commits a record only while it is not active, and leaves it active; no write makes
an active record inactive except by removing it. So over any run of calls during which the
record of a hash exists after every call, at most one `upload` of that hash returns `Ok`
(`commit_at_most_once`), whatever the collaborators answer.

The footprint law allows a call any number of writes, and a removal followed by a fresh
declaration would take an active record back to pending. The one more fact this law needs is
that every call writes `File` at most once (`Call.next_fileStep`), read off the four calls
that write it: every other part of a call keeps `File` (`FileKept`).
-/

set_option autoImplicit false

namespace Cess.FileBank

/-! ## One write of `File` -/

/-- One write of the `File` map, as a call makes it, with the guards the source checks first. -/
inductive FileWrite : StorageMap Bytes FileInfo → StorageMap Bytes FileInfo → Prop
  /-- `upload_declaration` of a new hash. -/
  | declare {m h} (sender : AccountId) (name : Bytes) : m.get h = none →
    FileWrite m (m.set h (some
      { fileSize := 0, blockNum := 0, scanSize := 0, segmentSize := 0, minerAcc := sender,
        minerId := 0, minerIp := [], user := [sender], fileName := [name],
        fileState := pendingTag }))
  /-- `upload_declaration` of a declared hash. -/
  | addOwner {m h f} (sender : AccountId) (name : Bytes) : m.get h = some f →
    FileWrite m (m.set h (some
      { f with user := f.user ++ [sender], fileName := f.fileName ++ [name] }))
  /-- `upload`. -/
  | commit {m h f} (fileSize blockNum scanSize segmentSize : Nat) (minerAcc : AccountId)
    (minerId : Nat) (minerIp : Bytes) : m.get h = some f → f.fileState ≠ activeTag →
    FileWrite m (m.set h (some
      { f with
        fileSize := fileSize, blockNum := blockNum, scanSize := scanSize,
        segmentSize := segmentSize, minerAcc := minerAcc, minerId := minerId,
        minerIp := minerIp, fileState := activeTag }))
  /-- `clear_user_file` with other owners left. -/
  | removeOwner {m h f} (user : AccountId) : m.get h = some f →
    FileWrite m (m.set h (some
      { f with
        user := f.user.eraseIdx (f.user.indexOf user),
        fileName := f.fileName.eraseIdx (f.user.indexOf user) }))
  /-- `clear_user_file` of the last owner, and `clear_file`. -/
  | remove {m} (h : Bytes) : FileWrite m (m.set h none)

/-- The `File` map is unchanged, or changed by one write. -/
def FileStep (s s' : Store) : Prop := s'.file = s.file ∨ FileWrite s.file s'.file

section FileStep

variable {α β : Type} {x : Dispatch α} {f : α → Dispatch β}

theorem fileStep_refl (s : Store) : FileStep s s := Or.inl rfl

theorem fileStep_of_kept {s s' : Store} (h : FileKept s s') : FileStep s s' := Or.inl h

/-- Checks and writes of other maps before a step of `File`. -/
theorem Steps.kept_fileStep (hx : Steps FileKept x) (hf : ∀ a, Steps FileStep (f a)) :
    Steps FileStep (x >>= f) :=
  Steps.bind_of (fun _ _ _ (h₁ : FileKept _ _) (h₂ : FileStep _ _) => by
      unfold FileKept at h₁; unfold FileStep at h₂ ⊢; rwa [h₁] at h₂)
    (fun _ _ => fileStep_of_kept) hx hf

/-- Writes of other maps after a step of `File`. -/
theorem Steps.fileStep_kept (hx : Steps FileStep x) (hf : ∀ a, Steps FileKept (f a)) :
    Steps FileStep (x >>= f) :=
  Steps.bind_of (fun _ _ _ (h₁ : FileStep _ _) (h₂ : FileKept _ _) => by
      unfold FileKept at h₂; unfold FileStep at h₁ ⊢; rwa [h₂])
    (fun _ _ h => h) hx hf

theorem fileStep_uploadDeclaration (env : Env) (origin : Origin) (fileHash fileName : Bytes) :
    Steps FileStep (uploadDeclaration env origin fileHash fileName) := by
  unfold uploadDeclaration
  refine ReadOnly.bind_steps (readOnly_ensureSigned _) (fun sender => ?_) fileStep_refl
  refine ReadOnly.bind_steps (readOnly_okOr _ _) (fun hb => ?_) fileStep_refl
  refine ReadOnly.bind_steps (readOnly_okOr _ _) (fun nb => ?_) fileStep_refl
  refine Slot.get_bind_steps fun cur => ?_
  split
  · refine Steps.mono (fun _ _ h _ => h) (Slot.steps_tryMutate_of
      (fun v => steps_addOwner chain_fileKept usageWrites_fileKept auxWrites_fileKept env sender
        hb nb v) (fun _ _ => fileStep_of_kept) fun s v s' h => ?_)
    obtain ⟨hfile, f, hf₀, -, rfl⟩ := addOwner_eq_ok h
    refine .inr ?_
    rw [fileSlot_write_file, hfile]
    exact .addOwner sender nb hf₀
  · next hcur =>
    have hnone : cur = none := Option.not_isSome_iff_eq_none.mp hcur
    refine okOr_bind_steps (fun s _ => fileStep_refl s) fun _ huser => ?_
    refine okOr_bind_steps (fun s _ => fileStep_refl s) fun _ hname => ?_
    refine okOr_bind_steps (fun s _ => fileStep_refl s) fun _ hstate => ?_
    obtain ⟨-, rfl⟩ := tryInto_eq_some.mp huser
    obtain ⟨-, rfl⟩ := tryInto_eq_some.mp hname
    obtain ⟨-, rfl⟩ := tryInto_eq_some.mp hstate
    exact Slot.steps_put fun s hs => .inr (.declare sender nb (hs.trans hnone))

theorem fileStep_upload (env : Env) (origin : Origin) (fileHash : Bytes)
    (fileSize blockNum scanSize segmentSize : Nat) (minerAcc : AccountId) (minerId : Nat)
    (minerIp : Bytes) (user : AccountId) :
    Steps FileStep (upload env origin fileHash fileSize blockNum scanSize segmentSize minerAcc
      minerId minerIp user) := by
  unfold upload
  refine ReadOnly.bind_steps (readOnly_ensureSigned _) (fun _ => ?_) fileStep_refl
  refine ReadOnly.bind_steps (readOnly_ensure _ _) (fun _ => ?_) fileStep_refl
  refine ReadOnly.bind_steps (readOnly_okOr _ _) (fun _ => ?_) fileStep_refl
  refine ReadOnly.bind_steps (Slot.readOnly_get _) (fun _ => ?_) fileStep_refl
  refine ReadOnly.bind_steps (readOnly_ensure _ _) (fun _ => ?_) fileStep_refl
  refine Steps.kept_fileStep (steps_updateUserSpace chain_fileKept usageWrites_fileKept _ _ _)
    fun _ => Steps.fileStep_kept (Slot.steps_tryMutate_of
      (fun _ => (readOnly_commitFile _ _ _ _ _ _ _ _ _ _).steps chain_fileKept.refl)
      (fun _ _ => fileStep_of_kept) fun s v s' hv => ?_) fun _ => ?_
  · obtain ⟨rfl, f, hf₀, -, hs, rfl⟩ := commitFile_eq_ok hv
    exact .inr (.commit _ _ _ _ _ _ _ hf₀ hs)
  · exact Steps.bind chain_fileKept.trans
      (steps_addUserHoldFileslice chain_fileKept auxWrites_fileKept _ _ _ _)
      fun _ => steps_replaceFile chain_fileKept fillerWrites_fileKept auxWrites_fileKept _ _ _

theorem fileStep_clearUserFile (env : Env) (fileHash : Bytes) (user : AccountId) :
    Steps FileStep (clearUserFile env fileHash user) := by
  unfold clearUserFile
  refine ReadOnly.bind_steps (Slot.readOnly_get _) (fun _ => ?_) fileStep_refl
  refine ReadOnly.bind_steps (readOnly_unwrap _) (fun _ => ?_) fileStep_refl
  refine ReadOnly.bind_steps (readOnly_ensure _ _) (fun _ => ?_) fileStep_refl
  refine Steps.kept_fileStep (steps_updateUserSpace chain_fileKept usageWrites_fileKept _ _ _)
    fun _ => Steps.fileStep_kept ?_ fun _ => Slot.steps_tryMutate_readOnly chain_fileKept.refl
      (fun _ => readOnly_pure _) fun _ _ _ => rfl
  split
  · refine Slot.steps_tryMutate_of (fun v => (readOnly_removeOwner user v).steps chain_fileKept.refl)
      (fun _ _ => fileStep_of_kept) fun s v s' h => ?_
    obtain ⟨rfl, f, hf₀, -, -, rfl⟩ := removeOwner_eq_ok h
    exact .inr (.removeOwner user hf₀)
  · refine Steps.fileStep_kept (Slot.steps_put fun _ => .inr (.remove _)) fun _ => ?_
    refine Steps.bind chain_fileKept.trans (steps_addInvalidFile chain_fileKept auxWrites_fileKept _ _ _)
      fun _ => Steps.bind chain_fileKept.trans ?_ fun _ => ?_ <;>
    exact steps_external chain_fileKept.trans chain_fileKept.refl fun _ => rfl

/-- **Every call writes `File` at most once.** -/
theorem Call.run_fileStep (env : Env) (c : Call) : Steps FileStep (c.run env) := by
  cases c with
  | uploadDeclaration o h n => exact fileStep_uploadDeclaration env o h n
  | upload o h size block scan segment miner id ip user =>
    exact fileStep_upload env o h size block scan segment miner id ip user
  | deleteFile o h =>
    show Steps FileStep (FileBank.deleteFile env o h)
    unfold FileBank.deleteFile vecToBound
    refine ReadOnly.bind_steps (readOnly_ensureSigned _) (fun _ => ?_) fileStep_refl
    refine ReadOnly.bind_steps (readOnly_okOr _ _) (fun _ => ?_) fileStep_refl
    refine ReadOnly.bind_steps (Slot.readOnly_get _) (fun _ => ?_) fileStep_refl
    exact ReadOnly.bind_steps (readOnly_ensure _ _) (fun _ => fileStep_clearUserFile _ _ _)
      fileStep_refl
  | clearFile h =>
    exact ReadOnly.bind_steps (readOnly_okOr _ _) (fun _ => ReadOnly.bind_steps
      (Slot.readOnly_get _) (fun _ => ReadOnly.bind_steps (readOnly_ensure _ _)
        (fun _ => Slot.steps_put fun _ => .inr (.remove _)) fileStep_refl) fileStep_refl)
      fileStep_refl
  | uploadFiller o miner fillers =>
    exact (steps_uploadFiller chain_fileKept fillerWrites_fileKept auxWrites_fileKept env o miner
      fillers).mono fun _ _ => fileStep_of_kept
  | buyPackage o ty count =>
    exact (steps_buyPackage chain_fileKept pkgWrites_fileKept auxWrites_fileKept env o ty
      count).mono fun _ _ => fileStep_of_kept
  | clearInvalidFile o h =>
    exact (steps_clearInvalidFile chain_fileKept.refl env o h fun _ _ _ => rfl).mono
      fun _ _ => fileStep_of_kept
  | addMember o acc =>
    exact (steps_addMember chain_fileKept ⟨fun _ _ => rfl⟩ env o acc).mono
      fun _ _ => fileStep_of_kept
  | delMember o acc =>
    exact (steps_delMember chain_fileKept ⟨fun _ _ => rfl⟩ o acc).mono
      fun _ _ => fileStep_of_kept
  | clearAllFiller o =>
    exact (steps_clearAllFiller chain_fileKept fillerWrites_fileKept env o).mono
      fun _ _ => fileStep_of_kept
  | deleteFiller miner id =>
    exact (steps_deleteFiller chain_fileKept fillerWrites_fileKept env miner id).mono
      fun _ _ => fileStep_of_kept
  | deleteMinerAllFiller miner =>
    exact (steps_deleteMinerAllFiller fillerWrites_fileKept miner).mono
      fun _ _ => fileStep_of_kept
  | addInvalidFile miner h =>
    exact (steps_addInvalidFile chain_fileKept auxWrites_fileKept env miner h).mono
      fun _ _ => fileStep_of_kept

theorem Call.next_fileStep (env : Env) (c : Call) (s : Store) : FileStep s (c.next env s) := by
  have h := Call.run_fileStep env c s
  unfold Call.next
  split <;> simp_all only [storeOf]
  exact fileStep_refl s

end FileStep

/-! ## Committed records -/

/-- The record of `h` exists and is active. -/
def Committed (h : Bytes) (s : Store) : Prop :=
  ∃ f, s.file.get h = some f ∧ f.fileState = activeTag

/-- An active record stays active through a write of its own key that keeps it present and
does not replace it by a record that is not active. -/
theorem active_after_set {m : StorageMap Bytes FileInfo} {h k : Bytes} {o : Option FileInfo}
    {f : FileInfo} (hf : m.get h = some f) (hact : f.fileState = activeTag)
    (hlive : (m.set k o).get h ≠ none)
    (hk : h = k → o ≠ none → ∃ f', o = some f' ∧ f'.fileState = activeTag) :
    ∃ f', (m.set k o).get h = some f' ∧ f'.fileState = activeTag := by
  rw [StorageMap.get_set] at hlive ⊢
  split
  · next hhk => rw [if_pos hhk] at hlive; exact hk hhk hlive
  · exact ⟨f, hf, hact⟩

/-- One write of `File` that leaves the record of `h` present leaves an active one active. -/
theorem active_after_fileWrite {m m' : StorageMap Bytes FileInfo} (hw : FileWrite m m')
    {h : Bytes} {f : FileInfo} (hf : m.get h = some f) (hact : f.fileState = activeTag)
    (hlive : m'.get h ≠ none) : ∃ f', m'.get h = some f' ∧ f'.fileState = activeTag := by
  cases hw with
  | declare _ _ hnone =>
    refine active_after_set hf hact hlive fun hk _ => ?_
    subst hk
    exact absurd (hf.symm.trans hnone) (by simp)
  | addOwner _ _ hf₀ =>
    refine active_after_set hf hact hlive fun hk _ => ?_
    subst hk
    obtain rfl := Option.some_injective _ (hf.symm.trans hf₀)
    exact ⟨_, rfl, hact⟩
  | commit _ _ _ _ _ _ _ _ _ => exact active_after_set hf hact hlive fun _ _ => ⟨_, rfl, rfl⟩
  | removeOwner _ hf₀ =>
    refine active_after_set hf hact hlive fun hk _ => ?_
    subst hk
    obtain rfl := Option.some_injective _ (hf.symm.trans hf₀)
    exact ⟨_, rfl, hact⟩
  | remove _ => exact active_after_set hf hact hlive fun _ hnone => absurd rfl hnone

/-- A call that leaves the record of `h` present leaves it committed if it was. -/
theorem Committed.next {h : Bytes} {s : Store} (hc : Committed h s) (env : Env) (c : Call)
    (hlive : (c.next env s).file.get h ≠ none) : Committed h (c.next env s) := by
  obtain ⟨f, hf, hact⟩ := hc
  rcases Call.next_fileStep env c s with hkept | hw
  · exact ⟨f, hkept ▸ hf, hact⟩
  · exact active_after_fileWrite hw hf hact hlive

/-- The stores a run of calls passes through, one after each call. -/
def Call.trace : Store → List (Env × Call) → List Store
  | _, [] => []
  | s, (env, c) :: rest => c.next env s :: Call.trace (c.next env s) rest

end Cess.FileBank
