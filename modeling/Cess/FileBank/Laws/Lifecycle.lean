import Cess.FileBank.Laws.Owners
import Cess.FileBank.Laws.Audit

/-!
# The file lifecycle in reachable stores

What a run of calls from empty storage can make of `File` and `PurchasedPackage`.

`buy_package` lets a purchase through only for an account that already has a package, so no
account ever gets one (`reachable_purchasedPackage_eq_none`). Every step of a file's life
after its declaration goes through `update_user_space` first, and both of its branches read
the owner's package before they write anything: the upload branch fails on `ok_or`, the
deletion branch panics on `unwrap`. So those steps fail before any write
(`updateUserSpace_failsAt`), whatever the collaborators answer.

**The law** (`reachable_files_stay_declared`): in every reachable store no account has a
package, every `File` record is the one `upload_declaration` wrote for a new hash (pending,
of size 0, owned by its declarer alone, who is also named its miner), and every `upload`,
`delete_file` and `buy_package` fails without writing. A second owner's declaration fails in
`update_user_space` too, so no record ever has two owners.

**The audit** (`reachable_challenges_fillers_only`): since no record is ever committed,
`get_random_challenge_data` challenges fillers only, in every reachable store.
-/

set_option autoImplicit false

namespace Cess.FileBank

/-! ## Dispatches that fail without writing -/

/-- `x` stops at `s`, with an error or a panic, leaving `s` as it found it. -/
def FailsAt {α : Type} (x : Dispatch α) (s : Store) : Prop := ∃ e, x s = .error e s

section FailsAt

variable {α β V : Type} {x : Dispatch α} {f : α → Dispatch β} {s : Store}

theorem FailsAt.bind (hx : FailsAt x s) : FailsAt (x >>= f) s :=
  let ⟨e, he⟩ := hx
  ⟨e, bind_of_error he⟩

/-- Checks that write nothing pass a failure of the rest through. -/
theorem ReadOnly.bind_failsAt (hx : ReadOnly x) (hf : ∀ a, FailsAt (f a) s) :
    FailsAt (x >>= f) s := by
  have h₁ := hx s
  cases h : x s with
  | ok a s' =>
    rw [h] at h₁
    change s' = s at h₁
    subst h₁
    unfold FailsAt
    rw [bind_of_ok h]
    exact hf a
  | error e s' =>
    rw [h] at h₁
    change s' = s at h₁
    subst h₁
    exact ⟨e, bind_of_error h⟩

theorem Slot.get_bind_failsAt {l : Slot V} {f : V → Dispatch β} (hf : FailsAt (f (l.read s)) s) :
    FailsAt (l.get >>= f) s := by
  unfold FailsAt
  rw [bind_of_ok (show l.get s = .ok (l.read s) s from rfl)]
  exact hf

/-- A closure that fails without writing makes `try_mutate` fail without writing. -/
theorem Slot.tryMutate_failsAt {l : Slot V} {f : V → Dispatch V} (hf : FailsAt (f (l.read s)) s) :
    FailsAt (l.tryMutate f) s :=
  Slot.get_bind_failsAt hf.bind

theorem ensure_failsAt {c : Prop} [Decidable c] {e : Error} (hc : ¬ c) : FailsAt (ensure c e) s :=
  ⟨_, by simp only [ensure, if_neg hc]; rfl⟩

/-- A dispatch that fails without writing from every store satisfying `P` relates each such
store to itself. -/
theorem FailsAt.steps {P : Store → Prop} {R : Store → Store → Prop} (hrefl : ∀ s, P s → R s s)
    (h : ∀ s, P s → FailsAt x s) : Steps (fun s s' => P s → R s s') x :=
  fun s hs => by
    obtain ⟨e, he⟩ := h s hs
    rw [he]
    exact hrefl s hs

/-- A dispatch that fails without writing from every store satisfying `P` keeps `P`. -/
theorem FailsAt.preserves {P : Store → Prop} (h : ∀ s, P s → FailsAt x s) : Preserves P x :=
  FailsAt.steps (fun _ hs => hs) h

end FailsAt

/-- Without a package, `update_user_space` fails before writing, whatever the operation: the
upload branch on `ok_or`, the deletion branch on `unwrap`, any other code on `WrongOperation`. -/
theorem updateUserSpace_failsAt {s : Store} {acc : AccountId}
    (hnone : s.purchasedPackage acc = none) (operation size : Nat) :
    FailsAt (updateUserSpace acc operation size) s := by
  have hread : (packageSlot acc).read s = none := hnone
  unfold updateUserSpace
  split
  · exact Slot.tryMutate_failsAt (by rw [hread]; exact FailsAt.bind ⟨_, rfl⟩)
  · exact Slot.tryMutate_failsAt (by rw [hread]; exact FailsAt.bind ⟨_, rfl⟩)
  · exact ⟨_, rfl⟩

/-! ## The calls that need a package -/

section NoPackage

variable {s : Store} (hnone : ∀ acc, s.purchasedPackage acc = none)

include hnone

theorem upload_failsAt (env : Env) (origin : Origin) (fileHash : Bytes)
    (fileSize blockNum scanSize segmentSize : Nat) (minerAcc : AccountId) (minerId : Nat)
    (minerIp : Bytes) (user : AccountId) :
    FailsAt (upload env origin fileHash fileSize blockNum scanSize segmentSize minerAcc minerId
      minerIp user) s := by
  unfold upload
  refine ReadOnly.bind_failsAt (readOnly_ensureSigned _) fun _ => ?_
  refine ReadOnly.bind_failsAt (readOnly_ensure _ _) fun _ => ?_
  refine ReadOnly.bind_failsAt (readOnly_okOr _ _) fun _ => ?_
  refine ReadOnly.bind_failsAt (Slot.readOnly_get _) fun _ => ?_
  refine ReadOnly.bind_failsAt (readOnly_ensure _ _) fun _ => ?_
  exact (updateUserSpace_failsAt (hnone user) _ _).bind

theorem deleteFile_failsAt (env : Env) (origin : Origin) (fileid : Bytes) :
    FailsAt (deleteFile env origin fileid) s := by
  unfold deleteFile vecToBound clearUserFile
  refine ReadOnly.bind_failsAt (readOnly_ensureSigned _) fun sender => ?_
  refine ReadOnly.bind_failsAt (readOnly_okOr _ _) fun _ => ?_
  refine ReadOnly.bind_failsAt (Slot.readOnly_get _) fun _ => ?_
  refine ReadOnly.bind_failsAt (readOnly_ensure _ _) fun _ => ?_
  refine ReadOnly.bind_failsAt (Slot.readOnly_get _) fun _ => ?_
  refine ReadOnly.bind_failsAt (readOnly_unwrap _) fun _ => ?_
  refine ReadOnly.bind_failsAt (readOnly_ensure _ _) fun _ => ?_
  exact (updateUserSpace_failsAt (hnone sender) _ _).bind

theorem buyPackage_failsAt (env : Env) (origin : Origin) (packageType count : Nat) :
    FailsAt (buyPackage env origin packageType count) s := by
  unfold buyPackage
  refine ReadOnly.bind_failsAt (readOnly_ensureSigned _) fun sender => ?_
  refine Slot.get_bind_failsAt (FailsAt.bind (ensure_failsAt ?_))
  simp [packageSlot, hnone sender]

theorem addOwner_failsAt (env : Env) (sender : AccountId) (fileHashBound fileNameBound : Bytes)
    (sOpt : Option FileInfo) :
    FailsAt (addOwner env sender fileHashBound fileNameBound sOpt) s := by
  unfold addOwner
  refine ReadOnly.bind_failsAt (readOnly_okOr _ _) fun _ => ?_
  refine ReadOnly.bind_failsAt (readOnly_ensure _ _) fun _ => ?_
  exact (updateUserSpace_failsAt (hnone sender) _ _).bind

end NoPackage

/-! ## The invariant -/

/-- The record `upload_declaration` writes for a new hash: pending, of size 0, owned by its
declarer alone, who is also named its miner. -/
def IsDeclaration (f : FileInfo) : Prop :=
  ∃ acc name, f =
    { fileSize := 0, blockNum := 0, scanSize := 0, segmentSize := 0, minerAcc := acc,
      minerId := 0, minerIp := [], user := [acc], fileName := [name], fileState := pendingTag }

/-- No account has a package, and every record is a declaration. -/
structure Lifecycle (s : Store) : Prop where
  noPackage : ∀ acc, s.purchasedPackage acc = none
  declared : EveryFile IsDeclaration s

theorem fillerWrites_lifecycle : FillerWrites (fun s s' => Lifecycle s → Lifecycle s') :=
  ⟨fun _ _ _ _ h => ⟨h.1, h.2⟩, fun _ _ _ h => ⟨h.1, h.2⟩, fun _ _ h => ⟨h.1, h.2⟩⟩

theorem auxWrites_lifecycle : AuxWrites (fun s s' => Lifecycle s → Lifecycle s') :=
  ⟨fun _ _ _ h => ⟨h.1, h.2⟩, fun _ _ _ h => ⟨h.1, h.2⟩, fun _ _ h => ⟨h.1, h.2⟩⟩

/-- What a call may leave: the store it found, or that store with one declaration written. -/
def DeclaresAtMostOne (s s' : Store) : Prop :=
  s' = s ∨ ∃ h d, IsDeclaration d ∧ s' = (fileSlot h).write (some d) s

/-- From a store of the invariant, `upload_declaration` writes one declaration (a new hash)
or nothing (a second owner's fails in `update_user_space`). -/
theorem uploadDeclaration_writes (env : Env) (origin : Origin) (fileHash fileName : Bytes) :
    Steps (fun s s' => Lifecycle s → DeclaresAtMostOne s s')
      (uploadDeclaration env origin fileHash fileName) := by
  have hrefl : ∀ s, Lifecycle s → DeclaresAtMostOne s s := fun _ _ => .inl rfl
  unfold uploadDeclaration
  refine ReadOnly.bind_steps (readOnly_ensureSigned _) (fun sender => ?_) hrefl
  refine ReadOnly.bind_steps (readOnly_okOr _ _) (fun hb => ?_) hrefl
  refine ReadOnly.bind_steps (readOnly_okOr _ _) (fun nb => ?_) hrefl
  refine Slot.get_bind_steps fun cur => ?_
  split
  · exact fun s _ => FailsAt.steps hrefl
      (fun s hs => Slot.tryMutate_failsAt (addOwner_failsAt hs.noPackage _ _ _ _ _)) s
  · refine okOr_bind_steps (fun s _ => hrefl s) fun _ huser => ?_
    refine okOr_bind_steps (fun s _ => hrefl s) fun _ hname => ?_
    refine okOr_bind_steps (fun s _ => hrefl s) fun _ hstate => ?_
    obtain ⟨-, rfl⟩ := tryInto_eq_some.mp huser
    obtain ⟨-, rfl⟩ := tryInto_eq_some.mp hname
    obtain ⟨-, rfl⟩ := tryInto_eq_some.mp hstate
    exact Slot.steps_put fun _ _ _ => .inr ⟨_, _, ⟨_, _, rfl⟩, rfl⟩

theorem preserves_uploadDeclaration (env : Env) (origin : Origin) (fileHash fileName : Bytes) :
    Preserves Lifecycle (uploadDeclaration env origin fileHash fileName) := fun s hs => by
  rcases uploadDeclaration_writes env origin fileHash fileName s hs with h | ⟨_, _, hd, h⟩ <;>
    rw [h]
  · exact hs
  · exact ⟨hs.noPackage, everyFile_write hs.declared _ hd⟩

theorem preserves_clearFile (env : Env) (fileHash : Bytes) :
    Preserves Lifecycle (clearFile env fileHash) :=
  ReadOnly.bind_steps (readOnly_okOr _ _) (fun _ => ReadOnly.bind_steps (Slot.readOnly_get _)
    (fun _ => ReadOnly.bind_steps (readOnly_ensure _ _)
      (fun _ => Slot.steps_put fun _ hs => ⟨hs.noPackage, everyFile_remove hs.declared _⟩)
      fun _ => id) fun _ => id) fun _ => id

/-- Every call keeps the invariant, whatever its outcome. -/
theorem Call.preserves_lifecycle (env : Env) (c : Call) : Preserves Lifecycle (c.run env) := by
  have hc := chain_imp Lifecycle
  cases c with
  | uploadDeclaration o h n => exact preserves_uploadDeclaration env o h n
  | upload o h size block scan segment miner id ip user =>
    exact FailsAt.preserves fun _ hs => upload_failsAt hs.noPackage _ _ _ _ _ _ _ _ _ _ _
  | uploadFiller o miner fillers =>
    exact steps_uploadFiller hc fillerWrites_lifecycle auxWrites_lifecycle env o miner fillers
  | deleteFile o h => exact FailsAt.preserves fun _ hs => deleteFile_failsAt hs.noPackage _ _ _
  | buyPackage o ty count =>
    exact FailsAt.preserves fun _ hs => buyPackage_failsAt hs.noPackage _ _ _ _
  | clearInvalidFile o h => exact steps_clearInvalidFile hc.refl env o h fun _ _ _ h => ⟨h.1, h.2⟩
  | addMember o acc => exact steps_addMember hc ⟨fun _ _ h => ⟨h.1, h.2⟩⟩ env o acc
  | delMember o acc => exact steps_delMember hc ⟨fun _ _ h => ⟨h.1, h.2⟩⟩ o acc
  | clearAllFiller o => exact steps_clearAllFiller hc fillerWrites_lifecycle env o
  | deleteFiller miner id => exact steps_deleteFiller hc fillerWrites_lifecycle env miner id
  | deleteMinerAllFiller miner => exact steps_deleteMinerAllFiller fillerWrites_lifecycle miner
  | clearFile h => exact preserves_clearFile env h
  | addInvalidFile miner h => exact steps_addInvalidFile hc auxWrites_lifecycle env miner h

theorem Lifecycle.of_reachable {s : Store} (hs : Reachable s) : Lifecycle s :=
  Reachable.of_preserves ⟨fun _ => rfl, fun _ _ h => nomatch h⟩ Call.preserves_lifecycle hs

/-! ## The laws -/

/-- In every store reachable from empty storage, no account has a package, every `File`
record is a lone declarer's pending declaration, and every `upload`, `delete_file` and
`buy_package` fails without writing: no file is ever committed, deleted by an owner, or
paid for. -/
theorem reachable_files_stay_declared {s : Store} (hs : Reachable s) :
    (∀ acc, s.purchasedPackage acc = none) ∧
    (∀ h f, s.file.get h = some f → IsDeclaration f) ∧
    (∀ env origin fileHash fileSize blockNum scanSize segmentSize minerAcc minerId minerIp user,
      FailsAt (upload env origin fileHash fileSize blockNum scanSize segmentSize minerAcc minerId
        minerIp user) s) ∧
    (∀ env origin fileid, FailsAt (deleteFile env origin fileid) s) ∧
    (∀ env origin packageType count, FailsAt (buyPackage env origin packageType count) s) :=
  have hl := Lifecycle.of_reachable hs
  ⟨hl.noPackage, hl.declared, upload_failsAt hl.noPackage, deleteFile_failsAt hl.noPackage,
    buyPackage_failsAt hl.noPackage⟩

/-- Account 1 declares file `[1]`, then coordinator 9 stores a one-block filler `[3]` for
miner 5. -/
def declaredWithFillerStore : Store :=
  (Call.uploadFiller (.signed 9) 5 [⟨1, 1, 0, 5, [3]⟩]).next Env.accepting
    ((Call.uploadDeclaration (.signed 1) [1] [1]).next Env.accepting Store.empty)

theorem declaredWithFillerStore_reachable : Reachable declaredWithFillerStore :=
  .step _ _ (.step _ _ .empty)

theorem declared_file_stays_declared :
    (∀ acc, declaredWithFillerStore.purchasedPackage acc = none) ∧
    (∀ h f, declaredWithFillerStore.file.get h = some f → IsDeclaration f) ∧
    (∀ env origin fileHash fileSize blockNum scanSize segmentSize minerAcc minerId minerIp user,
      FailsAt (upload env origin fileHash fileSize blockNum scanSize segmentSize minerAcc minerId
        minerIp user) declaredWithFillerStore) ∧
    (∀ env origin fileid, FailsAt (deleteFile env origin fileid) declaredWithFillerStore) ∧
    (∀ env origin packageType count,
      FailsAt (buyPackage env origin packageType count) declaredWithFillerStore) :=
  reachable_files_stay_declared declaredWithFillerStore_reachable

/-- In every reachable store, every challenge `get_random_challenge_data` returns is the
challenge of a sampled filler: no record is active, so no file is ever sampled. -/
theorem reachable_challenges_fillers_only {s : Store} (hs : Reachable s) {env : Env}
    {data : List Challenge} (h : getRandomChallengeData env s = .ok data) :
    ∃ vs, getRandomFiller env s = .ok vs ∧ List.Forall₂ Challenge.OfFiller data vs := by
  obtain ⟨vs, fs, cs₁, cs₂, hvs, hcs₁, hfs, hcs₂, rfl⟩ := getRandomChallengeData_eq_ok h
  have hnil : fs = [] := List.eq_nil_iff_forall_not_mem.mpr fun e he => by
    obtain ⟨-, hmem, hact⟩ := getRandomFile_spec hfs
    obtain ⟨acc, name, hf⟩ := (Lifecycle.of_reachable hs).declared e.1 e.2
      (StorageMap.mem_entries_iff.mp (hmem e he).1)
    have := (hmem e he).2
    simp [isActive, hf, pendingTag, activeTag] at this
  subst hnil
  cases hcs₂
  exact ⟨vs, hvs, by simpa using fillerChallenges_spec hcs₁⟩

/-- The declared file is not challenged; the filler is. -/
theorem declared_file_unchallenged :
    ∃ vs, getRandomFiller Env.accepting declaredWithFillerStore = .ok vs ∧
      List.Forall₂ Challenge.OfFiller [⟨5, [3], [0], 1, 1, 0⟩] vs :=
  reachable_challenges_fillers_only declaredWithFillerStore_reachable rfl

end Cess.FileBank
