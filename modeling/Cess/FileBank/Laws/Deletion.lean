import Cess.FileBank.Laws.Owners

/-!
# Deletion

What `clear_user_file` writes when it returns `Ok`, and what `clear_expired_file` makes of it.

`clear_user_file` first refunds the owner through `update_user_space`'s deletion branch, then
either takes the owner out of the record (other owners remain) or removes the record, queues
its hash for the miner and tells `MinerControl` to take back the file's power and space (the
owner was the last), and finally drops the hash from the owner's held-file index. Each of
these writes a different map, so the store it leaves is spelled out once
(`clearUserFile_eq_ok`).

**The law** (`clearExpiredFile_clears`): when `clear_expired_file` returns `Ok` from a store
whose owner lists are well formed, the account owns none of the files its index listed, its
index is empty, and the owner lists are still well formed. The loop walks the index as it
was read, and each step only takes owners out of records (`OwnersShrink`), so a file the loop
has left stays left.
-/

set_option autoImplicit false

namespace Cess.FileBank

/-! ## The store `clear_user_file` leaves -/

theorem addInvalidFile_eq_ok {env : Env} {minerAcc : AccountId} {fileHash : Bytes}
    {s s' : Store} {u : Unit} (h : addInvalidFile env minerAcc fileHash s = .ok u s') :
    fileHash.length ≤ env.stringLimit ∧ (s.invalidFile minerAcc).length < env.stringLimit ∧
      s' = (invalidSlot minerAcc).write (s.invalidFile minerAcc ++ [fileHash]) s := by
  simp only [addInvalidFile, Slot.tryMutate_eq_ok, bind_eq_ok, okOr_eq_ok, tryInto_eq_some,
    tryPush_eq_some] at h
  obtain ⟨_, _, ⟨_, _, ⟨⟨hlen, rfl⟩, rfl⟩, ⟨hroom, rfl⟩, rfl⟩, rfl⟩ := h
  exact ⟨hlen, hroom, rfl⟩

/-- A `clear_user_file` that returns `Ok` found the record and the owner's package, refunded
the file's size, and then took the owner out of the record (other owners remain) or removed
the record, queued its hash for the miner and recorded the two `MinerControl` calls (the
owner was the last); in both cases it dropped the hash from the owner's index. -/
theorem clearUserFile_eq_ok {env : Env} {fileHash : Bytes} {user : AccountId} {s s' : Store}
    {u : Unit} (hok : clearUserFile env fileHash user s = .ok u s') :
    ∃ f p, s.file.get fileHash = some f ∧ user ∈ f.user ∧ s.purchasedPackage user = some p ∧
      f.fileSize ≤ p.usedSpace ∧ p.usedSpace - f.fileSize ≤ p.space ∧
      ((1 < f.user.length ∧ f.user.indexOf user < f.fileName.length ∧
        s' = { s with
          file := s.file.set fileHash (some { f with
            user := f.user.eraseIdx (f.user.indexOf user),
            fileName := f.fileName.eraseIdx (f.user.indexOf user) })
          purchasedPackage := Function.update s.purchasedPackage user (some { p with
            usedSpace := p.usedSpace - f.fileSize,
            remainingSpace := p.space - (p.usedSpace - f.fileSize) })
          userHoldFileList := Function.update s.userHoldFileList user
            (some ((s.holdList user).filter (·.fileHash ≠ fileHash))) }) ∨
      (f.user.length ≤ 1 ∧
        s' = { s with
          file := s.file.set fileHash none
          purchasedPackage := Function.update s.purchasedPackage user (some { p with
            usedSpace := p.usedSpace - f.fileSize,
            remainingSpace := p.space - (p.usedSpace - f.fileSize) })
          invalidFile := Function.update s.invalidFile f.minerAcc
            (s.invalidFile f.minerAcc ++ [fileHash])
          userHoldFileList := Function.update s.userHoldFileList user
            (some ((s.holdList user).filter (·.fileHash ≠ fileHash)))
          calls := s.calls ++ [.subPower f.minerAcc f.fileSize] ++
            [.subSpace f.minerAcc f.fileSize] })) := by
  simp only [clearUserFile, bind_eq_ok, Slot.get_eq_ok, ensure_eq_ok, unwrap_eq_ok] at hok
  obtain ⟨_, _, ⟨rfl, rfl⟩, f, _, ⟨hf, rfl⟩, _, _, ⟨hmem, rfl⟩, _, s₁, h₁, _, s₂, h₂, hs'⟩ := hok
  simp only [updateUserSpace, Slot.tryMutate_eq_ok] at h₁
  obtain ⟨_, _, hdel, rfl⟩ := h₁
  obtain ⟨rfl, p, hp, hle, hsp, rfl⟩ := deleteSpace_eq_ok hdel
  obtain ⟨_, _, hpure, rfl⟩ := Slot.tryMutate_eq_ok.mp hs'
  obtain ⟨rfl, rfl⟩ := pure_eq_ok.mp hpure
  refine ⟨f, p, hf, hmem, hp, hle, hsp, ?_⟩
  by_cases hlen : f.user.length > 1
  · rw [if_pos hlen] at h₂
    obtain ⟨v, _, hrm, rfl⟩ := Slot.tryMutate_eq_ok.mp h₂
    obtain ⟨rfl, f', hf', -, hidx, rfl⟩ := removeOwner_eq_ok hrm
    obtain rfl : f = f' := Option.some_injective _ (hf.symm.trans hf')
    exact .inl ⟨hlen, hidx, rfl⟩
  · rw [if_neg hlen] at h₂
    simp only [bind_eq_ok, Slot.put_eq_ok, external_eq_ok] at h₂
    obtain ⟨_, _, rfl, _, _, hinv, _, _, ⟨-, rfl⟩, -, rfl⟩ := h₂
    obtain ⟨-, -, rfl⟩ := addInvalidFile_eq_ok hinv
    exact .inr ⟨Nat.le_of_not_gt hlen, rfl⟩

/-! ## Clearing an account's files -/

/-- No record gains an owner: every record of `s'` is a record of `s` whose owners include
its owners. -/
def OwnersShrink (s s' : Store) : Prop :=
  ∀ h f', s'.file.get h = some f' → ∃ f, s.file.get h = some f ∧ f'.user.Sublist f.user

theorem OwnersShrink.refl (s : Store) : OwnersShrink s s :=
  fun _ f' h => ⟨f', h, List.Sublist.refl _⟩

theorem OwnersShrink.trans {a b c : Store} (h₁ : OwnersShrink a b) (h₂ : OwnersShrink b c) :
    OwnersShrink a c := fun h f'' hc =>
  let ⟨f', hb, hsub'⟩ := h₂ h f'' hc
  let ⟨f, ha, hsub⟩ := h₁ h f' hb
  ⟨f, ha, hsub'.trans hsub⟩

/-- A write of one record that keeps its owners to a sublist, or removes it. -/
theorem OwnersShrink.of_set {s s' : Store} (h : Bytes) (v : Option FileInfo)
    (hfile : s'.file = s.file.set h v)
    (hv : ∀ f', v = some f' → ∃ f, s.file.get h = some f ∧ f'.user.Sublist f.user) :
    OwnersShrink s s' := fun k f' hf' => by
  rw [hfile, StorageMap.get_set] at hf'
  split at hf'
  · next hk => exact hk ▸ hv f' hf'
  · exact ⟨f', hf', List.Sublist.refl _⟩

/-- One turn of `clear_expired_file`'s loop, from well-formed owner lists: they stay well
formed, no record gains an owner, the owner is out of the record it cleared (whose owners are
distinct), and its index has lost that hash. -/
theorem clearUserFile_step {env : Env} {fileHash : Bytes} {user : AccountId} {s s' : Store}
    {u : Unit} (hwf : OwnersWellFormed s) (hok : clearUserFile env fileHash user s = .ok u s') :
    OwnersWellFormed s' ∧ OwnersShrink s s' ∧
      (∀ f, s'.file.get fileHash = some f → user ∉ f.user) ∧
      s'.holdList user = (s.holdList user).filter (·.fileHash ≠ fileHash) := by
  obtain ⟨f, p, hget, hmem, -, -, -, ⟨hlen, hidx, rfl⟩ | ⟨-, rfl⟩⟩ := clearUserFile_eq_ok hok
  · refine ⟨everyFile_write hwf fileHash
        (ownersWF_removeOwner (hwf fileHash f hget) hmem hlen hidx),
      .of_set fileHash _ rfl fun _ hf' =>
        ⟨f, hget, Option.some.inj hf' ▸ List.eraseIdx_sublist _ _⟩,
      fun f' hf' => ?_, by simp [Store.holdList]⟩
    simp only [StorageMap.get_set, if_pos, Option.some.injEq] at hf'
    subst hf'
    rw [List.eraseIdx_indexOf_eq_erase]
    exact (hwf fileHash f hget).nodup.not_mem_erase
  · exact ⟨everyFile_remove hwf fileHash, .of_set fileHash none rfl (fun _ h => nomatch h),
      fun f' hf' => by simp at hf', by simp [Store.holdList]⟩

/-- The loop of `clear_expired_file` over a list of index entries: each file it visits is
left without the owner, and the index loses every hash of the list. -/
theorem forM_clearUserFile (env : Env) (user : AccountId) :
    ∀ (l : List UserFileSliceInfo) {s s' : Store} {u : Unit}, OwnersWellFormed s →
      l.forM (fun v => clearUserFile env v.fileHash user) s = .ok u s' →
      OwnersWellFormed s' ∧ OwnersShrink s s' ∧
        (∀ v ∈ l, ∀ f, s'.file.get v.fileHash = some f → user ∉ f.user) ∧
        s'.holdList user = (s.holdList user).filter fun e => e.fileHash ∉ l.map (·.fileHash)
  | [], _, _, _, hwf, h => by
    cases h
    exact ⟨hwf, .refl _, by simp, by simp⟩
  | v :: rest, _, _, _, hwf, h => by
    rw [List.forM_cons', bind_eq_ok] at h
    obtain ⟨_, s₁, h₁, h₂⟩ := h
    obtain ⟨wf₁, sh₁, hv, hold₁⟩ := clearUserFile_step hwf h₁
    obtain ⟨wf₂, sh₂, hrest, hold₂⟩ := forM_clearUserFile env user rest wf₁ h₂
    refine ⟨wf₂, sh₁.trans sh₂, fun w hw f hf => ?_, ?_⟩
    · rcases List.mem_cons.mp hw with rfl | hw
      · obtain ⟨f₁, hf₁, hsub⟩ := sh₂ _ f hf
        exact fun hu => hv f₁ hf₁ (hsub.subset hu)
      · exact hrest w hw f hf
    · rw [hold₂, hold₁, List.filter_filter]
      exact List.filter_congr fun e _ => by
        simp only [List.map_cons, List.mem_cons, not_or, Bool.decide_and, Bool.and_comm]

theorem clearExpiredFile_eq_ok {env : Env} {acc : AccountId} {s s' : Store} {u : Unit}
    (h : clearExpiredFile env acc s = .ok u s') :
    ∃ l, s.userHoldFileList acc = some l ∧
      l.forM (fun v => clearUserFile env v.fileHash acc) s = .ok u s' := by
  unfold clearExpiredFile at h
  rw [bind_of_ok (show read (fun s => s.userHoldFileList acc) s = .ok (s.userHoldFileList acc) s
    from rfl)] at h
  cases hl : s.userHoldFileList acc with
  | none => rw [hl] at h; cases h
  | some l =>
    rw [hl, bind_of_ok (show okOr (some l) .overflow s = .ok l s from rfl)] at h
    exact ⟨l, rfl, h⟩

/-- When `clear_expired_file` returns `Ok` from a store whose owner lists are well formed, the
account owns none of the files its index listed, its index is empty, and the owner lists are
still well formed. -/
theorem clearExpiredFile_clears {env : Env} {acc : AccountId} {s s' : Store} {u : Unit}
    (hwf : OwnersWellFormed s) (h : clearExpiredFile env acc s = .ok u s') :
    s'.holdList acc = [] ∧
      (∀ e ∈ s.holdList acc, ∀ f, s'.file.get e.fileHash = some f → acc ∉ f.user) ∧
      OwnersWellFormed s' := by
  obtain ⟨l, hl, h⟩ := clearExpiredFile_eq_ok h
  have hheld : s.holdList acc = l := by simp [Store.holdList, hl]
  obtain ⟨wf, -, hgone, hrest⟩ := forM_clearUserFile env acc l hwf h
  refine ⟨?_, hheld ▸ hgone, wf⟩
  rw [hrest, hheld, List.filter_eq_nil_iff]
  exact fun e he => by simpa using List.mem_map_of_mem (·.fileHash) he

/-- Account 2 clears the co-owned file it indexed: account 1 keeps it. -/
theorem coOwner_clears_expired :
    (storeOf (clearExpiredFile Env.accepting 2 coOwnedStore)).holdList 2 = [] ∧
      (∀ e ∈ coOwnedStore.holdList 2, ∀ f,
        (storeOf (clearExpiredFile Env.accepting 2 coOwnedStore)).file.get e.fileHash = some f →
          2 ∉ f.user) ∧
      OwnersWellFormed (storeOf (clearExpiredFile Env.accepting 2 coOwnedStore)) :=
  @clearExpiredFile_clears Env.accepting 2 coOwnedStore _ () coOwnedStore_ownersWellFormed rfl

end Cess.FileBank
