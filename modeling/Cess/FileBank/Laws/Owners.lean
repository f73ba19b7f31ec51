import Cess.FileBank.Laws.Quota

/-!
# Owner laws

What the `File` records' owner lists and the held-file index keep, and what they do not.

* Every record's owner list is non-empty, free of repeats, and as long as its name list
  (`OwnersWellFormed`), from every store where this holds: a declaration appends only an
  absent owner, and to both lists or (when a bound is hit) to neither, since `try_mutate`
  drops its closure's value; a removal takes one position out of both lists, and only while
  another owner remains.
* In such a store, the two `remove(index)` calls of `clear_user_file` find their index in
  both lists (`removeOwner_eq_ok_of_ownersWF`), and a deletion that returns `Ok` takes out
  exactly the deleting owner's (owner, name) pair, the others keeping their order
  (`deleteFile_removes_owner_pair`).
* Deleting an owned file panics in every reachable store (`deleteFile_panics_of_reachable`):
  the deletion branch of `update_user_space` unwraps the owner's package, and no account has
  one.
* The held-file index does not mirror ownership: `upload` indexes the file for the owner it
  commits for, even when that owner indexed it on joining.
-/

set_option autoImplicit false

namespace Cess.FileBank

/-! ## Properties of every record -/

/-- Every `File` record satisfies `Q`. -/
def EveryFile (Q : FileInfo → Prop) (s : Store) : Prop :=
  ∀ h f, s.file.get h = some f → Q f

section EveryFile

variable {Q : FileInfo → Prop} {s : Store}

theorem everyFile_write (hs : EveryFile Q s) (h : Bytes) {f : FileInfo} (hf : Q f) :
    EveryFile Q ((fileSlot h).write (some f) s) := by
  intro h' f' hget
  simp only [fileSlot, StorageMap.get_set] at hget
  split at hget
  · cases hget; exact hf
  · exact hs h' f' hget

theorem everyFile_remove (hs : EveryFile Q s) (h : Bytes) :
    EveryFile Q ((fileSlot h).write none s) := by
  intro h' f' hget
  simp only [fileSlot, StorageMap.get_set] at hget
  split at hget
  · cases hget
  · exact hs h' f' hget

/-- A property of the `File` map alone is kept by every write to another map. -/
theorem pkgWrites_file (P : StorageMap Bytes FileInfo → Prop) :
    PkgWrites (fun s s' => P s.file → P s'.file) :=
  ⟨⟨fun _ _ _ _ _ _ _ _ _ => id, fun _ _ _ _ _ _ _ => id⟩, fun _ _ _ _ _ _ _ _ _ => id⟩

theorem fillerWrites_file (P : StorageMap Bytes FileInfo → Prop) :
    FillerWrites (fun s s' => P s.file → P s'.file) :=
  ⟨fun _ _ _ _ => id, fun _ _ _ => id, fun _ _ => id⟩

theorem auxWrites_file (P : StorageMap Bytes FileInfo → Prop) :
    AuxWrites (fun s s' => P s.file → P s'.file) :=
  ⟨fun _ _ _ => id, fun _ _ _ => id, fun _ _ => id⟩

variable
  (hdeclare : ∀ (sender : AccountId) (name : Bytes),
    Q { fileSize := 0, blockNum := 0, scanSize := 0, segmentSize := 0, minerAcc := sender,
        minerId := 0, minerIp := [], user := [sender], fileName := [name],
        fileState := pendingTag })
  (haddOwner : ∀ f (sender : AccountId) (name : Bytes), Q f → sender ∉ f.user →
    Q { f with user := f.user ++ [sender], fileName := f.fileName ++ [name] })
  (hcommit : ∀ f (user : AccountId) (fileSize blockNum scanSize segmentSize : Nat)
    (minerAcc : AccountId) (minerId : Nat) (minerIp : Bytes), Q f → user ∈ f.user →
    Q { f with
        fileSize := fileSize, blockNum := blockNum, scanSize := scanSize,
        segmentSize := segmentSize, minerAcc := minerAcc, minerId := minerId,
        minerIp := minerIp, fileState := activeTag })
  (hremoveOwner : ∀ f (user : AccountId), Q f → user ∈ f.user → 1 < f.user.length →
    f.user.indexOf user < f.fileName.length →
    Q { f with
        user := f.user.eraseIdx (f.user.indexOf user),
        fileName := f.fileName.eraseIdx (f.user.indexOf user) })

include hdeclare haddOwner hcommit hremoveOwner in
theorem fileWrites_everyFile : FileWrites (fun s s' => EveryFile Q s → EveryFile Q s') :=
  ⟨fun _ h sender name _ hs => everyFile_write hs h (hdeclare sender name),
    fun _ h f sender name hf hnot hs => everyFile_write hs h (haddOwner f sender name (hs h f hf) hnot),
    fun _ h f user _ _ _ _ _ _ _ hf hu _ hs =>
      everyFile_write hs h (hcommit f user _ _ _ _ _ _ _ (hs h f hf) hu),
    fun _ h f user hf hu hlen hidx hs =>
      everyFile_write hs h (hremoveOwner f user (hs h f hf) hu hlen hidx),
    fun _ h hs => everyFile_remove hs h⟩

include hdeclare haddOwner hcommit hremoveOwner in
/-- A property of every record that each write of `File` keeps is kept by every call,
whatever its outcome. -/
theorem everyFile_next (env : Env) (c : Call) (hs : EveryFile Q s) : EveryFile Q (c.next env s) :=
  Call.next_rel (chain_imp _) (fileWrites_everyFile hdeclare haddOwner hcommit hremoveOwner)
    (pkgWrites_file fun m => ∀ h f, m.get h = some f → Q f)
    (fillerWrites_file fun m => ∀ h f, m.get h = some f → Q f)
    (auxWrites_file fun m => ∀ h f, m.get h = some f → Q f) ⟨fun _ _ => id⟩ ⟨fun _ _ _ => id⟩
    env c s hs

end EveryFile

/-! ## Well-formed owner lists -/

/-- An owner list that is non-empty, free of repeats, and as long as the name list. -/
structure OwnersWF (f : FileInfo) : Prop where
  nonempty : f.user ≠ []
  nodup : f.user.Nodup
  names : f.fileName.length = f.user.length

/-- Every `File` record has a well-formed owner list. -/
def OwnersWellFormed (s : Store) : Prop := EveryFile OwnersWF s

theorem ownersWF_addOwner {f : FileInfo} {sender : AccountId} (name : Bytes) (hf : OwnersWF f)
    (hnot : sender ∉ f.user) :
    OwnersWF { f with user := f.user ++ [sender], fileName := f.fileName ++ [name] } :=
  ⟨by simp, hf.nodup.append (List.nodup_singleton _) (List.disjoint_singleton.2 hnot),
    by simp [hf.names]⟩

theorem ownersWF_removeOwner {f : FileInfo} {user : AccountId} (hf : OwnersWF f)
    (hu : user ∈ f.user) (hlen : 1 < f.user.length) (hidx : f.user.indexOf user < f.fileName.length) :
    OwnersWF { f with
      user := f.user.eraseIdx (f.user.indexOf user),
      fileName := f.fileName.eraseIdx (f.user.indexOf user) } := by
  have hlt : f.user.indexOf user < f.user.length := List.indexOf_lt_length.mpr hu
  have hu' : (f.user.eraseIdx (f.user.indexOf user)).length = f.user.length - 1 :=
    List.length_eraseIdx_of_lt hlt
  refine ⟨fun h => ?_, hf.nodup.eraseIdx _, ?_⟩
  · have := congrArg List.length h
    simp only [hu', List.length_nil] at this
    omega
  · simp only [List.length_eraseIdx_of_lt hidx, hu', hf.names]

/-- From a store where every owner list is well formed, every call leaves one where every
owner list still is. -/
theorem owners_well_formed (env : Env) (c : Call) {s : Store} (hs : OwnersWellFormed s) :
    OwnersWellFormed (c.next env s) :=
  everyFile_next (fun _ _ => ⟨List.cons_ne_nil _ _, List.nodup_singleton _, rfl⟩)
    (fun _ _ name hf hnot => ownersWF_addOwner name hf hnot)
    (fun _ _ _ _ _ _ _ _ _ hf _ => ⟨hf.nonempty, hf.nodup, hf.names⟩)
    (fun _ _ hf hu hlen hidx => ownersWF_removeOwner hf hu hlen hidx) env c hs

theorem coOwnedStore_ownersWellFormed : OwnersWellFormed coOwnedStore := fun h f hf => by
  simp only [coOwnedStore, StorageMap.get_insert, StorageMap.get_empty] at hf
  split at hf
  · cases hf
    exact ⟨List.cons_ne_nil _ _, by decide, rfl⟩
  · cases hf

/-- Account 3 joins the co-owned file by declaring it again: its three owners stay distinct,
each with a name. -/
theorem owners_well_formed_declared :
    OwnersWellFormed
      ((Call.uploadDeclaration (.signed 3) [1] [3]).next Env.accepting coOwnedStore) ∧
    ((Call.uploadDeclaration (.signed 3) [1] [3]).next Env.accepting coOwnedStore).file.get [1] =
      some ⟨0, 0, 0, 0, 1, 0, [], [1, 2, 3], [[1], [2], [3]], pendingTag⟩ :=
  ⟨owners_well_formed Env.accepting (.uploadDeclaration (.signed 3) [1] [3])
    coOwnedStore_ownersWellFormed, rfl⟩

/-! ## The owner removal of `clear_user_file` -/

/-- The owner search reaches an owner's position when the count fits a `usize`. -/
theorem ownerIndex_of_mem {user : AccountId} {l : List AccountId} {index : Nat} (hu : user ∈ l)
    (hfit : index + l.indexOf user < 2 ^ usizeBits) (s : Store) :
    ownerIndex user l index s = .ok (index + l.indexOf user) s := by
  induction l generalizing index with
  | nil => cases hu
  | cons acc rest ih =>
    unfold ownerIndex
    by_cases hacc : acc = user
    · simp only [hacc, if_true, List.indexOf_cons_self, Nat.add_zero]; rfl
    · have hu' : user ∈ rest := (List.mem_cons.mp hu).resolve_left (Ne.symm hacc)
      rw [List.indexOf_cons_ne _ hacc] at hfit ⊢
      rw [if_neg hacc, bind_of_ok (show okOr (checkedAdd usizeBits index 1) .overflow s =
        .ok (index + 1) s by simp [okOr, checkedAdd, show index + 1 < 2 ^ usizeBits by omega]),
        ih hu' (by omega)]
      congr 1
      omega

theorem removeAt_of_lt {α : Type} {l : List α} {index : Nat} (h : index < l.length) (s : Store) :
    removeAt l index s = .ok (l.eraseIdx index) s := by
  simp only [removeAt, if_pos h]; rfl

/-- On a well-formed owner list that names the owner, both `remove(index)` calls find their
index. -/
theorem removeOwner_eq_ok_of_ownersWF {f : FileInfo} {user : AccountId} (hf : OwnersWF f)
    (hu : user ∈ f.user) (hfit : f.user.length ≤ 2 ^ usizeBits) (s : Store) :
    removeOwner user (some f) s = .ok (some { f with
      user := f.user.eraseIdx (f.user.indexOf user),
      fileName := f.fileName.eraseIdx (f.user.indexOf user) }) s := by
  have hidx : f.user.indexOf user < f.user.length := List.indexOf_lt_length.mpr hu
  unfold removeOwner
  rw [bind_of_ok (show unwrap (some f) s = .ok f s from rfl),
    bind_of_ok (ownerIndex_of_mem hu (by omega) s), Nat.zero_add,
    bind_of_ok (removeAt_of_lt hidx s), bind_of_ok (removeAt_of_lt (hf.names ▸ hidx) s)]
  rfl

/-- Removing one position from two parallel lists removes the pair at that position. -/
theorem zip_eraseIdx {α β : Type} : ∀ (l₁ : List α) (l₂ : List β) (i : Nat),
    (l₁.eraseIdx i).zip (l₂.eraseIdx i) = (l₁.zip l₂).eraseIdx i
  | [], _, _ => rfl
  | _ :: _, [], _ => by simp
  | _ :: _, _ :: _, 0 => rfl
  | a :: l₁, b :: l₂, i + 1 => by simp [zip_eraseIdx l₁ l₂ i]

/-- Against distinct owners, the pair at an owner's position is the owner's only pair. -/
theorem zip_eraseIdx_indexOf {β : Type} {acc : AccountId} :
    ∀ {l₁ : List AccountId} (l₂ : List β), l₁.Nodup →
      (l₁.zip l₂).eraseIdx (l₁.indexOf acc) = (l₁.zip l₂).filter fun p => p.1 ≠ acc
  | [], _, _ => rfl
  | _ :: _, [], _ => rfl
  | x :: l₁, y :: l₂, hnd => by
    rw [List.nodup_cons] at hnd
    by_cases hx : x = acc
    · subst hx
      have hrest : ∀ p ∈ l₁.zip l₂, decide (p.1 ≠ x) = true := fun p hp =>
        decide_eq_true fun h => hnd.1 (h ▸ (List.of_mem_zip hp).1)
      simpa using (List.filter_eq_self.mpr hrest).symm
    · simp [List.indexOf_cons_ne _ hx, hx, zip_eraseIdx_indexOf l₂ hnd.2]

/-- Taking a distinct owner's position out of two parallel lists of one length leaves every
other owner paired with their name, in order. -/
theorem eraseIdx_indexOf_eq_filter {β : Type} {acc : AccountId} {l₁ : List AccountId}
    {l₂ : List β} (hnd : l₁.Nodup) (hlen : l₁.length = l₂.length) :
    l₁.eraseIdx (l₁.indexOf acc) = ((l₁.zip l₂).filter fun p => p.1 ≠ acc).map Prod.fst ∧
      l₂.eraseIdx (l₁.indexOf acc) = ((l₁.zip l₂).filter fun p => p.1 ≠ acc).map Prod.snd := by
  have hl : (l₁.eraseIdx (l₁.indexOf acc)).length = (l₂.eraseIdx (l₁.indexOf acc)).length := by
    simp only [List.length_eraseIdx, hlen]
  rw [← zip_eraseIdx_indexOf l₂ hnd, ← zip_eraseIdx]
  exact ⟨(List.map_fst_zip _ _ hl.le).symm, (List.map_snd_zip _ _ hl.ge).symm⟩

/-- When `clear_user_file` returns `Ok` on a record with another owner, the record has lost
the owner's position in both lists. -/
theorem clearUserFile_eq_ok_of_shared {env : Env} {h : Bytes} {acc : AccountId} {f : FileInfo}
    {s s' : Store} {u : Unit} (hget : s.file.get h = some f) (htwo : 2 ≤ f.user.length)
    (hok : clearUserFile env h acc s = .ok u s') :
    s'.file.get h = some { f with
      user := f.user.eraseIdx (f.user.indexOf acc),
      fileName := f.fileName.eraseIdx (f.user.indexOf acc) } := by
  simp only [clearUserFile, bind_eq_ok, Slot.get_eq_ok, ensure_eq_ok, unwrap_eq_ok] at hok
  obtain ⟨_, _, ⟨rfl, rfl⟩, f', _, ⟨hf', rfl⟩, _, _, ⟨-, rfl⟩, _, s₁, h₁, _, s₂, h₂, hs'⟩ := hok
  obtain rfl : f = f' := Option.some_injective _ (hget.symm.trans hf')
  rw [← (steps_updateUserSpace chain_fileKept usageWrites_fileKept _ _ _).of_ok h₁] at hget
  rw [if_pos (by omega)] at h₂
  obtain ⟨v, _, hrm, rfl⟩ := Slot.tryMutate_eq_ok.mp h₂
  obtain ⟨rfl, f'', hf'', -, -, rfl⟩ := removeOwner_eq_ok hrm
  obtain rfl : f = f'' := Option.some_injective _ (hget.symm.trans hf'')
  obtain ⟨_, _, hpure, rfl⟩ := Slot.tryMutate_eq_ok.mp hs'
  obtain ⟨rfl, rfl⟩ := pure_eq_ok.mp hpure
  simp only [holdSlot, fileSlot_write_file, StorageMap.get_set, if_pos]

/-- When an owner's `delete_file` of a record with distinct owners, as many names, and
another owner returns `Ok`, the record loses exactly the deleting owner's (owner, name) pair:
every other owner keeps their name, in the order they had, and no other field changes. -/
theorem deleteFile_removes_owner_pair {env : Env} {acc : AccountId} {h : Bytes} {f : FileInfo}
    {s s' : Store} {u : Unit} (hget : s.file.get h = some f) (hnodup : f.user.Nodup)
    (hnames : f.user.length = f.fileName.length) (htwo : 2 ≤ f.user.length)
    (hok : deleteFile env (.signed acc) h s = .ok u s') :
    s'.file.get h = some { f with
      user := ((f.user.zip f.fileName).filter fun p => p.1 ≠ acc).map Prod.fst,
      fileName := ((f.user.zip f.fileName).filter fun p => p.1 ≠ acc).map Prod.snd } := by
  simp only [deleteFile, vecToBound, bind_eq_ok, ensureSigned_eq_ok, okOr_eq_ok, tryInto_eq_some,
    Slot.get_eq_ok, ensure_eq_ok, Origin.signed.injEq] at hok
  obtain ⟨_, _, ⟨rfl, rfl⟩, _, _, ⟨⟨-, rfl⟩, rfl⟩, _, _, ⟨rfl, rfl⟩, _, _, ⟨-, rfl⟩, hok⟩ := hok
  obtain ⟨husers, hnames'⟩ := @eraseIdx_indexOf_eq_filter _ acc _ _ hnodup hnames
  rw [clearUserFile_eq_ok_of_shared hget htwo hok, husers, hnames']

/-- Account 1 leaves the co-owned file: account 2 stays with its name. -/
theorem coOwner_leaves_pair :
    (storeOf (deleteFile Env.accepting (.signed 1) [1] coOwnedStore)).file.get [1] =
      some ⟨0, 0, 0, 0, 1, 0, [], [2], [[2]], pendingTag⟩ :=
  @deleteFile_removes_owner_pair Env.accepting 1 [1] ⟨0, 0, 0, 0, 1, 0, [], [1, 2], [[1], [2]],
    pendingTag⟩ coOwnedStore _ () rfl (by decide) rfl (by decide) rfl

/-! ## Deletion in reachable stores -/

/-- In every reachable store, an owner's deletion of a file panics: the deletion branch of
`update_user_space` unwraps the owner's package, and no account has one. -/
theorem deleteFile_panics_of_reachable {s : Store} (hs : Reachable s) (env : Env)
    {acc : AccountId} {h : Bytes} {f : FileInfo} (hget : s.file.get h = some f)
    (hu : acc ∈ f.user) (hlen : h.length ≤ env.stringLimit) :
    deleteFile env (.signed acc) h s = .error .panic s := by
  have hnone := reachable_purchasedPackage_eq_none hs acc
  simp [deleteFile, vecToBound, clearUserFile, updateUserSpace, Slot.tryMutate, deleteSpace, bind,
    EStateM.bind, ensureSigned, okOr, tryInto, hlen, Slot.get, read, fileSlot, hget, ensure, hu,
    unwrap, packageSlot, hnone, pure, EStateM.pure, EStateM.throw]

/-- Account 1 declares file `[1]` on empty storage and then deletes it: the deletion panics. -/
theorem declared_file_deletion_panics :
    Reachable ((Call.uploadDeclaration (.signed 1) [1] [1]).next Env.accepting Store.empty) ∧
    deleteFile Env.accepting (.signed 1) [1]
        ((Call.uploadDeclaration (.signed 1) [1] [1]).next Env.accepting Store.empty) =
      .error .panic ((Call.uploadDeclaration (.signed 1) [1] [1]).next Env.accepting Store.empty) :=
  ⟨.step _ _ .empty, rfl⟩

/-! ## The held-file index -/

/-- Every account's held-file index names each hash once, and only files the account owns. -/
def HeldIndexMirrors (s : Store) : Prop :=
  ∀ acc, ((s.holdList acc).map UserFileSliceInfo.fileHash).Nodup ∧
    ∀ e ∈ s.holdList acc, ∃ f, s.file.get e.fileHash = some f ∧ acc ∈ f.user

/-- Committing the co-owned file for account 2, which indexed it on joining, indexes it for
account 2 a second time. -/
theorem upload_duplicates_held_entry : HeldIndexMirrors coOwnedStore ∧
    ∃ s', upload Env.accepting (.signed 9) [1] 10 0 0 0 5 0 [] 2 coOwnedStore = .ok () s' ∧
      ¬ HeldIndexMirrors s' := by
  refine ⟨fun acc => ?_, _, rfl, fun h => absurd (h 2).1 (by decide)⟩
  by_cases hacc : acc = 2
  · subst hacc
    refine ⟨by decide, fun e he => ?_⟩
    obtain rfl : e = ⟨[1], 0⟩ := by simpa [Store.holdList, coOwnedStore] using he
    exact ⟨_, rfl, by decide⟩
  · simp [Store.holdList, coOwnedStore, hacc]

end Cess.FileBank
