import Cess.FileBank.Laws.Footprint

/-!
# Quota laws

The ledger `update_user_space` keeps per account in `PurchasedPackage`: `used_space` against
`space`, and `remaining_space`. A property of every record (`EveryPackage`) is untouched by
the writes of the other maps, so only the three writes of `PkgWrites` need an argument
(`everyPackage_next`).

* No account holds a package in any store reachable from empty storage
  (`reachable_purchasedPackage_eq_none`): `buy_package` only rewrites the record an account
  already has.
* Usage stays within space (`QuotaWithinSpace`) from every store where it holds, whatever the
  calls and the collaborators: the deletion branch checks it, and the upload branch's
  capacity test implies it even where the unchecked difference could wrap.
* Both branches of `update_user_space` keep `used_space + remaining_space = space`, and on a
  record that is balanced the upload branch's two capacity tests agree
  (`capacity_tests_agree`). A purchase unbalances it: `add_puchased_package` builds a record
  with no remaining space.
* Usage does not follow ownership: `upload` charges only the owner it commits for, however
  many accounts declared the file while it was pending.
* `upload` is not atomic on error: it charges the quota before it checks that the owner it
  commits for declared the file.
-/

set_option autoImplicit false

namespace Cess.FileBank

/-! ## Properties of every record -/

/-- Every `PurchasedPackage` record satisfies `Q`. -/
def EveryPackage (Q : PackageDetails → Prop) (s : Store) : Prop :=
  ∀ acc p, s.purchasedPackage acc = some p → Q p

section EveryPackage

variable {Q : PackageDetails → Prop}

theorem everyPackage_write {s : Store} (hs : EveryPackage Q s) {acc : AccountId}
    {p : PackageDetails} (hp : Q p) : EveryPackage Q ((packageSlot acc).write (some p) s) := by
  intro acc' p' h
  by_cases hacc : acc' = acc
  · subst hacc
    simp only [packageSlot, Function.update_same, Option.some.injEq] at h
    exact h ▸ hp
  · exact hs acc' p' (by simpa [packageSlot, Function.update_noteq hacc] using h)

/-- A property of the package map alone is kept by every write to another map. -/
theorem fileWrites_pkg (P : (AccountId → Option PackageDetails) → Prop) :
    FileWrites (fun s s' => P s.purchasedPackage → P s'.purchasedPackage) :=
  ⟨fun _ _ _ _ _ => id, fun _ _ _ _ _ _ _ => id, fun _ _ _ _ _ _ _ _ _ _ _ _ _ _ => id,
    fun _ _ _ _ _ _ _ _ => id, fun _ _ => id⟩

theorem fillerWrites_pkg (P : (AccountId → Option PackageDetails) → Prop) :
    FillerWrites (fun s s' => P s.purchasedPackage → P s'.purchasedPackage) :=
  ⟨fun _ _ _ _ => id, fun _ _ _ => id, fun _ _ => id⟩

theorem auxWrites_pkg (P : (AccountId → Option PackageDetails) → Prop) :
    AuxWrites (fun s s' => P s.purchasedPackage → P s'.purchasedPackage) :=
  ⟨fun _ _ _ => id, fun _ _ _ => id, fun _ _ => id⟩

variable
  (hbuy : ∀ space month packageType start deadline, space < 2 ^ 128 →
    Q { space := space, usedSpace := 0, remainingSpace := 0, tenancy := month,
        packageType := packageType, start := start, deadline := deadline, state := normalTag })
  (hcredit : ∀ p size, Q p → ¬ size > wrappingSub 128 p.space p.usedSpace →
    size ≤ p.remainingSpace →
    Q { p with usedSpace := p.usedSpace + size, remainingSpace := p.remainingSpace - size })
  (hdebit : ∀ p size, Q p → size ≤ p.usedSpace → p.usedSpace - size ≤ p.space →
    Q { p with usedSpace := p.usedSpace - size, remainingSpace := p.space - (p.usedSpace - size) })

include hbuy hcredit hdebit in
theorem pkgWrites_everyPackage :
    PkgWrites (fun s s' => EveryPackage Q s → EveryPackage Q s') :=
  ⟨⟨fun _ acc p size hp _ h₁ _ h₂ hs => everyPackage_write hs (hcredit p size (hs acc p hp) h₁ h₂),
    fun _ acc p size hp h₁ h₂ hs => everyPackage_write hs (hdebit p size (hs acc p hp) h₁ h₂)⟩,
    fun _ _ _ _ _ _ _ _ hspace hs => everyPackage_write hs (hbuy _ _ _ _ _ hspace)⟩

include hbuy hcredit hdebit in
/-- A property of every record that the purchase and both branches of `update_user_space`
keep is kept by every call, whatever its outcome. -/
theorem everyPackage_next (env : Env) (c : Call) {s : Store} (hs : EveryPackage Q s) :
    EveryPackage Q (c.next env s) :=
  Call.next_rel (chain_imp _) (fileWrites_pkg fun m => ∀ acc p, m acc = some p → Q p)
    (pkgWrites_everyPackage hbuy hcredit hdebit)
    (fillerWrites_pkg fun m => ∀ acc p, m acc = some p → Q p)
    (auxWrites_pkg fun m => ∀ acc p, m acc = some p → Q p) ⟨fun _ _ => id⟩ ⟨fun _ _ _ => id⟩
    env c s hs

include hbuy hcredit hdebit in
theorem everyPackage_of_reachable {s : Store} (hs : Reachable s) : EveryPackage Q s :=
  Reachable.of_writes (fun _ _ h => nomatch h) (fileWrites_pkg fun m => ∀ acc p, m acc = some p → Q p)
    (pkgWrites_everyPackage hbuy hcredit hdebit)
    (fillerWrites_pkg fun m => ∀ acc p, m acc = some p → Q p)
    (auxWrites_pkg fun m => ∀ acc p, m acc = some p → Q p) ⟨fun _ _ => id⟩ ⟨fun _ _ _ => id⟩ hs

end EveryPackage

/-- No account holds a package in a store reachable from empty storage: the only write that
makes a record is `buy_package`'s, and it requires the record to exist already. -/
theorem reachable_purchasedPackage_eq_none {s : Store} (hs : Reachable s) (acc : AccountId) :
    s.purchasedPackage acc = none := by
  have hp : PkgWrites (fun s s' => (∀ a, s.purchasedPackage a = none) →
      ∀ a, s'.purchasedPackage a = none) :=
    ⟨⟨fun _ acc _ _ hp _ _ _ _ hs => (nomatch (hs acc).symm.trans hp),
      fun _ acc _ _ hp _ _ hs => (nomatch (hs acc).symm.trans hp)⟩,
      fun _ acc _ _ _ _ _ hacc _ hs => absurd (hs acc) hacc⟩
  exact Reachable.of_writes (fun _ => rfl) (fileWrites_pkg fun m => ∀ a, m a = none) hp
    (fillerWrites_pkg fun m => ∀ a, m a = none) (auxWrites_pkg fun m => ∀ a, m a = none)
    ⟨fun _ _ => id⟩ ⟨fun _ _ _ => id⟩ hs acc

/-! ## Usage within space -/

/-- Every record uses no more than its space. -/
def QuotaWithinSpace (s : Store) : Prop := EveryPackage (fun p => p.usedSpace ≤ p.space) s

/-- From a store where every record's usage is within its space, every call leaves a store
where it still is; and after any call from a store of that invariant whose spaces fit a
`u128`, the upload branch's unchecked `s.space - s.used_space` is the true difference. -/
theorem usage_within_space :
    (∀ env c s, QuotaWithinSpace s → QuotaWithinSpace (Call.next env c s)) ∧
    ∀ env c s, QuotaWithinSpace s → EveryPackage (fun p => p.space < 2 ^ 128) s →
      ∀ acc p, (Call.next env c s).purchasedPackage acc = some p →
        p.usedSpace ≤ p.space ∧ wrappingSub 128 p.space p.usedSpace = p.space - p.usedSpace := by
  have hcredit : ∀ (p : PackageDetails) (size : Nat), p.usedSpace ≤ p.space →
      ¬ size > wrappingSub 128 p.space p.usedSpace → size ≤ p.remainingSpace →
      p.usedSpace + size ≤ p.space :=
    fun p _ hp h _ => by have := @wrappingSub_le 128 _ _ hp; omega
  have hnext : ∀ env c s, QuotaWithinSpace s → QuotaWithinSpace (Call.next env c s) :=
    fun env c s hs => everyPackage_next (Q := fun p => p.usedSpace ≤ p.space)
      (fun _ _ _ _ _ _ => Nat.zero_le _) hcredit (fun _ _ _ _ h => h) env c hs
  refine ⟨hnext, fun env c s hs hfit acc p hp => ?_⟩
  have hwithin := hnext env c s hs acc p hp
  have hfits := everyPackage_next (Q := fun p => p.space < 2 ^ 128)
    (fun _ _ _ _ _ h => h) (fun _ _ h _ _ => h) (fun _ _ h _ _ => h) env c hfit acc p hp
  exact ⟨hwithin, wrappingSub_of_le hwithin hfits⟩

/-- Account 1 holds a committed 10-byte file `[1]` and a 100-byte package charged for it,
due at block 5. -/
def chargedStore : Store :=
  { Store.empty with
    file := StorageMap.empty.insert [1]
      { fileSize := 10, blockNum := 1, scanSize := 0, segmentSize := 0, minerAcc := 5,
        minerId := 0, minerIp := [], user := [1], fileName := [[1]], fileState := activeTag }
    userHoldFileList := fun acc => if acc = 1 then some [⟨[1], 10⟩] else none
    purchasedPackage := fun acc => if acc = 1 then some
      { space := 100, usedSpace := 10, remainingSpace := 90, tenancy := 1, packageType := 1,
        start := 0, deadline := 5, state := normalTag } else none }

theorem chargedStore_package {acc : AccountId} {p : PackageDetails}
    (h : chargedStore.purchasedPackage acc = some p) :
    p = { space := 100, usedSpace := 10, remainingSpace := 90, tenancy := 1, packageType := 1,
          start := 0, deadline := 5, state := normalTag } := by
  simp only [chargedStore] at h
  split at h <;> cases h
  rfl

/-- Account 1 deletes its charged file: the refund leaves its package within its space, with
the whole space free. -/
theorem charged_deletion_within_space :
    QuotaWithinSpace ((Call.deleteFile (.signed 1) [1]).next Env.accepting chargedStore) ∧
    ((Call.deleteFile (.signed 1) [1]).next Env.accepting chargedStore).purchasedPackage 1 =
      some { space := 100, usedSpace := 0, remainingSpace := 100, tenancy := 1,
             packageType := 1, start := 0, deadline := 5, state := normalTag } ∧
    0 ≤ 100 ∧ wrappingSub 128 100 0 = 100 - 0 :=
  have hwithin : QuotaWithinSpace chargedStore := fun _ _ h => by
    rw [chargedStore_package h]; decide
  have hfit : EveryPackage (fun p => p.space < 2 ^ 128) chargedStore := fun _ _ h => by
    rw [chargedStore_package h]; decide
  ⟨usage_within_space.1 _ _ _ hwithin, rfl,
    usage_within_space.2 Env.accepting (.deleteFile (.signed 1) [1]) _ hwithin hfit 1 _ rfl⟩

/-! ## Balance -/

/-- Every record's usage and remaining space add up to its space. -/
def QuotaBalanced (s : Store) : Prop :=
  EveryPackage (fun p => p.usedSpace + p.remainingSpace = p.space) s

/-- Both branches of `update_user_space` keep every record balanced, whatever the outcome. -/
theorem preserves_quotaBalanced_updateUserSpace (acc : AccountId) (operation size : Nat) :
    Preserves QuotaBalanced (updateUserSpace acc operation size) :=
  steps_updateUserSpace (chain_imp _)
    ⟨fun _ acc p _ hp _ _ _ h hs => everyPackage_write hs (by have := hs acc p hp; dsimp only; omega),
      fun _ acc p _ hp _ h hs => everyPackage_write hs (by have := hs acc p hp; dsimp only; omega)⟩
    acc operation size

/-- On a balanced record whose space fits its `u128`, the upload branch's capacity test and
its `checked_sub` on `remaining_space` accept exactly the same sizes. -/
theorem capacity_tests_agree {p : PackageDetails}
    (hbal : p.usedSpace + p.remainingSpace = p.space) (hfits : p.space < 2 ^ 128) (size : Nat) :
    ¬ size > wrappingSub 128 p.space p.usedSpace ↔ (checkedSub p.remainingSpace size).isSome := by
  rw [wrappingSub_of_le (by omega) hfits]
  simp only [checkedSub]
  split <;> simp <;> omega

/-- An account holding a balanced package of no space. -/
def emptyPackageStore : Store :=
  { Store.empty with
    purchasedPackage := fun acc => if acc = 1 then some
      { space := 0, usedSpace := 0, remainingSpace := 0, tenancy := 1, packageType := 1,
        start := 0, deadline := 0, state := normalTag } else none }

/-- Buying a package over a balanced record leaves a record with space and nothing remaining. -/
theorem buyPackage_unbalances : QuotaBalanced emptyPackageStore ∧
    ∃ s', buyPackage Env.accepting (.signed 1) 1 0 emptyPackageStore = .ok () s' ∧
      ¬ QuotaBalanced s' := by
  refine ⟨fun acc p h => ?_, _, rfl, fun h => absurd (h 1 _ rfl) (by decide)⟩
  simp only [emptyPackageStore] at h
  split at h <;> cases h
  rfl

/-! ## Usage and ownership -/

/-- The bytes of the files that list `acc` among their owners. -/
def ownedSize (s : Store) (acc : AccountId) : Nat :=
  (s.file.entries.filter fun e => acc ∈ e.2.user).foldr (fun e total => e.2.fileSize + total) 0

/-- Every package's usage is the size of the files its account owns. -/
def QuotaMatchesOwnership (s : Store) : Prop :=
  ∀ acc p, s.purchasedPackage acc = some p → p.usedSpace = ownedSize s acc

/-- An unused package of 100 bytes. -/
def smallPackage : PackageDetails :=
  { space := 100, usedSpace := 0, remainingSpace := 100, tenancy := 1, packageType := 1,
    start := 0, deadline := 0, state := normalTag }

/-- A pending file `[1]`, declared by account 1 and joined by account 2, which indexed it when
it joined; accounts 1, 2 and 3 each hold an unused package. -/
def coOwnedStore : Store :=
  { Store.empty with
    file := StorageMap.empty.insert [1]
      { fileSize := 0, blockNum := 0, scanSize := 0, segmentSize := 0, minerAcc := 1,
        minerId := 0, minerIp := [], user := [1, 2], fileName := [[1], [2]],
        fileState := pendingTag }
    userHoldFileList := fun acc => if acc = 2 then some [⟨[1], 0⟩] else none
    purchasedPackage := fun acc => if acc ∈ [1, 2, 3] then some smallPackage else none }

theorem coOwnedStore_file_entries : coOwnedStore.file.entries =
    [([1], ⟨0, 0, 0, 0, 1, 0, [], [1, 2], [[1], [2]], pendingTag⟩)] := rfl

/-- Committing the co-owned file for account 1 charges account 1 its size; account 2 owns it
too and is charged nothing. -/
theorem upload_breaks_quota_ownership : QuotaMatchesOwnership coOwnedStore ∧
    ∃ s', upload Env.accepting (.signed 9) [1] 10 0 0 0 5 0 [] 1 coOwnedStore = .ok () s' ∧
      ¬ QuotaMatchesOwnership s' := by
  refine ⟨fun acc p h => ?_, _, rfl, fun h => absurd (h 2 _ rfl) (by decide)⟩
  simp only [coOwnedStore] at h
  split at h <;> cases h
  unfold ownedSize
  rw [coOwnedStore_file_entries]
  by_cases hacc : acc ∈ [1, 2] <;> simp [List.filter_cons, hacc, smallPackage]

/-! ## Errors that leave writes behind -/

/-- Committing the co-owned file for account 3, which never declared it, fails after account
3 was charged. -/
theorem upload_charges_before_failing :
    ∃ s', upload Env.accepting (.signed 9) [1] 10 0 0 0 5 0 [] 3 coOwnedStore =
      .error (.error (.module .userNotDeclared)) s' ∧
      s'.purchasedPackage ≠ coOwnedStore.purchasedPackage :=
  ⟨_, rfl, fun h => absurd (congrFun h 3) (by decide)⟩

end Cess.FileBank
