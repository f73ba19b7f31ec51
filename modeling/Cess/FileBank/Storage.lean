import Cess.FileBank.Types
import Mathlib.Data.List.Nodup
import Mathlib.Logic.Function.Basic

/-!
# Storage and collaborators

The pallet's storage (`File`, `UserHoldFileList`, `FillerMap`, `InvalidFile`, `Members`,
`PurchasedPackage`) as one record, `Store`, and what a call may ask of the runtime, `Env`:
its constants, the block number, and the answers of the collaborators (`Scheduler`,
`MinerControl`, `Currency`, `MyRandomness`, `pallet_sminer::get_space`). An `Env` is
arbitrary, so every law below holds whatever the collaborators answer.

Calls that change other pallets' state (`MinerControl` power and space, `Currency`) are
appended to `Store.calls` whatever they answer.

`StorageMap` is a map kept as its entries, one per key, in the order the map iterates
them. The count and the walks of `get_random_challenge_data` read this one sequence. A new
key is placed last. On chain a `Blake2_128Concat` map iterates by the hash of the encoded
key, which this model does not compute: the laws are stated against the sequence the map
keeps, and only results about fixed stores show the insertion order.
-/

set_option autoImplicit false

namespace Cess.FileBank

/-! ## Storage maps -/

/-- A storage map: its entries in iteration order, with one entry per key. -/
structure StorageMap (K V : Type) where
  entries : List (K × V)
  nodup : (entries.map Prod.fst).Nodup

namespace StorageMap

variable {K V : Type} [DecidableEq K]

/-- The map with no entry. -/
def empty : StorageMap K V := ⟨[], List.nodup_nil⟩

/-- `get`: the value under a key. -/
def get (m : StorageMap K V) (k : K) : Option V :=
  (m.entries.find? (fun e => decide (e.1 = k))).map Prod.snd

/-- `contains_key`. -/
def contains (m : StorageMap K V) (k : K) : Bool := (m.get k).isSome

/-- `insert`: an existing key keeps its place in the iteration; a new key comes last. -/
def insert (m : StorageMap K V) (k : K) (v : V) : StorageMap K V :=
  if hk : k ∈ m.entries.map Prod.fst then
    ⟨m.entries.map (fun e => if e.1 = k then (k, v) else e), by
      have hkeys : (m.entries.map (fun e => if e.1 = k then (k, v) else e)).map Prod.fst =
          m.entries.map Prod.fst := by
        rw [List.map_map]
        exact List.map_congr_left fun e _ => by by_cases h : e.1 = k <;> simp [h]
      rw [hkeys]
      exact m.nodup⟩
  else
    ⟨m.entries ++ [(k, v)], by
      rw [List.map_append, List.nodup_append]
      exact ⟨m.nodup, List.nodup_singleton _, by simpa [List.disjoint_singleton] using hk⟩⟩

/-- `remove`. -/
def remove (m : StorageMap K V) (k : K) : StorageMap K V :=
  ⟨m.entries.filter (fun e => decide (e.1 ≠ k)),
    m.nodup.sublist ((List.filter_sublist _).map _)⟩

/-- The write `try_mutate` makes: `Some` puts the value, `None` removes the key. -/
def set (m : StorageMap K V) (k : K) : Option V → StorageMap K V
  | some v => m.insert k v
  | none => m.remove k

/-- An entry is in the map exactly when the map answers its value under its key. -/
theorem mem_entries_iff {m : StorageMap K V} {k : K} {v : V} :
    (k, v) ∈ m.entries ↔ m.get k = some v := by
  unfold get
  constructor
  · intro hmem
    have hsome : (m.entries.find? (fun e => decide (e.1 = k))).isSome :=
      List.find?_isSome.mpr ⟨(k, v), hmem, by simp⟩
    obtain ⟨e, he⟩ := Option.isSome_iff_exists.mp hsome
    have hek : e.1 = k := by have h := List.find?_some he; simpa using h
    have heq := List.inj_on_of_nodup_map m.nodup (List.mem_of_find?_eq_some he) hmem hek
    simp [he, heq]
  · intro h
    obtain ⟨e, he, rfl⟩ := Option.map_eq_some'.mp h
    have hek : e.1 = k := by have h := List.find?_some he; simpa using h
    exact hek ▸ List.mem_of_find?_eq_some he

@[simp] theorem get_empty (k : K) : (empty : StorageMap K V).get k = none := rfl

/-- The entries after an insert: the new one, and the old ones under other keys. -/
theorem mem_insert_entries {m : StorageMap K V} {k : K} {v : V} {e : K × V} :
    e ∈ (m.insert k v).entries ↔ e = (k, v) ∨ (e ∈ m.entries ∧ e.1 ≠ k) := by
  unfold insert
  split
  · next hk =>
    obtain ⟨e₀, he₀, hk₀⟩ := List.mem_map.mp hk
    simp only [List.mem_map]
    constructor
    · rintro ⟨e', he', rfl⟩
      by_cases h : e'.1 = k <;> simp [h, he']
    · rintro (rfl | ⟨he, hne⟩)
      · exact ⟨e₀, he₀, by simp [hk₀]⟩
      · exact ⟨e, he, by simp [hne]⟩
  · next hk =>
    simp only [List.mem_append, List.mem_singleton]
    constructor
    · rintro (he | rfl)
      · exact .inr ⟨he, fun h => hk (List.mem_map.mpr ⟨e, he, h⟩)⟩
      · exact .inl rfl
    · rintro (rfl | ⟨he, -⟩)
      · exact .inr rfl
      · exact .inl he

/-- The entries after a removal: the old ones under other keys. -/
theorem mem_remove_entries {m : StorageMap K V} {k : K} {e : K × V} :
    e ∈ (m.remove k).entries ↔ e ∈ m.entries ∧ e.1 ≠ k := by
  simp [remove]

@[simp] theorem get_insert (m : StorageMap K V) (k k' : K) (v : V) :
    (m.insert k v).get k' = if k' = k then some v else m.get k' := by
  refine Option.ext fun w => ?_
  rw [Option.mem_def, ← mem_entries_iff, mem_insert_entries]
  by_cases h : k' = k
  · subst h; simp [eq_comm]
  · simp [h, mem_entries_iff]

@[simp] theorem get_remove (m : StorageMap K V) (k k' : K) :
    (m.remove k).get k' = if k' = k then none else m.get k' := by
  refine Option.ext fun w => ?_
  rw [Option.mem_def, ← mem_entries_iff, mem_remove_entries]
  by_cases h : k' = k <;> simp [h, mem_entries_iff]

@[simp] theorem get_set (m : StorageMap K V) (k k' : K) (o : Option V) :
    (m.set k o).get k' = if k' = k then o else m.get k' := by
  cases o <;> simp [set]

/-- A key has an entry exactly when `contains_key` answers `true`. -/
theorem mem_keys_iff_contains {m : StorageMap K V} {k : K} :
    k ∈ m.entries.map Prod.fst ↔ m.contains k = true := by
  simp only [contains, List.mem_map, Option.isSome_iff_exists]
  constructor
  · rintro ⟨⟨_, v⟩, he, rfl⟩
    exact ⟨v, mem_entries_iff.mp he⟩
  · rintro ⟨v, h⟩
    exact ⟨(k, v), mem_entries_iff.mpr h, rfl⟩

/-- Inserting a new key appends its entry to the iteration. -/
theorem entries_insert_of_contains_eq_false {m : StorageMap K V} {k : K} {v : V}
    (h : m.contains k = false) : (m.insert k v).entries = m.entries ++ [(k, v)] := by
  rw [insert, dif_neg fun hk => Bool.false_ne_true (h ▸ mem_keys_iff_contains.mp hk)]

/-! ### Double maps -/

variable {A B : Type} [DecidableEq A]

/-- `iter_prefix` of a double map: the second keys and values under one first key, in
iteration order. -/
def iterPrefix (m : StorageMap (A × B) V) (a : A) : List (B × V) :=
  m.entries.filterMap fun e => if e.1.1 = a then some (e.1.2, e.2) else none

/-- `remove_prefix` of a double map. -/
def removePrefix (m : StorageMap (A × B) V) (a : A) : StorageMap (A × B) V :=
  ⟨m.entries.filter (fun e => decide (e.1.1 ≠ a)),
    m.nodup.sublist ((List.filter_sublist _).map _)⟩

theorem mem_removePrefix_entries {m : StorageMap (A × B) V} {a : A} {e : (A × B) × V} :
    e ∈ (m.removePrefix a).entries ↔ e ∈ m.entries ∧ e.1.1 ≠ a := by
  simp [removePrefix]

end StorageMap

/-! ## The store -/

/-- The pallet's storage. `UserHoldFileList` and `InvalidFile` are `ValueQuery` maps: an
absent key reads as the empty list. `UserHoldFileList` keeps whether a key was ever written,
which `try_get` tells apart. `PurchasedPackage` is never iterated by the modelled code. -/
structure Store where
  file : StorageMap Bytes FileInfo
  userHoldFileList : AccountId → Option (List UserFileSliceInfo)
  fillerMap : StorageMap (AccountId × Bytes) FillerInfo
  invalidFile : AccountId → List Bytes
  members : List AccountId
  purchasedPackage : AccountId → Option PackageDetails
  /-- The calls made to `MinerControl`'s power and space accounting and to `Currency`. -/
  calls : List ExtCall

/-- Empty storage, with no call made yet. -/
def Store.empty : Store where
  file := .empty
  userHoldFileList := fun _ => none
  fillerMap := .empty
  invalidFile := fun _ => []
  members := []
  purchasedPackage := fun _ => none
  calls := []

/-- The `ValueQuery` read of `UserHoldFileList`. -/
def Store.holdList (s : Store) (acc : AccountId) : List UserFileSliceInfo :=
  (s.userHoldFileList acc).getD []

/-! ## The runtime a call sees -/

/-- The runtime's constants and the collaborators' answers for one call. The bounds of
`FileInfo`'s `user` and `file_name` lists are declared in the pallet's `types.rs`, which is
not among the sources, so they are constants like the others. -/
structure Env where
  /-- `T::StringLimit`: the bound of every byte string and of `InvalidFile`'s lists. -/
  stringLimit : Nat
  /-- `T::ItemLimit`: the bound of `UserHoldFileList`'s lists. -/
  itemLimit : Nat
  /-- The bound of `FileInfo.user`. -/
  userLimit : Nat
  /-- The bound of `FileInfo.file_name`. -/
  nameLimit : Nat
  /-- `frame_system::block_number()`, a `u32`. -/
  blockNumber : Nat
  /-- `T::FilbakPalletId::get().into_account()`. -/
  palletAccount : AccountId
  /-- `T::Scheduler::contains_scheduler`. -/
  containsScheduler : AccountId → Bool
  /-- `T::MinerControl::get_miner_state`. -/
  getMinerState : AccountId → Except DispatchError Bytes
  /-- `T::MinerControl::get_miner_id`. -/
  getMinerId : AccountId → Except DispatchError Nat
  /-- `T::MinerControl::get_power_and_space`. -/
  getPowerAndSpace : AccountId → Except DispatchError (Nat × Nat)
  /-- `pallet_sminer::Pallet::get_space`: the network's available space. -/
  getSpace : Except DispatchError Nat
  /-- The answers of `add_power`, `sub_power`, `add_space`, `sub_space`. -/
  addPower : AccountId → Nat → Except DispatchError Unit
  subPower : AccountId → Nat → Except DispatchError Unit
  addSpace : AccountId → Nat → Except DispatchError Unit
  subSpace : AccountId → Nat → Except DispatchError Unit
  /-- The answer of `Currency::transfer`. -/
  transfer : AccountId → AccountId → Nat → Except DispatchError Unit
  /-- `MyRandomness::random` on the encoded `(pallet id, seed)`, decoded as a `u32` (`0`
  where decoding fails). -/
  random : Nat → Nat

end Cess.FileBank
