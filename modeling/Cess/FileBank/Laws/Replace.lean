import Cess.FileBank.Laws.Footprint

/-!
# Filler replacement

What `replace_file` does to `FillerMap` and `InvalidFile` when it returns `Ok`.

**The law** (`replaceFile_retires_fillers`): with `k = min (file_size / 2^23 + 1) n`, where
`n` is the number of the miner's fillers, the call removes exactly the first `k` of them in
iteration order, changes no other `FillerMap` entry, and appends their ids, each once and
in the order it removed them, to the miner's `InvalidFile` queue.

The loop walks the miner's fillers as they stood when it began and only ever removes the one
it visits (`replaceLoop_eq_ok`); the ids it collects are those of distinct keys, so none
repeats, and the closure handed to `InvalidFile::try_mutate` appends them all or fails
(`pushAll_eq_some`).
-/

set_option autoImplicit false

namespace Cess.FileBank

/-! ## The steps of the loop -/

/-- `delete_filler` removes one present filler. -/
theorem deleteFiller_eq_ok {env : Env} {minerAcc : AccountId} {fillerId : Bytes} {s s' : Store}
    {u : Unit} (h : deleteFiller env minerAcc fillerId s = .ok u s') :
    s.fillerMap.get (minerAcc, fillerId) ≠ none ∧
      s' = (fillerSlot minerAcc fillerId).write none s := by
  simp only [deleteFiller, bind_eq_ok, okOr_eq_ok, tryInto_eq_some, Slot.get_eq_ok, ensure_eq_ok,
    Slot.put_eq_ok] at h
  obtain ⟨_, _, ⟨⟨-, rfl⟩, rfl⟩, _, _, ⟨rfl, rfl⟩, _, _, ⟨hsome, rfl⟩, rfl⟩ := h
  exact ⟨Option.isSome_iff_ne_none.mp hsome, rfl⟩

/-- From `counter` on, the loop collects and removes the next `replace_num - counter` ids of
the walk, and writes nothing but `FillerMap`. -/
theorem replaceLoop_eq_ok {env : Env} {minerAcc : AccountId} {replaceNum : Nat} :
    ∀ {ids : List Bytes} {counter : Nat} {acc out : List Bytes} {s s' : Store},
      counter ≤ replaceNum →
      replaceLoop env minerAcc replaceNum ids counter acc s = .ok out s' →
      out = acc ++ ids.take (replaceNum - counter) ∧
        s' = { s with fillerMap := s'.fillerMap } ∧
        ∀ key, s'.fillerMap.get key =
          if key.1 = minerAcc ∧ key.2 ∈ ids.take (replaceNum - counter) then none
          else s.fillerMap.get key
  | [], _, _, _, _, _, _, h => by
    cases h
    exact ⟨by simp, rfl, fun key => by simp⟩
  | fillerId :: rest, counter, acc, out, s, s', hle, h => by
    unfold replaceLoop at h
    split at h
    · next heq =>
      cases h
      subst heq
      exact ⟨by simp, rfl, fun key => by simp⟩
    · next hne =>
      simp only [bind_eq_ok, okOr_eq_ok, tryPush_eq_some, checkedAdd_eq_some] at h
      obtain ⟨_, _, ⟨⟨-, rfl⟩, rfl⟩, _, _, ⟨⟨-, rfl⟩, rfl⟩, _, s₁, hdel, h⟩ := h
      obtain ⟨-, rfl⟩ := deleteFiller_eq_ok hdel
      obtain ⟨rfl, hframe, hget⟩ := replaceLoop_eq_ok (by omega) h
      have htake : (fillerId :: rest).take (replaceNum - counter) =
          fillerId :: rest.take (replaceNum - (counter + 1)) := by
        rw [show replaceNum - counter = replaceNum - (counter + 1) + 1 by omega, List.take_succ_cons]
      refine ⟨by rw [htake, List.append_assoc, List.singleton_append], ?_, fun key => ?_⟩
      · rw [hframe]; rfl
      · rw [hget key, htake]
        simp only [fillerSlot, StorageMap.get_set, List.mem_cons]
        by_cases hkey : key = (minerAcc, fillerId)
        · subst hkey; simp
        · have hne : ¬ (key.1 = minerAcc ∧ key.2 = fillerId) := fun ⟨h₁, h₂⟩ => hkey (Prod.ext h₁ h₂)
          rw [if_neg hkey]
          exact if_congr ⟨fun ⟨h₁, h₂⟩ => ⟨h₁, .inr h₂⟩,
            fun ⟨h₁, h₂⟩ => ⟨h₁, h₂.resolve_left fun h => hne ⟨h₁, h⟩⟩⟩ rfl rfl

/-! ## The miner's fillers -/

/-- The ids of a miner's fillers are distinct. -/
theorem nodup_iterPrefix_ids (m : StorageMap (AccountId × Bytes) FillerInfo) (a : AccountId) :
    ((m.iterPrefix a).map Prod.fst).Nodup := by
  have hids : (m.iterPrefix a).map Prod.fst =
      (m.entries.map Prod.fst).filterMap fun k => if k.1 = a then some k.2 else none := by
    rw [StorageMap.iterPrefix, List.map_filterMap, List.filterMap_map]
    congr 1
    funext e
    by_cases he : e.1.1 = a <;> simp [he]
  rw [hids]
  refine m.nodup.filterMap fun k k' id hk hk' => ?_
  simp only [Option.mem_def, Option.ite_none_right_eq_some, Option.some.injEq] at hk hk'
  exact Prod.ext (hk.1.trans hk'.1.symm) (hk.2.trans hk'.2.symm)

/-- An id of the miner's fillers is the id of a present filler. -/
theorem get_of_mem_iterPrefix_ids {m : StorageMap (AccountId × Bytes) FillerInfo}
    {a : AccountId} {id : Bytes} (h : id ∈ (m.iterPrefix a).map Prod.fst) :
    m.get (a, id) ≠ none := by
  obtain ⟨⟨_, v⟩, hmem, rfl⟩ := List.mem_map.mp h
  obtain ⟨⟨⟨a', id'⟩, v'⟩, he, hsome⟩ := List.mem_filterMap.mp hmem
  simp only [Option.ite_none_right_eq_some, Option.some.injEq, Prod.mk.injEq] at hsome
  obtain ⟨rfl, rfl, rfl⟩ := hsome
  show m.get (a', id') ≠ none
  rw [StorageMap.mem_entries_iff.mp he]
  exact Option.some_ne_none _

/-! ## The law -/

/-- When `replace_file` returns `Ok`, it has removed the first `min (file_size / 2^23 + 1) n`
of the miner's `n` fillers, in iteration order, and nothing else from `FillerMap`, and has
appended their ids, each once and in that order, to the miner's `InvalidFile` queue. -/
theorem replaceFile_retires_fillers {env : Env} {minerAcc : AccountId} {fileSize : Nat}
    {s s' : Store} {u : Unit} (h : replaceFile env minerAcc fileSize s = .ok u s') :
    ∃ removed : List Bytes,
      removed = ((s.fillerMap.iterPrefix minerAcc).map Prod.fst).take (fileSize / 2 ^ 23 + 1) ∧
      removed.length = min (fileSize / 2 ^ 23 + 1) (s.fillerMap.iterPrefix minerAcc).length ∧
      removed.Nodup ∧ (∀ id ∈ removed, s.fillerMap.get (minerAcc, id) ≠ none) ∧
      (∀ key, s'.fillerMap.get key =
        if key.1 = minerAcc ∧ key.2 ∈ removed then none else s.fillerMap.get key) ∧
      s'.invalidFile minerAcc = s.invalidFile minerAcc ++ removed := by
  simp only [replaceFile, bind_eq_ok, external_eq_ok, lift_eq_ok] at h
  obtain ⟨_, _, ⟨-, rfl⟩, ⟨power, space⟩, _, ⟨-, rfl⟩, _, _, hcheck, h⟩ := h
  simp only [bind_eq_ok, okOr_eq_ok, read_eq_ok, Option.bind_eq_some, checkedDiv_eq_some,
    checkedAdd_eq_some, Slot.tryMutate_eq_ok] at h
  obtain ⟨_, _, ⟨⟨_, ⟨_, ⟨-, rfl⟩, -, rfl⟩, -, rfl⟩, rfl⟩, _, s₁, ⟨rfl, rfl⟩, out, _, hloop, o', _,
    ⟨hpush, rfl⟩, rfl⟩ := h
  have hs₁ : s₁ = { s with calls := s.calls ++ [.addSpace minerAcc fileSize] } := by
    split at hcheck
    · exact (ensure_eq_ok.mp hcheck).2
    · simp at hcheck
  subst hs₁
  obtain ⟨hout, hframe, hget⟩ := replaceLoop_eq_ok (Nat.zero_le _) hloop
  have hnum : fileSize / 8 / mByte + 1 - 0 = fileSize / 2 ^ 23 + 1 := by
    rw [Nat.div_div_eq_div_mul]; rfl
  rw [hnum, List.nil_append] at hout
  rw [hnum] at hget
  refine ⟨_, rfl, by simp [List.length_take], (nodup_iterPrefix_ids _ _).sublist
    (List.take_sublist _ _), fun id hid => get_of_mem_iterPrefix_ids
    ((List.take_sublist _ _).subset hid), hget, ?_⟩
  rw [pushAll_eq_some hpush, hout]
  simp only [invalidSlot, Function.update_same]
  rw [congrArg Store.invalidFile hframe]

/-- Coordinator 9 stores fillers `[3]` and `[4]` for miner 5. -/
def twoFillerStore : Store :=
  (Call.uploadFiller (.signed 9) 5 [⟨1, 0, 0, 5, [3]⟩, ⟨1, 0, 0, 5, [4]⟩]).next Env.accepting
    Store.empty

/-- A ten-byte file committed to miner 5 retires one of its two fillers. -/
theorem replaceFile_retires_one_of_two :
    ∃ removed : List Bytes,
      removed = ((twoFillerStore.fillerMap.iterPrefix 5).map Prod.fst).take (10 / 2 ^ 23 + 1) ∧
      removed.length = min (10 / 2 ^ 23 + 1) (twoFillerStore.fillerMap.iterPrefix 5).length ∧
      removed.Nodup ∧ (∀ id ∈ removed, twoFillerStore.fillerMap.get (5, id) ≠ none) ∧
      (∀ key, (storeOf (replaceFile Env.accepting 5 10 twoFillerStore)).fillerMap.get key =
        if key.1 = 5 ∧ key.2 ∈ removed then none else twoFillerStore.fillerMap.get key) ∧
      (storeOf (replaceFile Env.accepting 5 10 twoFillerStore)).invalidFile 5 =
        twoFillerStore.invalidFile 5 ++ removed :=
  @replaceFile_retires_fillers Env.accepting 5 10 twoFillerStore _ () rfl

end Cess.FileBank
