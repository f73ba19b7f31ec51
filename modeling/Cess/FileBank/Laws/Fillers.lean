import Cess.FileBank.Pallet

/-!
# Filler upload

What `upload_filler` does to `FillerMap`, on success and on a clash.

* **Success** (`uploadFiller_eq_ok_iff`): the call returns `Ok` exactly when its checks pass,
  the batch's ids are distinct and free under the miner, and `add_power` accepts; the store it
  leaves has each filler inserted under the miner and one `add_power` call of `M_BYTE * 8`
  per filler recorded.
* **Errors** (`uploadFiller_errors`): every error is one of the call's own checks,
  `FileExistent` from the loop, or what `get_miner_state` or `add_power` returned. With at
  most ten fillers the power cannot overflow `u128`, so the call's own `checked_mul` never
  returns `Overflow`. The combinators of `Raises` follow the do block step by step.
* **A clash** (`uploadFiller_clash_keeps_prefix`): the insertion loop writes each filler
  before it checks the next, so a batch that meets a taken id fails with `FileExistent`
  from a store that holds the fillers before it, with no power added; the call is not
  `#[transactional]`, and `Call.next` keeps what an error leaves.

The loop is handled by its step equation (`insertFillers_cons`) and an induction over the
batch (`insertFillers_eq_ok`, `insertFillers_append`).
-/

set_option autoImplicit false

namespace Cess.FileBank

/-! ## The insertion loop -/

/-- One step of the insertion loop: a taken id stops it with `FileExistent`, keeping what it
wrote; a free one is inserted and the loop goes on. -/
theorem insertFillers_cons (miner : AccountId) (i : FillerInfo) (rest : List FillerInfo)
    (s : Store) :
    insertFillers miner (i :: rest) s =
      if (s.fillerMap.get (miner, i.fillerId)).isSome then .error (.error (.module .fileExistent)) s
      else insertFillers miner rest
        { s with fillerMap := s.fillerMap.insert (miner, i.fillerId) i } := by
  rw [insertFillers, bind_of_ok (Slot.get_eq_ok.mpr ⟨rfl, rfl⟩)]
  by_cases h : (s.fillerMap.get (miner, i.fillerId)).isSome
  · rw [if_pos h, bind_of_error]
    simp only [ensure, fillerSlot, h]
    rfl
  · rw [if_neg h]
    exact (bind_of_ok (a := ()) (ensure_eq_ok.mpr ⟨h, rfl⟩)).trans
      (bind_of_ok (a := ()) (Slot.put_eq_ok.mpr rfl))

theorem insertFillers_cons_eq_ok {miner : AccountId} {i : FillerInfo} {rest : List FillerInfo}
    {s s' : Store} {u : Unit} :
    insertFillers miner (i :: rest) s = .ok u s' ↔ s.fillerMap.get (miner, i.fillerId) = none ∧
      insertFillers miner rest { s with fillerMap := s.fillerMap.insert (miner, i.fillerId) i } =
        .ok u s' := by
  rw [insertFillers_cons]
  split
  · next h => simp [Option.isSome_iff_ne_none.mp h]
  · next h => simp [Option.not_isSome_iff_eq_none.mp h]

/-- The loop succeeds exactly when the ids are distinct and none is taken, and then it has
inserted every filler under its id and written nothing else. -/
theorem insertFillers_eq_ok {miner : AccountId} :
    ∀ {fillers : List FillerInfo} {s s' : Store} {u : Unit},
      insertFillers miner fillers s = .ok u s' ↔ (fillers.map (·.fillerId)).Nodup ∧
        (∀ i ∈ fillers, s.fillerMap.get (miner, i.fillerId) = none) ∧
        s' = { s with
          fillerMap := fillers.foldl (fun m i => m.insert (miner, i.fillerId) i) s.fillerMap }
  | [], s, s', u => by simp [insertFillers]
  | i :: rest, s, s', u => by
    rw [insertFillers_cons_eq_ok, insertFillers_eq_ok]
    simp only [StorageMap.get_insert, Prod.mk.injEq, true_and, List.map_cons, List.nodup_cons,
      List.forall_mem_cons, List.foldl_cons, List.mem_map]
    have hfresh : (∀ j ∈ rest, (if j.fillerId = i.fillerId then some i
        else s.fillerMap.get (miner, j.fillerId)) = none) ↔
        (¬∃ j ∈ rest, j.fillerId = i.fillerId) ∧
          ∀ j ∈ rest, s.fillerMap.get (miner, j.fillerId) = none := by
      simp only [not_exists, not_and, ← forall_and]
      exact forall₂_congr fun j _ => by split <;> simp [*]
    rw [hfresh]
    tauto

/-! ## `upload_filler` -/

/-- `upload_filler` returns `Ok` exactly when a scheduler signed it, the batch has at most ten
fillers, the miner is `positive`, the ids are distinct and none is taken under the miner, and
`add_power` accepts `M_BYTE * 8` per filler; it has then stored every filler under the miner
and recorded that one `add_power` call. -/
theorem uploadFiller_eq_ok_iff {env : Env} {origin : Origin} {miner : AccountId}
    {fillerList : List FillerInfo} {s s' : Store} {u : Unit} :
    uploadFiller env origin miner fillerList s = .ok u s' ↔
      ∃ sender, origin = .signed sender ∧ fillerList.length ≤ 10 ∧
        env.containsScheduler sender = true ∧ env.getMinerState miner = .ok positiveTag ∧
        (fillerList.map (·.fillerId)).Nodup ∧
        (∀ i ∈ fillerList, s.fillerMap.get (miner, i.fillerId) = none) ∧
        env.addPower miner (mByte * 8 * fillerList.length) = .ok () ∧
        s' = { s with
          fillerMap := fillerList.foldl (fun m i => m.insert (miner, i.fillerId) i) s.fillerMap
          calls := s.calls ++ [.addPower miner (mByte * 8 * fillerList.length)] } := by
  simp only [uploadFiller, bind_eq_ok, ensureSigned_eq_ok, ensure_eq_ok, lift_eq_ok,
    insertFillers_eq_ok, okOr_eq_ok, external_eq_ok, Option.bind_eq_some, checkedMul_eq_some,
    and_assoc, exists_and_left, exists_eq_left, exists_eq_right, exists_const, exists_eq_left']
  constructor
  · rintro ⟨sender, rfl, hlen, hsch, _, hstate, rfl, hnodup, hfresh, -, -, hpower, rfl⟩
    exact ⟨sender, rfl, Nat.le_of_not_gt hlen, hsch, hstate, hnodup, hfresh, hpower, rfl⟩
  · rintro ⟨sender, rfl, hlen, hsch, hstate, hnodup, hfresh, hpower, rfl⟩
    have hpow : mByte * 8 * fillerList.length < 2 ^ 128 :=
      calc mByte * 8 * fillerList.length ≤ mByte * 8 * 10 := Nat.mul_le_mul_left _ hlen
        _ < 2 ^ 128 := by decide
    exact ⟨sender, rfl, Nat.not_lt_of_le hlen, hsch, _, hstate, rfl, hnodup, hfresh, by decide,
      hpow, hpower, rfl⟩

/-! ## Errors -/

/-- Every error `x` stops with satisfies `E`, from any store. -/
def Raises {α : Type} (E : Fault → Prop) (x : Dispatch α) : Prop :=
  ∀ s e s', x s = .error e s' → E e

section Raises

variable {α β : Type} {E : Fault → Prop}

theorem Raises.bind {x : Dispatch α} {f : α → Dispatch β} (hx : Raises E x)
    (hf : ∀ a, Raises E (f a)) : Raises E (x >>= f) := fun s e s' h => by
  cases hx' : x s with
  | ok a s₁ => rw [bind_of_ok hx'] at h; exact hf a _ _ _ h
  | error e₁ s₁ => rw [bind_of_error hx'] at h; cases h; exact hx _ _ _ hx'

/-- A check raises its error, and what follows runs only once it holds. -/
theorem ensure_bind_raises {c : Prop} [Decidable c] {err : Error} {f : Unit → Dispatch β}
    (he : E (.error (.module err))) (hf : c → Raises E (f ())) :
    Raises E (ensure c err >>= f) := fun s e s' h => by
  by_cases hc : c
  · rw [bind_of_ok ((ensure_eq_ok (u := ())).mpr ⟨hc, rfl⟩)] at h
    exact hf hc _ _ _ h
  · rw [bind_of_error (show ensure c err s = .error (.error (.module err)) s by
      simp only [ensure, if_neg hc]; rfl)] at h
    cases h
    exact he

/-- A collaborator's error is raised as it is; what follows runs on its answer. -/
theorem lift_bind_raises {r : Except DispatchError α} {f : α → Dispatch β}
    (he : ∀ d, r = .error d → E (.error d)) (hf : ∀ a, r = .ok a → Raises E (f a)) :
    Raises E (lift r >>= f) := fun s e s' h => by
  cases r with
  | ok a => exact hf a rfl _ _ _ (by rwa [bind_of_ok (lift_eq_ok.mpr ⟨rfl, rfl⟩)] at h)
  | error d =>
    rw [bind_of_error (show lift (.error d) s = .error (.error d) s from rfl)] at h
    cases h
    exact he d rfl

/-- A recorded collaborator call raises what the collaborator returned. -/
theorem external_raises {c : ExtCall} {r : Except DispatchError Unit}
    (he : ∀ d, r = .error d → E (.error d)) : Raises E (external c r) := fun s e s' h => by
  cases r with
  | ok u => cases h
  | error d => cases h; exact he d rfl

/-- `.ok_or(e)?` on a value that is there raises nothing. -/
theorem okOr_some_bind_raises {o : Option α} {a : α} {err : Error} {f : α → Dispatch β}
    (ho : o = some a) (hf : Raises E (f a)) : Raises E (okOr o err >>= f) := by
  subst ho
  exact hf

end Raises

/-- The loop's only error is `FileExistent`. -/
theorem insertFillers_raises (miner : AccountId) :
    ∀ fillers, Raises (· = .error (.module .fileExistent)) (insertFillers miner fillers)
  | [], _, _, _, h => by cases h
  | i :: rest, s, e, s', h => by
    rw [insertFillers_cons] at h
    split at h
    · cases h; rfl
    · exact insertFillers_raises miner rest _ _ _ h

/-- The errors `upload_filler` stops with: one of its own checks, `FileExistent` from the
loop, or what `get_miner_state` or `add_power` returned. The power is computed with
`checked_mul` after the length check, so it never overflows: `Overflow` is raised only if a
collaborator returns it. -/
theorem uploadFiller_errors (env : Env) (origin : Origin) (miner : AccountId)
    (fillerList : List FillerInfo) :
    Raises (fun e => e = .error .badOrigin ∨ e = .error (.module .lengthExceedsLimit) ∨
      e = .error (.module .scheduleNonExistent) ∨ e = .error (.module .notQualified) ∨
      e = .error (.module .fileExistent) ∨
      (∃ d, env.getMinerState miner = .error d ∧ e = .error d) ∨
      (∃ d, env.addPower miner (mByte * 8 * fillerList.length) = .error d ∧ e = .error d))
      (uploadFiller env origin miner fillerList) := by
  unfold uploadFiller
  refine Raises.bind (fun s e s' h => ?_) fun sender => ?_
  · cases origin <;> cases h <;> simp
  refine ensure_bind_raises (by simp) fun hlen => ensure_bind_raises (by simp) fun _ =>
    lift_bind_raises (fun d hd => by simp [hd]) fun state _ => ensure_bind_raises (by simp)
      fun _ => Raises.bind (fun s e s' h => by simp [insertFillers_raises miner _ s e s' h])
        fun _ => okOr_some_bind_raises (a := mByte * 8 * fillerList.length) ?_
          (external_raises fun d hd => by simp [hd])
  have hpow : mByte * 8 * fillerList.length < 2 ^ 128 :=
    calc mByte * 8 * fillerList.length ≤ mByte * 8 * 10 :=
          Nat.mul_le_mul_left _ (Nat.le_of_not_gt hlen)
      _ < 2 ^ 128 := by decide
  simp only [Option.bind_eq_some, checkedMul_eq_some]
  exact ⟨_, ⟨by decide, rfl⟩, hpow, rfl⟩

/-- A loop over a prefix that succeeds hands on its store to the rest. -/
theorem insertFillers_append {miner : AccountId} {rest : List FillerInfo} :
    ∀ {pre : List FillerInfo} {s s' : Store} {u : Unit}, insertFillers miner pre s = .ok u s' →
      insertFillers miner (pre ++ rest) s = insertFillers miner rest s'
  | [], s, s', u, h => by obtain ⟨-, rfl⟩ := pure_eq_ok.mp h; rfl
  | i :: pre, s, s', u, h => by
    rw [insertFillers_cons] at h
    split at h
    · cases h
    · rw [List.cons_append, insertFillers_cons, if_neg ‹_›]
      exact insertFillers_append h

/-- Inserting keeps a taken key taken and takes every inserted one. -/
theorem get_foldl_insert_isSome {miner : AccountId} :
    ∀ {l : List FillerInfo} {m : StorageMap (AccountId × Bytes) FillerInfo} {fillerId : Bytes},
      (m.get (miner, fillerId)).isSome ∨ fillerId ∈ l.map (·.fillerId) →
        ((l.foldl (fun m j => m.insert (miner, j.fillerId) j) m).get (miner, fillerId)).isSome
  | [], m, fillerId, h => by simpa using h
  | j :: l, m, fillerId, h =>
    @get_foldl_insert_isSome miner l (m.insert (miner, j.fillerId) j) fillerId <| by
      rw [StorageMap.get_insert]
      rw [List.map_cons, List.mem_cons] at h
      by_cases hid : fillerId = j.fillerId
      · simp [hid]
      · simpa [hid] using h

/-- A batch whose filler at some position has an id that is taken (before the call, or by an
earlier filler of the batch) fails with `FileExistent` from a store in which the fillers
before it are already inserted and no power has been added for them. `upload_filler` is not
`#[transactional]`, so `Call.next` keeps that store. -/
theorem uploadFiller_clash_keeps_prefix {env : Env} {sender miner : AccountId}
    {pre post : List FillerInfo} {i : FillerInfo} {s : Store}
    (hlen : (pre ++ i :: post).length ≤ 10) (hsch : env.containsScheduler sender = true)
    (hstate : env.getMinerState miner = .ok positiveTag)
    (hnodup : (pre.map (·.fillerId)).Nodup)
    (hfresh : ∀ j ∈ pre, s.fillerMap.get (miner, j.fillerId) = none)
    (hclash : (s.fillerMap.get (miner, i.fillerId)).isSome ∨ i.fillerId ∈ pre.map (·.fillerId)) :
    uploadFiller env (.signed sender) miner (pre ++ i :: post) s =
      .error (.error (.module .fileExistent))
        { s with
          fillerMap := pre.foldl (fun m j => m.insert (miner, j.fillerId) j) s.fillerMap } := by
  have hpre := (insertFillers_eq_ok (u := ())).mpr ⟨hnodup, hfresh, rfl⟩
  unfold uploadFiller
  rw [bind_of_ok (ensureSigned_eq_ok.mpr ⟨rfl, rfl⟩),
    bind_of_ok (ensure_eq_ok (u := ()) |>.mpr ⟨by omega, rfl⟩),
    bind_of_ok (ensure_eq_ok (u := ()) |>.mpr ⟨hsch, rfl⟩),
    bind_of_ok (lift_eq_ok.mpr ⟨hstate, rfl⟩),
    bind_of_ok (ensure_eq_ok (u := ()) |>.mpr ⟨rfl, rfl⟩), bind_of_error]
  rw [insertFillers_append hpre, insertFillers_cons, if_pos (get_foldl_insert_isSome hclash)]

/-- A batch of fillers [3], [4], [3] for miner 5: the repeated id stops it after two. -/
theorem repeated_filler_keeps_first_two :
    uploadFiller Env.accepting (.signed 9) 5
        ([⟨1, 0, 0, 5, [3]⟩, ⟨1, 0, 0, 5, [4]⟩] ++ ⟨1, 0, 0, 5, [3]⟩ :: []) Store.empty =
      .error (.error (.module .fileExistent)) { Store.empty with
        fillerMap := [⟨1, 0, 0, 5, [3]⟩, ⟨1, 0, 0, 5, [4]⟩].foldl
          (fun m j => m.insert (5, j.fillerId) j) Store.empty.fillerMap } :=
  uploadFiller_clash_keeps_prefix (by decide) rfl rfl (by decide) (fun _ _ => rfl)
    (.inr (by decide))

end Cess.FileBank
