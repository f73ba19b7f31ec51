import Cess.TeeWorker.Pallet

/-!
# Tee-worker laws

What a run of calls does to the worker map and the shared PoDR2 key, whatever the runtime
answers at each call.

**The key** (`podr2_key_of_first_registration`): after any run from empty storage the key is
the one the first successful registration brought, and absent if none succeeded; a run
that goes on never changes it. A registration stores its key only while the map's counter
is zero, every successful registration leaves the counter positive, and nothing lowers it:
the pallet removes no worker.

**The worker map** (`controllers_follow_registrations`, `workers_keyed_and_permanent`): a
successful registration inserts a new key, and no call removes one or rewrites a worker, so
after any run from empty storage `get_controller_list` holds each successful registration's
signer once, the `CountedStorageMap` counter is their number saturated at `u32::MAX`, and
each worker stays stored under its own controller.

**Stashes** (`stash_unique_of_fixed_bonding`): while the staking pallet's `Bonded` map does
not change, every worker is registered under the controller its stash is bonded to, so no
two workers share a stash and `get_controller_acc` answers the one registered controller
(`getControllerAcc_of_bondedWorkers`). `regist_scheduler` checks only that the sender is
the stash's current controller and is not registered itself: once the stash is rebonded
to another controller, that controller registers the same stash again.

**Punishment** (`punished_stash_bonded_to_worker`): under the same fixed bonding,
`punish_scheduler` slashes a stash bonded to the worker it names.
-/

set_option autoImplicit false

namespace Cess.TeeWorker

open FileBank (AccountId Bytes Origin StorageMap u32Max tryPush except_bind_eq_ok)

/-! ## Success of the primitives -/

@[simp] theorem ensure_eq_ok {c : Prop} [Decidable c] {e : Error} {u : Unit} :
    ensure c e = .ok u ↔ c := by
  unfold ensure; split <;> simp_all

@[simp] theorem okOr_eq_ok {α : Type} {o : Option α} {e : Error} {a : α} :
    okOr o e = .ok a ↔ o = some a := by
  cases o <;> simp [okOr]

@[simp] theorem ensureSigned_eq_ok {o : Origin} {a : AccountId} :
    ensureSigned o = .ok a ↔ o = .signed a := by
  cases o <;> simp [ensureSigned]

@[simp] theorem insertWorker_teePodr2Pk (s : Store) (acc : AccountId) (info : TeeWorkerInfo) :
    (s.insertWorker acc info).teePodr2Pk = s.teePodr2Pk := rfl

@[simp] theorem insertWorker_get (s : Store) (acc acc' : AccountId) (info : TeeWorkerInfo) :
    (s.insertWorker acc info).teeWorkerMap.get acc' =
      if acc' = acc then some info else s.teeWorkerMap.get acc' :=
  StorageMap.get_insert _ _ _ _

/-- A new worker leaves the counter positive. -/
theorem insertWorker_count_ne_zero {s : Store} {acc : AccountId} (info : TeeWorkerInfo)
    (h : s.teeWorkerMap.contains acc = false) : (s.insertWorker acc info).teeWorkerCount ≠ 0 := by
  simp only [Store.insertWorker, h, Bool.false_eq_true, if_false, u32Max]
  omega

/-! ## One call -/

/-- A successful registration: the sender is the stash's controller and not yet a worker;
the key is stored if the counter is zero, and the sender inserted. -/
theorem registScheduler_eq_ok {env : Env} {o : Origin} {stash : AccountId}
    {nodeKey peerId podr2Pbk : Bytes} {report : SgxAttestationReport} {s s' : Store}
    (h : registScheduler env o stash nodeKey peerId podr2Pbk report s = .ok s') :
    ∃ sender, o = .signed sender ∧ env.bonded stash = some sender ∧
      s.teeWorkerMap.contains sender = false ∧
      s' = (if s.teeWorkerCount = 0 then { s with teePodr2Pk := some podr2Pbk } else s).insertWorker
        sender ⟨sender, peerId, nodeKey, stash⟩ := by
  simp only [registScheduler, except_bind_eq_ok, ensureSigned_eq_ok, okOr_eq_ok, ensure_eq_ok,
    pure, Except.pure, Except.ok.injEq] at h
  obtain ⟨sender, rfl, acc, hb, _, rfl, _, hc, _, -, rfl⟩ := h
  exact ⟨sender, rfl, hb, hc, rfl⟩

/-- A successful registration leaves the counter positive, and stores its key if the
counter was zero. -/
theorem registScheduler_effects {env : Env} {o : Origin} {stash : AccountId}
    {nodeKey peerId podr2Pbk : Bytes} {report : SgxAttestationReport} {s s' : Store}
    (h : registScheduler env o stash nodeKey peerId podr2Pbk report s = .ok s') :
    s'.teeWorkerCount ≠ 0 ∧
      s'.teePodr2Pk = if s.teeWorkerCount = 0 then some podr2Pbk else s.teePodr2Pk := by
  obtain ⟨sender, -, -, hc, rfl⟩ := registScheduler_eq_ok h
  by_cases h0 : s.teeWorkerCount = 0 <;> simp only [h0, if_true, if_false] <;>
    exact ⟨insertWorker_count_ne_zero _ hc, rfl⟩

theorem testVerifySig_eq_ok {env : Env} {o : Origin} {puk sig msg : Bytes} {s s' : Store}
    (h : testVerifySig env o puk sig msg s = .ok s') : s' = s := by
  simp only [testVerifySig, except_bind_eq_ok, ensure_eq_ok, pure, Except.pure,
    Except.ok.injEq] at h
  obtain ⟨_, -, _, -, rfl⟩ := h
  rfl

theorem updateWhitelist_eq_ok {env : Env} {o : Origin} {mrEnclave : Bytes} {s s' : Store}
    (h : updateWhitelist env o mrEnclave s = .ok s') :
    ∃ list, s' = { s with mrEnclaveWhitelist := list } := by
  simp only [updateWhitelist, except_bind_eq_ok] at h
  obtain ⟨_, -, h⟩ := h
  split at h
  · exact ⟨_, (Except.ok.inj h).symm⟩
  · cases h

/-- The key a call registers: that of a registration that succeeds. -/
def Call.registeredKey (env : Env) (s : Store) : Call → Option Bytes
  | .registScheduler o stash nodeKey peerId podr2Pbk report =>
    match TeeWorker.registScheduler env o stash nodeKey peerId podr2Pbk report s with
    | .ok _ => some podr2Pbk
    | .error _ => none
  | _ => none

/-- What one call does to the counter and the key: a successful registration leaves the
counter positive and stores its key if the counter was zero; every other call, and every
call that fails, leaves both as they were. -/
theorem Call.next_cases (env : Env) (c : Call) (s : Store) :
    (∃ k, c.registeredKey env s = some k ∧ (c.next env s).teeWorkerCount ≠ 0 ∧
      (c.next env s).teePodr2Pk = if s.teeWorkerCount = 0 then some k else s.teePodr2Pk) ∨
    (c.registeredKey env s = none ∧ (c.next env s).teeWorkerCount = s.teeWorkerCount ∧
      (c.next env s).teePodr2Pk = s.teePodr2Pk) := by
  unfold Call.next
  cases c with
  | registScheduler o stash nodeKey peerId podr2Pbk report =>
    simp only [Call.registeredKey, Call.run]
    cases h : TeeWorker.registScheduler env o stash nodeKey peerId podr2Pbk report s with
    | ok s' => exact .inl ⟨podr2Pbk, rfl, registScheduler_effects h⟩
    | error e => exact .inr ⟨rfl, rfl, rfl⟩
  | testVerifySig o puk sig msg =>
    refine .inr ⟨rfl, ?_⟩
    simp only [Call.run]
    split
    · next s' h => rw [testVerifySig_eq_ok h]; exact ⟨rfl, rfl⟩
    · exact ⟨rfl, rfl⟩
  | updateWhitelist o mrEnclave =>
    refine .inr ⟨rfl, ?_⟩
    simp only [Call.run]
    split
    · next s' h => obtain ⟨_, rfl⟩ := updateWhitelist_eq_ok h; exact ⟨rfl, rfl⟩
    · exact ⟨rfl, rfl⟩

/-! ## The shared key over a run -/

/-- The key of the first registration of a run that succeeds, if one does. -/
def firstRegisteredKey : Store → List (Env × Call) → Option Bytes
  | _, [] => none
  | s, (env, c) :: rest => (c.registeredKey env s).or (firstRegisteredKey (c.next env s) rest)

theorem Call.runAll_append (s : Store) (run run' : List (Env × Call)) :
    Call.runAll s (run ++ run') = Call.runAll (Call.runAll s run) run' := by
  induction run generalizing s with
  | nil => rfl
  | cons p rest ih => exact ih _

theorem firstRegisteredKey_append : ∀ (s : Store) (run run' : List (Env × Call)),
    firstRegisteredKey s (run ++ run') =
      (firstRegisteredKey s run).or (firstRegisteredKey (Call.runAll s run) run')
  | _, [], _ => rfl
  | s, (env, c) :: rest, run' => by
    show (c.registeredKey env s).or (firstRegisteredKey (c.next env s) (rest ++ run')) = _
    rw [firstRegisteredKey_append _ rest run', ← Option.or_assoc]
    rfl

/-- From a store whose key is absent while its counter is zero, a run leaves the key of its
first successful registration if the counter was zero, and the key it found otherwise. -/
theorem runAll_teePodr2Pk : ∀ (run : List (Env × Call)) (s : Store),
    (s.teeWorkerCount = 0 → s.teePodr2Pk = none) →
    (Call.runAll s run).teePodr2Pk =
      if s.teeWorkerCount = 0 then firstRegisteredKey s run else s.teePodr2Pk
  | [], s, hs => by split <;> simp_all [Call.runAll, firstRegisteredKey]
  | (env, c) :: rest, s, hs => by
    simp only [Call.runAll, firstRegisteredKey]
    rcases Call.next_cases env c s with ⟨k, hk, hcount, hkey⟩ | ⟨hk, hcount, hkey⟩
    · rw [runAll_teePodr2Pk rest _ fun h => absurd h hcount, if_neg hcount, hkey, hk]
      split <;> rfl
    · rw [runAll_teePodr2Pk rest _ (hcount ▸ hkey ▸ hs), hcount, hkey, hk]
      rfl

/-- The shared PoDR2 key after any run from empty storage is the key of the run's first
successful registration, and absent if none succeeded; no later call changes it. -/
theorem podr2_key_of_first_registration (run : List (Env × Call)) :
    (Call.runAll Store.empty run).teePodr2Pk = firstRegisteredKey Store.empty run ∧
    ∀ (run' : List (Env × Call)) (k : Bytes),
      (Call.runAll Store.empty run).teePodr2Pk = some k →
        (Call.runAll Store.empty (run ++ run')).teePodr2Pk = some k := by
  have hfirst : ∀ run : List (Env × Call),
      (Call.runAll Store.empty run).teePodr2Pk = firstRegisteredKey Store.empty run :=
    fun run => runAll_teePodr2Pk run Store.empty (fun _ => rfl)
  refine ⟨hfirst run, fun run' k hk => ?_⟩
  rw [hfirst, firstRegisteredKey_append, ← hfirst, hk]
  rfl

/-! ## The worker map over a run -/

/-- The controller a call registers: the signer of a registration that succeeds. -/
def Call.registeredController (env : Env) (s : Store) : Call → Option AccountId
  | .registScheduler o stash nodeKey peerId podr2Pbk report =>
    match TeeWorker.registScheduler env o stash nodeKey peerId podr2Pbk report s with
    | .ok _ => (ensureSigned o).toOption
    | .error _ => none
  | _ => none

/-- What one call does to the worker map: a successful registration inserts a new worker
under its signer, with the signer as the worker's controller, and raises the counter; every
other call, and every call that fails, leaves the map and the counter as they were. -/
theorem Call.next_workers (env : Env) (c : Call) (s : Store) :
    (c.registeredController env s = none ∧ (c.next env s).teeWorkerMap = s.teeWorkerMap ∧
      (c.next env s).teeWorkerCount = s.teeWorkerCount) ∨
    (∃ acc info, c.registeredController env s = some acc ∧ info.controllerAccount = acc ∧
      s.teeWorkerMap.contains acc = false ∧
      (c.next env s).teeWorkerMap = s.teeWorkerMap.insert acc info ∧
      (c.next env s).teeWorkerCount = min (s.teeWorkerCount + 1) u32Max) := by
  unfold Call.next
  cases c with
  | registScheduler o stash nodeKey peerId podr2Pbk report =>
    simp only [Call.registeredController, Call.run]
    cases h : TeeWorker.registScheduler env o stash nodeKey peerId podr2Pbk report s with
    | ok s' =>
      obtain ⟨sender, rfl, -, hc, rfl⟩ := registScheduler_eq_ok h
      refine .inr ⟨sender, ⟨sender, peerId, nodeKey, stash⟩, rfl, rfl, hc, ?_⟩
      by_cases h0 : s.teeWorkerCount = 0 <;> simp [h0, Store.insertWorker, hc]
    | error e => exact .inl ⟨rfl, rfl, rfl⟩
  | testVerifySig o puk sig msg =>
    refine .inl ⟨rfl, ?_⟩
    simp only [Call.run]
    split
    · next s' h => rw [testVerifySig_eq_ok h]; exact ⟨rfl, rfl⟩
    · exact ⟨rfl, rfl⟩
  | updateWhitelist o mrEnclave =>
    refine .inl ⟨rfl, ?_⟩
    simp only [Call.run]
    split
    · next s' h => obtain ⟨_, rfl⟩ := updateWhitelist_eq_ok h; exact ⟨rfl, rfl⟩
    · exact ⟨rfl, rfl⟩

/-- The signers of a run's successful registrations, in order. -/
def registrations : Store → List (Env × Call) → List AccountId
  | _, [] => []
  | s, (env, c) :: rest =>
    (c.registeredController env s).toList ++ registrations (c.next env s) rest

/-- A run appends the signers of its successful registrations to the controller list, in the
model's iteration order, where a new key comes last. -/
theorem runAll_controllerList : ∀ (run : List (Env × Call)) (s : Store),
    getControllerList (Call.runAll s run) = getControllerList s ++ registrations s run
  | [], s => (List.append_nil _).symm
  | (env, c) :: rest, s => by
    rw [Call.runAll, registrations, runAll_controllerList rest, ← List.append_assoc]
    congr 1
    rcases Call.next_workers env c s with ⟨hreg, hmap, -⟩ | ⟨acc, info, hreg, -, hc, hmap, -⟩
    · simp [getControllerList, hmap, hreg]
    · simp [getControllerList, hmap, hreg, StorageMap.entries_insert_of_contains_eq_false hc]

/-- From a store whose counter is its entry count saturated at `u32::MAX`, a run keeps it so. -/
theorem runAll_count : ∀ (run : List (Env × Call)) (s : Store),
    s.teeWorkerCount = min s.teeWorkerMap.entries.length u32Max →
      (Call.runAll s run).teeWorkerCount =
        min (Call.runAll s run).teeWorkerMap.entries.length u32Max
  | [], _, hs => hs
  | (env, c) :: rest, s, hs => runAll_count rest _ <| by
    rcases Call.next_workers env c s with ⟨-, hmap, hcount⟩ | ⟨acc, info, -, -, hc, hmap, hcount⟩
    · rw [hmap, hcount, hs]
    · rw [hmap, hcount, StorageMap.entries_insert_of_contains_eq_false hc, List.length_append, hs]
      simp only [List.length_singleton]
      omega

/-- After any run from empty storage, `get_controller_list` holds the signers of the run's
successful registrations, each once, the counter is their number saturated at `u32::MAX`,
and `contains_scheduler` answers `true` exactly for them. The list's order is the map's
iteration order, which the statement leaves open. -/
theorem controllers_follow_registrations (run : List (Env × Call)) :
    (getControllerList (Call.runAll Store.empty run)).Perm (registrations Store.empty run) ∧
    (registrations Store.empty run).Nodup ∧
    (Call.runAll Store.empty run).teeWorkerCount =
      min (registrations Store.empty run).length u32Max ∧
    ∀ acc, containsScheduler (Call.runAll Store.empty run) acc = true ↔
      acc ∈ registrations Store.empty run := by
  have hlist := runAll_controllerList run Store.empty
  rw [show getControllerList Store.empty = [] from rfl, List.nil_append] at hlist
  refine ⟨hlist ▸ .refl _, hlist ▸ (Call.runAll Store.empty run).teeWorkerMap.nodup, ?_,
    fun acc => ?_⟩
  · rw [runAll_count run Store.empty rfl, ← hlist, getControllerList, List.length_map]
  · rw [← hlist, getControllerList, containsScheduler, StorageMap.mem_keys_iff_contains]

/-- One call keeps every worker as it was. -/
theorem Call.next_keeps_worker (env : Env) (c : Call) {s : Store} {acc : AccountId}
    {info : TeeWorkerInfo} (h : s.teeWorkerMap.get acc = some info) :
    (c.next env s).teeWorkerMap.get acc = some info := by
  rcases Call.next_workers env c s with ⟨-, hmap, -⟩ | ⟨acc', info', -, -, hc, hmap, -⟩
  · rw [hmap, h]
  · have hne : acc ≠ acc' := by
      rintro rfl
      simp [StorageMap.contains, h] at hc
    rw [hmap, StorageMap.get_insert, if_neg hne, h]

/-- A run keeps every worker. -/
theorem runAll_keeps_worker : ∀ (run : List (Env × Call)) {s : Store} {acc : AccountId}
    {info : TeeWorkerInfo}, s.teeWorkerMap.get acc = some info →
      (Call.runAll s run).teeWorkerMap.get acc = some info
  | [], _, _, _, h => h
  | (env, c) :: rest, _, _, _, h => runAll_keeps_worker rest (c.next_keeps_worker env h)

/-- Every worker is stored under its controller. -/
def KeyedByController (s : Store) : Prop :=
  ∀ acc info, s.teeWorkerMap.get acc = some info → info.controllerAccount = acc

theorem KeyedByController.runAll : ∀ (run : List (Env × Call)) {s : Store},
    KeyedByController s → KeyedByController (Call.runAll s run)
  | [], _, hs => hs
  | (env, c) :: rest, s, hs => KeyedByController.runAll rest fun acc info hget => by
    rcases Call.next_workers env c s with ⟨-, hmap, -⟩ | ⟨acc', info', -, hkey, -, hmap, -⟩
    · exact hs acc info (hmap ▸ hget)
    · rw [hmap, StorageMap.get_insert] at hget
      split at hget
      · next hacc => cases hget; rw [hkey, hacc]
      · exact hs acc info hget

/-- Every worker a run from empty storage registers is stored under its own controller, and
stays, unchanged, whatever calls follow. -/
theorem workers_keyed_and_permanent (run run' : List (Env × Call)) {acc : AccountId}
    {info : TeeWorkerInfo} (h : (Call.runAll Store.empty run).teeWorkerMap.get acc = some info) :
    info.controllerAccount = acc ∧
      (Call.runAll Store.empty (run ++ run')).teeWorkerMap.get acc = some info :=
  ⟨@KeyedByController.runAll run Store.empty (fun _ _ h => nomatch h) acc info h,
    Call.runAll_append Store.empty run run' ▸ runAll_keeps_worker run' h⟩

/-- A runtime in which every stash is bonded to itself, and every check passes. -/
def selfBondedEnv : Env where
  bonded stash := some stash
  verifyMinerCert _ _ _ := true
  ed25519Verify _ _ _ := true
  maxWhitelist := 8
  recordPunishment _ := .ok ()

/-- Account 3 registers as the worker of its own stash. -/
def selfBondedRun : List (Env × Call) :=
  [(selfBondedEnv, .registScheduler (.signed 3) 3 [] [] [7] ⟨[], [], []⟩)]

/-- Worker 3 stays through a whitelist update. -/
theorem self_bonded_worker_stays :
    (Call.runAll Store.empty selfBondedRun).teeWorkerMap.get 3 = some ⟨3, [], [], 3⟩ ∧
      (⟨3, [], [], 3⟩ : TeeWorkerInfo).controllerAccount = 3 ∧
      (Call.runAll Store.empty
        (selfBondedRun ++ [(selfBondedEnv, .updateWhitelist .root [1])])).teeWorkerMap.get 3 =
          some ⟨3, [], [], 3⟩ :=
  ⟨by decide, workers_keyed_and_permanent _ _ (by decide)⟩

/-! ## Stashes under a fixed bonding -/

/-- Every worker is registered under the controller `bonded` gives its stash. -/
def BondedWorkers (bonded : AccountId → Option AccountId) (s : Store) : Prop :=
  ∀ acc info, s.teeWorkerMap.get acc = some info → bonded info.stashAccount = some acc

theorem BondedWorkers.next {bonded : AccountId → Option AccountId} {s : Store}
    (hs : BondedWorkers bonded s) {env : Env} (henv : env.bonded = bonded) (c : Call) :
    BondedWorkers bonded (c.next env s) := by
  unfold Call.next
  cases c with
  | registScheduler o stash nodeKey peerId podr2Pbk report =>
    simp only [Call.run]
    split
    · next s' h =>
      obtain ⟨sender, -, hb, -, rfl⟩ := registScheduler_eq_ok h
      intro acc info hget
      rw [insertWorker_get] at hget
      split at hget
      · next hacc => cases hget; rw [← henv, hb, hacc]
      · exact hs acc info (by split at hget <;> exact hget)
    · exact hs
  | testVerifySig o puk sig msg =>
    simp only [Call.run]
    split
    · next s' h => exact testVerifySig_eq_ok h ▸ hs
    · exact hs
  | updateWhitelist o mrEnclave =>
    simp only [Call.run]
    split
    · next s' h => obtain ⟨_, rfl⟩ := updateWhitelist_eq_ok h; exact hs
    · exact hs

theorem BondedWorkers.runAll {bonded : AccountId → Option AccountId} :
    ∀ {run : List (Env × Call)} {s : Store}, (∀ p ∈ run, p.1.bonded = bonded) →
      BondedWorkers bonded s → BondedWorkers bonded (Call.runAll s run)
  | [], _, _, hs => hs
  | (_, c) :: rest, _, hrun, hs =>
    @BondedWorkers.runAll bonded rest _ (fun p hp => hrun p (List.mem_cons_of_mem _ hp))
      (hs.next (hrun _ (List.mem_cons_self _ _)) c)

/-- Two workers with one stash are one worker. -/
theorem BondedWorkers.stash_unique {bonded : AccountId → Option AccountId} {s : Store}
    (hs : BondedWorkers bonded s) {a b : AccountId} {ia ib : TeeWorkerInfo}
    (ha : s.teeWorkerMap.get a = some ia) (hb : s.teeWorkerMap.get b = some ib)
    (hstash : ia.stashAccount = ib.stashAccount) : a = b :=
  Option.some_injective _ ((hs a ia ha).symm.trans (hstash ▸ hs b ib hb))

/-- The search of `get_controller_acc` meets the first worker of the stash, if there is one. -/
theorem findController_of_mem {acc : AccountId} :
    ∀ {l : List (AccountId × TeeWorkerInfo)}, (∃ e ∈ l, e.2.stashAccount = acc) →
      ∃ e ∈ l, e.2.stashAccount = acc ∧ findController acc l = e.1
  | [], ⟨_, he, _⟩ => absurd he (List.not_mem_nil _)
  | (controllerUser, teeInfo) :: rest, ⟨e, he, hacc⟩ => by
    unfold findController
    by_cases h : teeInfo.stashAccount = acc
    · exact ⟨_, List.mem_cons_self _ _, h, if_pos h⟩
    · rcases List.mem_cons.mp he with rfl | he
      · exact absurd hacc h
      · obtain ⟨e', he', hacc', hfind⟩ := findController_of_mem ⟨e, he, hacc⟩
        exact ⟨e', List.mem_cons_of_mem _ he', hacc', by rw [if_neg h, hfind]⟩

/-- Where every worker is registered under its stash's controller, `get_controller_acc`
answers a stash with the one controller registered for it. -/
theorem getControllerAcc_of_bondedWorkers {bonded : AccountId → Option AccountId} {s : Store}
    (hs : BondedWorkers bonded s) {acc : AccountId} {info : TeeWorkerInfo}
    (hget : s.teeWorkerMap.get acc = some info) :
    getControllerAcc s info.stashAccount = acc := by
  obtain ⟨e, he, hstash, hfind⟩ := findController_of_mem
    ⟨(acc, info), StorageMap.mem_entries_iff.mpr hget, rfl⟩
  rw [getControllerAcc, hfind]
  exact hs.stash_unique (StorageMap.mem_entries_iff.mp he) hget hstash

/-- While the staking pallet's bonding stays fixed, no two workers registered by a run from
empty storage share a stash, and `get_controller_acc` answers each stash with its worker. -/
theorem stash_unique_of_fixed_bonding (bonded : AccountId → Option AccountId)
    (run : List (Env × Call)) (hrun : ∀ p ∈ run, p.1.bonded = bonded) {a b : AccountId}
    {ia ib : TeeWorkerInfo} (ha : (Call.runAll Store.empty run).teeWorkerMap.get a = some ia)
    (hb : (Call.runAll Store.empty run).teeWorkerMap.get b = some ib)
    (hstash : ia.stashAccount = ib.stashAccount) :
    a = b ∧ getControllerAcc (Call.runAll Store.empty run) ia.stashAccount = a := by
  have hs : BondedWorkers bonded (Call.runAll Store.empty run) :=
    BondedWorkers.runAll hrun fun _ _ h => nomatch h
  exact ⟨hs.stash_unique ha hb hstash, getControllerAcc_of_bondedWorkers hs ha⟩

theorem punishScheduler_eq_ok {env : Env} {s : Store} {acc stash : AccountId} :
    punishScheduler env s acc = .ok stash ↔ ∃ info, s.teeWorkerMap.get acc = some info ∧
      env.recordPunishment info.stashAccount = .ok () ∧ stash = info.stashAccount := by
  simp only [punishScheduler, except_bind_eq_ok, okOr_eq_ok, pure, Except.pure, Except.ok.injEq]
  constructor
  · rintro ⟨info, hget, _, hrec, rfl⟩
    exact ⟨info, hget, hrec, rfl⟩
  · rintro ⟨info, hget, hrec, rfl⟩
    exact ⟨info, hget, (), hrec, rfl⟩

/-- While the staking pallet's bonding stays fixed, `punish_scheduler` on a worker registered by
a run from empty storage punishes a stash bonded to that worker. -/
theorem punished_stash_bonded_to_worker (bonded : AccountId → Option AccountId)
    (run : List (Env × Call)) (hrun : ∀ p ∈ run, p.1.bonded = bonded) {env : Env}
    {acc stash : AccountId}
    (h : punishScheduler env (Call.runAll Store.empty run) acc = .ok stash) :
    bonded stash = some acc ∧ env.recordPunishment stash = .ok () := by
  obtain ⟨info, hget, hrec, rfl⟩ := punishScheduler_eq_ok.mp h
  exact ⟨@BondedWorkers.runAll bonded run Store.empty hrun (fun _ _ h => nomatch h) acc info hget,
    hrec⟩

/-- Worker 3 is punished through its own stash. -/
theorem self_bonded_worker_punished :
    selfBondedEnv.bonded 3 = some 3 ∧ selfBondedEnv.recordPunishment 3 = .ok () :=
  punished_stash_bonded_to_worker selfBondedEnv.bonded selfBondedRun
    (fun p hp => by rw [List.mem_singleton.mp hp]) rfl

/-! ## A rebonded stash -/

/-- A runtime in which stash 1 is bonded to `controller`, and every check passes. -/
def rebondEnv (controller : AccountId) : Env where
  bonded stash := if stash = 1 then some controller else none
  verifyMinerCert _ _ _ := true
  ed25519Verify _ _ _ := true
  maxWhitelist := 8
  recordPunishment _ := .ok ()

/-- Controller 10 registers stash 1; the stash is then rebonded to controller 20, which
registers it too. -/
def rebondRun : List (Env × Call) :=
  [(rebondEnv 10, .registScheduler (.signed 10) 1 [] [] [7] ⟨[], [], []⟩),
    (rebondEnv 20, .registScheduler (.signed 20) 1 [] [] [8] ⟨[], [], []⟩)]

/-- After the rebonding, two workers back stash 1, and `get_controller_acc` answers stash 1
with controller 10, which no longer controls it. -/
theorem rebonded_stash_backs_two_workers :
    (Call.runAll Store.empty rebondRun).teeWorkerMap.get 10 = some ⟨10, [], [], 1⟩ ∧
    (Call.runAll Store.empty rebondRun).teeWorkerMap.get 20 = some ⟨20, [], [], 1⟩ ∧
    getControllerAcc (Call.runAll Store.empty rebondRun) 1 = 10 ∧
    (rebondEnv 20).bonded 1 = some 20 := by
  decide

end Cess.TeeWorker
