import Cess.FileBank.Laws.Footprint
import Cess.FileBank.Laws.Draw

/-!
# Audit laws

What `get_random_challenge_data` returns, for every store and every randomness source.

* The index draw (`get_random_numberlist`, `Laws.Draw`) returns distinct indices below the
  pool's length, exactly as many as its rate asks for (`getRandomNumberlist_spec`).
* The pool counts and the positional walks read the same sequence of entries, so the sample
  is the pool's entries at the drawn indices (`getRandomFiller_eq_ok`, `getRandomFile_eq_ok`):
  distinct entries, one per index (`drawn_sample_spec`). Each challenge is built from the
  entry it samples, and a file whose recorded miner id is stale is skipped
  (`fillerChallenges_spec`, `fileChallenges_spec`); `audit_sample_is_selection` puts these
  together.
* Distinct entries do not make distinct challenges: two miners' fillers with the same id and
  miner address give the same tuple (`filler_challenge_repeats`).
* A filler's challenge is addressed to the miner address its record carries, which is the
  submitter's choice: `upload_filler` stores the record under the miner it is called for and
  never compares the two. A file's challenge is addressed to the file's miner.
-/

set_option autoImplicit false

namespace Cess.FileBank

/-! ## Counts and walks -/

/-- The `u32` count of a list from `length` is its length added on, and fits a `u32`. -/
theorem countEntries_spec {α : Type} : ∀ {l : List α} {length n : Nat}, length < 2 ^ 32 →
    countEntries l length = .ok n → n = length + l.length ∧ n < 2 ^ 32
  | [], _, _, hlen, h => by cases h; exact ⟨rfl, hlen⟩
  | _ :: rest, length, n, _, h => by
    unfold countEntries at h
    split at h
    · next length' heq =>
      obtain ⟨hfit, rfl⟩ := checkedAdd_eq_some.mp heq
      obtain ⟨rfl, hn⟩ := countEntries_spec hfit h
      exact ⟨by simp only [List.length_cons]; omega, hn⟩
    · cases h

/-- The walk from `counter` reaches the entry at `i - counter`, while `i` fits a `u32`. -/
theorem walkTo_spec {α : Type} {i : Nat} (hi : i < 2 ^ 32) :
    ∀ (l : List α) {counter : Nat}, counter ≤ i → walkTo i l counter = .ok l[i - counter]?
  | [], _, _ => rfl
  | e :: rest, counter, hc => by
    unfold walkTo
    by_cases heq : counter = i
    · subst heq; simp
    · rw [if_neg heq, show checkedAdd 32 counter 1 = some (counter + 1) from
        checkedAdd_eq_some.mpr ⟨by omega, rfl⟩]
      simp only
      rw [walkTo_spec hi rest (by omega), show i - counter = (i - (counter + 1)) + 1 by omega,
        List.getElem?_cons_succ]

/-- One walk per index: the entries at the indices, in the indices' order. -/
theorem collectAt_spec {α : Type} (entries : List α) :
    ∀ {is : List Nat}, (∀ i ∈ is, i < 2 ^ 32) →
      collectAt entries is = .ok (is.filterMap fun i => entries[i]?)
  | [], _ => rfl
  | i :: rest, his => by
    have hi := his i (List.mem_cons_self _ _)
    simp only [collectAt, walkTo_spec hi entries (Nat.zero_le _), Nat.sub_zero,
      collectAt_spec entries (fun j hj => his j (List.mem_cons_of_mem _ hj)), List.filterMap_cons]
    cases entries[i]? <;> rfl

theorem length_filterMap_getElem? {α : Type} {entries : List α} :
    ∀ {is : List Nat}, (∀ i ∈ is, i < entries.length) →
      (is.filterMap fun i => entries[i]?).length = is.length
  | [], _ => rfl
  | i :: rest, his => by
    have hi := his i (List.mem_cons_self _ _)
    simp only [List.filterMap_cons, List.getElem?_eq_getElem hi, List.length_cons,
      length_filterMap_getElem? fun j hj => his j (List.mem_cons_of_mem _ hj)]

/-- Distinct indices into a list without repeats pick distinct entries of it. -/
theorem sample_spec {α : Type} {entries : List α} (hnodup : entries.Nodup) {is : List Nat}
    (his : is.Nodup) (hlt : ∀ i ∈ is, i < entries.length) :
    (is.filterMap fun i => entries[i]?).Nodup ∧
      (∀ e ∈ is.filterMap (fun i => entries[i]?), e ∈ entries) ∧
      (is.filterMap fun i => entries[i]?).length = is.length := by
  refine ⟨his.filterMap fun a a' b ha ha' => ?_, fun e he => ?_, length_filterMap_getElem? hlt⟩
  · have ha₀ : a < entries.length := (List.getElem?_eq_some_iff.mp ha).1
    exact List.getElem?_inj ha₀ hnodup (ha.trans ha'.symm)
  · obtain ⟨i, -, hi⟩ := List.mem_filterMap.mp he
    exact List.getElem?_mem hi

/-- Counting a pool, drawing indices for the count and walking to each index: the entries of
the walked list at the drawn indices. -/
theorem drawFrom_eq_ok {α β : Type} {env : Env} {counted : List α} {pool : List β}
    {randomType : Nat} {out : List β} (hlen : pool.length = counted.length)
    (h : (do
      let length ← countEntries counted 0
      let numberList ← getRandomNumberlist env length randomType
      collectAt pool numberList) = .ok out) :
    ∃ is, getRandomNumberlist env counted.length randomType = .ok is ∧
      out = is.filterMap fun i => pool[i]? := by
  obtain ⟨length, hcount, h₁⟩ := except_bind_eq_ok.mp h
  obtain ⟨is, his, h₂⟩ := except_bind_eq_ok.mp h₁
  obtain ⟨hn, hfit⟩ := countEntries_spec (by decide) hcount
  rw [Nat.zero_add] at hn
  subst hn
  rw [collectAt_spec _ fun i hi => ((getRandomNumberlist_spec his).2.1 i hi).trans
    (hlen ▸ hfit)] at h₂
  cases h₂
  exact ⟨is, his, rfl⟩

/-- The sampled fillers are those of the `FillerMap` entries at the indices drawn for the
map's size, in the draw's order. -/
theorem getRandomFiller_eq_ok {env : Env} {s : Store} {vs : List FillerInfo}
    (h : getRandomFiller env s = .ok vs) : ∃ is,
      getRandomNumberlist env s.fillerMap.entries.length 1 = .ok is ∧
      vs = (is.filterMap fun i => s.fillerMap.entries[i]?).map Prod.snd := by
  obtain ⟨is, his, rfl⟩ := drawFrom_eq_ok (List.length_map _ _) h
  refine ⟨is, his, ?_⟩
  rw [List.map_filterMap]
  simp only [List.getElem?_map]

/-- The sampled files are the committed `File` entries at the indices drawn for their number,
in the draw's order. -/
theorem getRandomFile_eq_ok {env : Env} {s : Store} {fs : List (Bytes × FileInfo)}
    (h : getRandomFile env s = .ok fs) : ∃ is,
      getRandomNumberlist env (s.file.entries.filter isActive).length 2 = .ok is ∧
      fs = is.filterMap fun i => (s.file.entries.filter isActive)[i]? :=
  drawFrom_eq_ok rfl h

/-- The entries of a pool without repeats at the indices a draw for its size returns: distinct
entries of the pool, one per drawn index. -/
theorem drawn_sample_spec {α : Type} {env : Env} {pool : List α} {randomType : Nat}
    {is : List Nat} (hnodup : pool.Nodup)
    (his : getRandomNumberlist env pool.length randomType = .ok is) :
    (is.filterMap fun i => pool[i]?).Nodup ∧ (∀ e ∈ is.filterMap (fun i => pool[i]?), e ∈ pool) ∧
      (is.filterMap fun i => pool[i]?).length = if pool.length = 0 then 0 else
        pool.length * (if randomType = 2 then 138 else 46) / 1000 + 1 :=
  let ⟨hsorted, hlt, hcount⟩ := getRandomNumberlist_spec his
  let ⟨hes, hmem, hlen⟩ := sample_spec hnodup hsorted.nodup hlt
  ⟨hes, hmem, hlen.trans hcount⟩

/-- The sampled fillers are the values of distinct `FillerMap` entries, as many as the draw
asks for. -/
theorem getRandomFiller_spec {env : Env} {s : Store} {vs : List FillerInfo}
    (h : getRandomFiller env s = .ok vs) : ∃ es : List ((AccountId × Bytes) × FillerInfo),
      es.Nodup ∧ (∀ e ∈ es, e ∈ s.fillerMap.entries) ∧
      es.length = (if s.fillerMap.entries.length = 0 then 0 else
        s.fillerMap.entries.length * 46 / 1000 + 1) ∧ vs = es.map Prod.snd := by
  obtain ⟨is, his, rfl⟩ := getRandomFiller_eq_ok h
  obtain ⟨hes, hmem, hlen⟩ := drawn_sample_spec (List.Nodup.of_map Prod.fst s.fillerMap.nodup) his
  exact ⟨_, hes, hmem, hlen, rfl⟩

/-- The sampled files are distinct committed `File` entries, as many as the draw asks for. -/
theorem getRandomFile_spec {env : Env} {s : Store} {fs : List (Bytes × FileInfo)}
    (h : getRandomFile env s = .ok fs) :
    fs.Nodup ∧ (∀ e ∈ fs, e ∈ s.file.entries ∧ isActive e = true) ∧
      fs.length = (if (s.file.entries.filter isActive).length = 0 then 0 else
        (s.file.entries.filter isActive).length * 138 / 1000 + 1) := by
  obtain ⟨is, his, rfl⟩ := getRandomFile_eq_ok h
  obtain ⟨hes, hmem, hlen⟩ :=
    drawn_sample_spec ((List.Nodup.of_map Prod.fst s.file.nodup).filter _) his
  exact ⟨hes, fun e he => List.mem_filter.mp (hmem e he), hlen⟩

/-! ## Challenges -/

/-- `c` is the challenge of the filler `v`. -/
def Challenge.OfFiller (c : Challenge) (v : FillerInfo) : Prop :=
  c.acc = v.minerAddress ∧ c.id = v.fillerId ∧ c.size = v.fillerSize ∧ c.kind = 1 ∧
    c.segmentSize = v.segmentSize

/-- `c` is the challenge of the file `e`, whose recorded miner id is its miner's current one. -/
def Challenge.OfFile (env : Env) (c : Challenge) (e : Bytes × FileInfo) : Prop :=
  c.acc = e.2.minerAcc ∧ c.id = e.1 ∧ c.size = e.2.fileSize ∧ c.kind = 2 ∧
    c.segmentSize = e.2.segmentSize ∧ env.getMinerId e.2.minerAcc = .ok e.2.minerId

/-- The block list of a challenge: the indices the draw returned for `n` shards, each cut to
a byte by `*i as u8`. -/
def BlockListOf (env : Env) (c : Challenge) (n : Nat) : Prop :=
  ∃ l, getRandomNumberlist env n 1 = .ok l ∧ c.blockList = l.map Nat.toUInt8

/-- The filler challenges are those of the sampled fillers, in order, each with the block
list drawn for the filler's block count. -/
theorem fillerChallenges_eq_ok {env : Env} :
    ∀ {vs : List FillerInfo} {cs : List Challenge}, fillerChallenges env vs = .ok cs →
      List.Forall₂ (fun c v => c.OfFiller v ∧ BlockListOf env c v.blockNum) cs vs
  | [], _, h => by cases h; exact .nil
  | v :: rest, cs, h => by
    obtain ⟨l, hl, h⟩ := except_bind_eq_ok.mp h
    obtain ⟨more, hmore, h⟩ := except_bind_eq_ok.mp h
    cases h
    exact .cons ⟨⟨rfl, rfl, rfl, rfl, rfl⟩, l, hl, rfl⟩ (fillerChallenges_eq_ok hmore)

theorem fillerChallenges_spec {env : Env} {vs : List FillerInfo} {cs : List Challenge}
    (h : fillerChallenges env vs = .ok cs) : List.Forall₂ Challenge.OfFiller cs vs :=
  (fillerChallenges_eq_ok h).imp fun _ _ h => h.1

/-- Whether the miner id a file records is its miner's current one, the check
`get_random_challenge_data` makes before challenging the file. -/
def hasCurrentMinerId (env : Env) (e : Bytes × FileInfo) : Bool :=
  match env.getMinerId e.2.minerAcc with
  | .ok minerId => e.2.minerId = minerId
  | .error _ => false

/-- The file challenges are those of the sampled files whose miner id is current, in order,
each with the block list drawn for the file's block count. -/
theorem fileChallenges_eq_ok {env : Env} :
    ∀ {fs : List (Bytes × FileInfo)} {cs : List Challenge}, fileChallenges env fs = .ok cs →
      List.Forall₂ (fun c e => c.OfFile env e ∧ BlockListOf env c e.2.blockNum) cs
        (fs.filter (hasCurrentMinerId env))
  | [], _, h => by cases h; exact .nil
  | (fileHash, file) :: rest, cs, h => by
    obtain ⟨minerId, hid, h⟩ := except_bind_eq_ok.mp h
    have hcur : hasCurrentMinerId env (fileHash, file) = decide (file.minerId = minerId) := by
      simp only [hasCurrentMinerId, hid]
    split at h
    · next hstale =>
      rw [List.filter_cons_of_neg (by simpa only [hcur, decide_eq_true_eq])]
      exact fileChallenges_eq_ok h
    · next hcurrent =>
      obtain ⟨l, hl, h⟩ := except_bind_eq_ok.mp h
      obtain ⟨more, hmore, h⟩ := except_bind_eq_ok.mp h
      cases h
      have heq : file.minerId = minerId := not_not.mp hcurrent
      rw [List.filter_cons_of_pos (by simpa only [hcur, decide_eq_true_eq])]
      exact .cons ⟨⟨rfl, rfl, rfl, rfl, rfl, heq ▸ hid⟩, l, hl, rfl⟩ (fileChallenges_eq_ok hmore)

theorem fileChallenges_spec {env : Env} {fs : List (Bytes × FileInfo)} {cs : List Challenge}
    (h : fileChallenges env fs = .ok cs) :
    List.Forall₂ (Challenge.OfFile env) cs (fs.filter (hasCurrentMinerId env)) :=
  (fileChallenges_eq_ok h).imp fun _ _ h => h.1

/-- What `get_random_challenge_data` returns: the sampled fillers' challenges, then the
sampled files'. -/
theorem getRandomChallengeData_eq_ok {env : Env} {s : Store} {data : List Challenge}
    (h : getRandomChallengeData env s = .ok data) :
    ∃ vs fs cs₁ cs₂, getRandomFiller env s = .ok vs ∧ fillerChallenges env vs = .ok cs₁ ∧
      getRandomFile env s = .ok fs ∧ fileChallenges env fs = .ok cs₂ ∧ data = cs₁ ++ cs₂ := by
  obtain ⟨vs, hvs, h⟩ := except_bind_eq_ok.mp h
  obtain ⟨cs₁, hcs₁, h⟩ := except_bind_eq_ok.mp h
  obtain ⟨fs, hfs, h⟩ := except_bind_eq_ok.mp h
  obtain ⟨cs₂, hcs₂, h⟩ := except_bind_eq_ok.mp h
  cases h
  exact ⟨vs, fs, cs₁, cs₂, hvs, hcs₁, hfs, hcs₂, rfl⟩

theorem exists_of_mem_forall₂ {α β : Type} {R : α → β → Prop} {a : α} :
    ∀ {l₁ : List α} {l₂ : List β}, List.Forall₂ R l₁ l₂ → a ∈ l₁ → ∃ b ∈ l₂, R a b
  | _, _, .nil, h => absurd h (List.not_mem_nil _)
  | _, _, .cons hr hrest, h => by
    rcases List.mem_cons.mp h with rfl | h
    · exact ⟨_, List.mem_cons_self _ _, hr⟩
    · obtain ⟨b, hb, hab⟩ := exists_of_mem_forall₂ hrest h
      exact ⟨b, List.mem_cons_of_mem _ hb, hab⟩

/-! ## Fillers are stored under their own id -/

/-- Every `FillerMap` record sits under its own filler id. -/
def FillerKeyed (s : Store) : Prop :=
  ∀ m id v, s.fillerMap.get (m, id) = some v → v.fillerId = id

/-- `upload_filler` stores a filler under the id it carries, and nothing else adds one. -/
theorem reachable_fillerKeyed {s : Store} (hs : Reachable s) : FillerKeyed s := by
  have hl : FillerWrites (fun s s' => FillerKeyed s → FillerKeyed s') := by
    refine ⟨fun s miner i _ hk m id v hget => ?_, fun s miner id₀ hk m id v hget => ?_,
      fun s miner hk m id v hget => ?_⟩
    · simp only [fillerSlot, StorageMap.get_set] at hget
      split at hget
      · next hkey => cases hget; exact (Prod.mk.inj hkey).2.symm
      · exact hk m id v hget
    · simp only [fillerSlot, StorageMap.get_set] at hget
      split at hget
      · cases hget
      · exact hk m id v hget
    · rw [← StorageMap.mem_entries_iff, StorageMap.mem_removePrefix_entries] at hget
      exact hk m id v (StorageMap.mem_entries_iff.mp hget.1)
  exact Reachable.of_writes (fun _ _ _ h => nomatch h)
    ⟨fun _ _ _ _ _ => id, fun _ _ _ _ _ _ _ => id, fun _ _ _ _ _ _ _ _ _ _ _ _ _ _ => id,
      fun _ _ _ _ _ _ _ _ => id, fun _ _ => id⟩
    ⟨⟨fun _ _ _ _ _ _ _ _ _ => id, fun _ _ _ _ _ _ _ => id⟩, fun _ _ _ _ _ _ _ _ _ => id⟩ hl
    ⟨fun _ _ _ => id, fun _ _ _ => id, fun _ _ => id⟩ ⟨fun _ _ => id⟩ ⟨fun _ _ _ => id⟩ hs

/-! ## Whom a challenge names -/

/-- In every reachable store, a filler's challenge names an account that some `FillerMap`
record under the challenged id carries as its miner address, and a file's challenge names
the miner of the committed file it challenges, whose current id the file records. -/
theorem challenges_name_holders {s : Store} (hs : Reachable s) {env : Env}
    {data : List Challenge} (h : getRandomChallengeData env s = .ok data) (c : Challenge)
    (hc : c ∈ data) :
    (c.kind = 1 → ∃ m v, s.fillerMap.get (m, c.id) = some v ∧ v.minerAddress = c.acc) ∧
    (c.kind = 2 → ∃ f, s.file.get c.id = some f ∧ f.fileState = activeTag ∧
      f.minerAcc = c.acc ∧ env.getMinerId c.acc = .ok f.minerId) := by
  obtain ⟨vs, fs, cs₁, cs₂, hvs, hcs₁, hfs, hcs₂, rfl⟩ := getRandomChallengeData_eq_ok h
  rcases List.mem_append.mp hc with hc | hc
  · obtain ⟨v, hv, hacc, hid, -, hkind, -⟩ :=
      exists_of_mem_forall₂ (fillerChallenges_spec hcs₁) hc
    refine ⟨fun _ => ?_, fun h2 => absurd (hkind.symm.trans h2) (by decide)⟩
    obtain ⟨es, -, hmem, -, rfl⟩ := getRandomFiller_spec hvs
    obtain ⟨⟨⟨m, id⟩, v⟩, he, rfl⟩ := List.mem_map.mp hv
    have hget := StorageMap.mem_entries_iff.mp (hmem _ he)
    refine ⟨m, v, ?_, hacc.symm⟩
    rw [hid, reachable_fillerKeyed hs m id v hget]
    exact hget
  · obtain ⟨⟨fileHash, f⟩, he, hacc, hid, -, hkind, -, hminer⟩ :=
      exists_of_mem_forall₂ (fileChallenges_spec hcs₂) hc
    refine ⟨fun h1 => absurd (hkind.symm.trans h1) (by decide), fun _ => ?_⟩
    obtain ⟨hmem, hact⟩ := (getRandomFile_spec hfs).2.1 _ (List.mem_of_mem_filter he)
    exact ⟨f, hid ▸ StorageMap.mem_entries_iff.mp hmem, of_decide_eq_true hact, hacc.symm,
      hacc ▸ hminer⟩

/-- A miner's filler submitted with another account as its miner address. -/
def misaddressedFillerStore : Store :=
  (Call.uploadFiller (.signed 9) 5 [⟨1, 0, 0, 6, [3]⟩]).next Env.accepting Store.empty

theorem challenges_name_holders_misaddressed :
    ((⟨6, [3], [], 1, 1, 0⟩ : Challenge).kind = 1 → ∃ m v,
      misaddressedFillerStore.fillerMap.get (m, [3]) = some v ∧ v.minerAddress = 6) ∧
    ((⟨6, [3], [], 1, 1, 0⟩ : Challenge).kind = 2 → ∃ f,
      misaddressedFillerStore.file.get [3] = some f ∧ f.fileState = activeTag ∧
        f.minerAcc = 6 ∧ Env.accepting.getMinerId 6 = .ok f.minerId) :=
  @challenges_name_holders misaddressedFillerStore (.step _ _ .empty) Env.accepting
    [⟨6, [3], [], 1, 1, 0⟩] rfl _ (List.mem_singleton_self _)

/-- The coordinator stores miner 5's filler with account 6 as its miner address: the audit
challenges account 6 for a filler that `FillerMap` holds under miner 5 only. -/
theorem filler_challenge_names_non_holder : Reachable misaddressedFillerStore ∧
    getRandomChallengeData Env.accepting misaddressedFillerStore = .ok [⟨6, [3], [], 1, 1, 0⟩] ∧
    misaddressedFillerStore.fillerMap.get (6, [3]) = none :=
  ⟨.step _ _ .empty, rfl, rfl⟩

/-! ## The sample is a selection -/

/-- What an audit sample is. The filler challenges are those of the `FillerMap` entries at the
indices drawn for the map's size, in the draw's order: distinct entries, as many as the draw
asks for. The file challenges are those of the committed `File` entries at the indices drawn
for their number, in the draw's order, that record their miner's current id: the drawn entries
are distinct and as many as the draw asks for. Entries are distinct; challenges need not be,
since two miners' fillers can carry the same id and miner address. -/
structure ProperSample (env : Env) (s : Store) (data : List Challenge) : Prop where
  fillers : ∃ is es, getRandomNumberlist env s.fillerMap.entries.length 1 = .ok is ∧
    es = (is.filterMap fun i => s.fillerMap.entries[i]?) ∧ es.Nodup ∧
    (∀ e ∈ es, e ∈ s.fillerMap.entries) ∧
    es.length = (if s.fillerMap.entries.length = 0 then 0 else
      s.fillerMap.entries.length * 46 / 1000 + 1) ∧
    List.Forall₂ (fun c e => c.OfFiller e.2) (data.filter (·.kind = 1)) es
  files : ∃ is es, getRandomNumberlist env (s.file.entries.filter isActive).length 2 = .ok is ∧
    es = (is.filterMap fun i => (s.file.entries.filter isActive)[i]?) ∧ es.Nodup ∧
    (∀ e ∈ es, e ∈ s.file.entries ∧ isActive e = true) ∧
    es.length = (if (s.file.entries.filter isActive).length = 0 then 0 else
      (s.file.entries.filter isActive).length * 138 / 1000 + 1) ∧
    List.Forall₂ (Challenge.OfFile env) (data.filter (·.kind = 2))
      (es.filter (hasCurrentMinerId env))

theorem filter_kind_append {cs₁ cs₂ : List Challenge} {k : Nat}
    (h₁ : ∀ c ∈ cs₁, c.kind = k) (h₂ : ∀ c ∈ cs₂, c.kind ≠ k) :
    (cs₁ ++ cs₂).filter (·.kind = k) = cs₁ := by
  rw [List.filter_append, List.filter_eq_self.mpr (by simpa using h₁),
    List.filter_eq_nil_iff.mpr (by simpa using h₂), List.append_nil]

theorem kind_of_forall₂ {β : Type} {R : Challenge → β → Prop} {k : Nat}
    (hk : ∀ c b, R c b → c.kind = k) {cs : List Challenge} {bs : List β}
    (h : List.Forall₂ R cs bs) : ∀ c ∈ cs, c.kind = k := fun c hc =>
  let ⟨b, _, hr⟩ := exists_of_mem_forall₂ h hc
  hk c b hr

/-- Whatever the store and the randomness, a sample `get_random_challenge_data` returns is
a proper selection. -/
theorem audit_sample_is_selection {env : Env} {s : Store} {data : List Challenge}
    (h : getRandomChallengeData env s = .ok data) : ProperSample env s data := by
  obtain ⟨vs, fs, cs₁, cs₂, hvs, hcs₁, hfs, hcs₂, rfl⟩ := getRandomChallengeData_eq_ok h
  have hf₁ := fillerChallenges_spec hcs₁
  have hf₂ := fileChallenges_spec hcs₂
  have hk₁ := kind_of_forall₂ (fun _ _ h => h.2.2.2.1) hf₁
  have hk₂ := kind_of_forall₂ (fun _ _ h => h.2.2.2.1) hf₂
  obtain ⟨is, his, rfl⟩ := getRandomFiller_eq_ok hvs
  obtain ⟨js, hjs, rfl⟩ := getRandomFile_eq_ok hfs
  obtain ⟨hes, hmem, hlen⟩ := drawn_sample_spec (List.Nodup.of_map Prod.fst s.fillerMap.nodup) his
  obtain ⟨fes, fmem, flen⟩ :=
    drawn_sample_spec ((List.Nodup.of_map Prod.fst s.file.nodup).filter _) hjs
  refine ⟨⟨is, _, his, rfl, hes, hmem, hlen, ?_⟩,
    ⟨js, _, hjs, rfl, fes, fun e he => List.mem_filter.mp (fmem e he), flen, ?_⟩⟩
  · rw [filter_kind_append hk₁ fun c hc => by rw [hk₂ c hc]; decide]
    exact List.forall₂_map_right_iff.mp hf₁
  · rw [List.filter_append, List.filter_eq_nil_iff.mpr fun c hc => by simp [hk₁ c hc],
      List.nil_append, List.filter_eq_self.mpr (by simpa using hk₂)]
    exact hf₂

/-- A filler of size 1 with no shards, submitted with account 7 as its miner address. -/
def addressedFiller (fillerId : UInt8) : FillerInfo := ⟨1, 0, 0, 7, [fillerId]⟩

/-- Ten such fillers, of ids 3 to 12. -/
def addressedBatch : List FillerInfo := [3, 4, 5, 6, 7, 8, 9, 10, 11, 12].map addressedFiller

/-- Twenty-two fillers from three batches: miners 1 and 2 both hold a filler of id `[3]` with
miner address 7, the second and third entries of `FillerMap`. -/
def repeatedFillerStore : Store :=
  (Call.uploadFiller (.signed 9) 3 addressedBatch).next Env.accepting
    ((Call.uploadFiller (.signed 9) 2 addressedBatch).next Env.accepting
      ((Call.uploadFiller (.signed 9) 1 [addressedFiller 1, addressedFiller 3]).next
        Env.accepting Store.empty))

/-- The sample the accepting runtime draws from the store: one challenge, twice. -/
theorem repeatedFillerStore_challenges :
    getRandomChallengeData Env.accepting repeatedFillerStore =
      .ok [⟨7, [3], [], 1, 1, 0⟩, ⟨7, [3], [], 1, 1, 0⟩] := rfl

theorem audit_sample_of_repeated_filler :
    ProperSample Env.accepting repeatedFillerStore
      [⟨7, [3], [], 1, 1, 0⟩, ⟨7, [3], [], 1, 1, 0⟩] :=
  audit_sample_is_selection repeatedFillerStore_challenges

/-- The draw for 22 fillers picks the second and third entries, the two miners' fillers of id
`[3]`: the sample is two distinct entries, and the same challenge twice. The store holds the
two fillers whatever order the map iterates in; with another order, a randomness source that
draws their two positions gives the same repeat. -/
theorem filler_challenge_repeats : Reachable repeatedFillerStore ∧
    repeatedFillerStore.fillerMap.get (1, [3]) = some (addressedFiller 3) ∧
    repeatedFillerStore.fillerMap.get (2, [3]) = some (addressedFiller 3) ∧
    getRandomChallengeData Env.accepting repeatedFillerStore =
      .ok [⟨7, [3], [], 1, 1, 0⟩, ⟨7, [3], [], 1, 1, 0⟩] :=
  ⟨.step _ _ (.step _ _ (.step _ _ .empty)), rfl, rfl, repeatedFillerStore_challenges⟩

/-! ## Block lists -/

/-- Indices below 256 survive the cut to a byte. -/
theorem map_toUInt8_toNat {l : List Nat} (h : ∀ x ∈ l, x < 256) :
    (l.map Nat.toUInt8).map UInt8.toNat = l := by
  rw [List.map_map]
  conv_rhs => rw [← List.map_id l]
  exact List.map_congr_left fun x hx => Nat.mod_eq_of_lt (h x hx)

/-- Every challenge's block list is the draw for the block count `n` of the entry it
challenges, each index cut to a byte; for at most 256 shards the cut loses nothing. -/
theorem challenge_blockList_spec {env : Env} {s : Store} {data : List Challenge}
    (h : getRandomChallengeData env s = .ok data) {c : Challenge} (hc : c ∈ data) :
    ∃ n l, getRandomNumberlist env n 1 = .ok l ∧ c.blockList = l.map Nat.toUInt8 ∧
      (n ≤ 256 → c.blockList.map UInt8.toNat = l) ∧
      ((c.kind = 1 ∧ ∃ key v, s.fillerMap.get key = some v ∧ v.fillerId = c.id ∧
          v.blockNum = n) ∨
        (c.kind = 2 ∧ ∃ f, s.file.get c.id = some f ∧ f.blockNum = n)) := by
  have hlossless : ∀ {n l}, getRandomNumberlist env n 1 = .ok l → n ≤ 256 →
      (l.map Nat.toUInt8).map UInt8.toNat = l := fun hl hn =>
    map_toUInt8_toNat fun x hx => lt_of_lt_of_le ((getRandomNumberlist_spec hl).2.1 x hx) hn
  obtain ⟨vs, fs, cs₁, cs₂, hvs, hcs₁, hfs, hcs₂, rfl⟩ := getRandomChallengeData_eq_ok h
  rcases List.mem_append.mp hc with hc | hc
  · obtain ⟨v, hv, ⟨-, hid, -, hkind, -⟩, l, hl, hbl⟩ :=
      exists_of_mem_forall₂ (fillerChallenges_eq_ok hcs₁) hc
    obtain ⟨es, -, hmem, -, rfl⟩ := getRandomFiller_spec hvs
    obtain ⟨⟨key, v⟩, he, rfl⟩ := List.mem_map.mp hv
    exact ⟨_, l, hl, hbl, fun hn => hbl ▸ hlossless hl hn,
      .inl ⟨hkind, key, v, StorageMap.mem_entries_iff.mp (hmem _ he), hid.symm, rfl⟩⟩
  · obtain ⟨⟨fileHash, f⟩, he, ⟨-, hid, -, hkind, -, -⟩, l, hl, hbl⟩ :=
      exists_of_mem_forall₂ (fileChallenges_eq_ok hcs₂) hc
    obtain ⟨hmem, -⟩ := (getRandomFile_spec hfs).2.1 _ (List.mem_of_mem_filter he)
    exact ⟨_, l, hl, hbl, fun hn => hbl ▸ hlossless hl hn,
      .inr ⟨hkind, f, hid ▸ StorageMap.mem_entries_iff.mp hmem, rfl⟩⟩

/-- Miner 5's filler of 257 shards, stored from empty storage. -/
def longFillerStore : Store :=
  (Call.uploadFiller (.signed 9) 5 [⟨1, 257, 0, 5, [3]⟩]).next Env.accepting Store.empty

/-- The accepting runtime at block 244. -/
def truncatingEnv : Env := { Env.accepting with blockNumber := 244 }

/-- At block 244 the draw for the filler's 257 shards is the twelve indices 245 to 256; the
challenge lists index 256 as byte 0, after 255. -/
theorem block_list_truncates_index :
    Reachable longFillerStore ∧
    getRandomNumberlist truncatingEnv 257 1 =
      .ok [245, 246, 247, 248, 249, 250, 251, 252, 253, 254, 255, 256] ∧
    getRandomChallengeData truncatingEnv longFillerStore =
      .ok [⟨5, [3], [245, 246, 247, 248, 249, 250, 251, 252, 253, 254, 255, 0], 1, 1, 0⟩] :=
  ⟨.step _ _ .empty, rfl, rfl⟩

end Cess.FileBank
