import Cess.FileBank.Pallet
import Cess.FileBank.Sampler
import Mathlib.Data.List.Chain

/-!
# Index-draw laws

What `get_random_numberlist` and `generate_random_number` return, for every length, type,
block number and randomness source.

* **The draw** (`getRandomNumberlist_spec`): a list the draw returns is strictly increasing,
  below the length, and exactly as long as the type's count `length * rate / 1000 + 1`,
  which never exceeds the length (`numberlist_sorted_in_range`). The loop pushes only while
  the list is short of the count, and stops only on a sorted, deduplicated list that
  reaches it.
* **Termination** (`getRandomNumberlist_ok_or_overflow`): both loops are structural
  recursions on the headroom of a `u32` counter, so every draw returns, with `Ok` or with
  `Overflow`, and so does every `generate_random_number` it calls.
* **The seed sum.** `generate_random_number` asks the randomness source about
  `seed + counter`, an unchecked `u32` sum (`randomSums`), while the counter runs up to
  `u32::MAX`. Every seed `get_random_numberlist` hands it is at least 1, so a source that
  answers zero long enough drives the sum past `u32::MAX`.
-/

set_option autoImplicit false

namespace Cess.FileBank

/-! ## Sorting and deduplication -/

theorem chain'_lt_of_le_of_ne {l : List Nat} (h₁ : l.Chain' (· ≤ ·)) (h₂ : l.Chain' (· ≠ ·)) :
    l.Chain' (· < ·) := by
  induction l with
  | nil => exact List.chain'_nil
  | cons a rest ih =>
    cases rest with
    | nil => exact List.chain'_singleton a
    | cons b rest =>
      rw [List.chain'_cons] at h₁ h₂ ⊢
      exact ⟨Nat.lt_of_le_of_ne h₁.1 h₂.1, ih h₁.2 h₂.2⟩

/-- Sorting and dropping adjacent repeats leaves a strictly increasing list. -/
theorem sorted_sortDedup (l : List Nat) : (sortDedup l).Sorted (· < ·) := by
  have hsorted : (sortDedup l).Pairwise (· ≤ ·) :=
    (List.sorted_insertionSort (· ≤ ·) l).sublist (List.destutter_sublist _ _)
  exact List.chain'_iff_pairwise.mp
    (chain'_lt_of_le_of_ne hsorted.chain' (List.destutter_is_chain' _ _))

theorem mem_of_mem_sortDedup {l : List Nat} {x : Nat} (h : x ∈ sortDedup l) : x ∈ l :=
  (List.perm_insertionSort _ l).mem_iff.mp ((List.destutter_sublist _ _).subset h)

theorem length_sortDedup_le (l : List Nat) : (sortDedup l).length ≤ l.length :=
  ((List.destutter_sublist _ _).length_le).trans (List.length_insertionSort _ l).le

/-! ## The draw -/

/-- The loop of `get_random_numberlist`, from a list no longer than the count and of
indices below the pool's length, returns a strictly increasing list of exactly the count of
such indices. -/
theorem drawLoop_spec {random : Nat → Nat} {length num : Nat} (hlen : 0 < length) :
    ∀ {room : Nat} {l out : List Nat}, l.length ≤ num → (∀ x ∈ l, x < length) →
      drawLoop random length num room l = .ok out →
      out.Sorted (· < ·) ∧ (∀ x ∈ out, x < length) ∧ out.length = num
  | 0, _, _, _, _, h => nomatch h
  | room + 1, l, out, hl, hlt, h => by
    have hnext : ∀ l' : List Nat, l'.length < num → (∀ x ∈ l', x < length) →
        (do let r ← randomFrom random (u32Max - room) u32Max 0
            drawLoop random length num room (l' ++ [r % length])) = .ok out →
        out.Sorted (· < ·) ∧ (∀ x ∈ out, x < length) ∧ out.length = num := by
      intro l' hl' hlt' h'
      obtain ⟨r, -, h'⟩ := except_bind_eq_ok.mp h'
      refine drawLoop_spec hlen (by simp; omega) (fun x hx => ?_) h'
      rcases List.mem_append.mp hx with hx | hx
      · exact hlt' x hx
      · rw [List.mem_singleton.mp hx]; exact Nat.mod_lt _ hlen
    unfold drawLoop at h
    by_cases hn : num ≤ l.length
    · simp only [if_pos hn] at h
      have hle := length_sortDedup_le l
      have hmem : ∀ x ∈ sortDedup l, x < length := fun x hx => hlt x (mem_of_mem_sortDedup hx)
      split at h
      · next hn' => cases h; exact ⟨sorted_sortDedup l, hmem, by omega⟩
      · next hn' => exact hnext _ (by omega) hmem h
    · simp only [if_neg hn] at h
      exact hnext l (by omega) hlt h

theorem countAt_spec {length rate num : Nat} (h : countAt length rate = .ok num) :
    num = length * rate / 1000 + 1 := by
  unfold countAt at h
  split at h
  · next num' heq =>
    cases h
    simp only [Option.bind_eq_some, checkedMul_eq_some, checkedDiv_eq_some,
      checkedAdd_eq_some] at heq
    obtain ⟨_, ⟨_, ⟨-, rfl⟩, -, rfl⟩, -, rfl⟩ := heq
    rfl
  · cases h

/-- `get_random_numberlist` returns a strictly increasing list of indices below `length`:
none from an empty pool, and otherwise `length * rate / 1000 + 1` of them, the rate being
138 per thousand for type 2 and 46 for any other type. -/
theorem getRandomNumberlist_spec {env : Env} {length randomType : Nat} {l : List Nat}
    (h : getRandomNumberlist env length randomType = .ok l) :
    l.Sorted (· < ·) ∧ (∀ x ∈ l, x < length) ∧
      l.length = if length = 0 then 0 else
        length * (if randomType = 2 then 138 else 46) / 1000 + 1 := by
  unfold getRandomNumberlist at h
  by_cases hlen : length = 0
  · simp only [hlen, if_true] at h ⊢
    cases h
    exact ⟨List.sorted_nil, fun _ h => absurd h (List.not_mem_nil _), rfl⟩
  · simp only [hlen, if_false, pure_bind] at h ⊢
    have hdraw : ∃ num, num = length * (if randomType = 2 then 138 else 46) / 1000 + 1 ∧
        drawLoop env.random length num (u32Max - min env.blockNumber u32Max) [] = .ok l := by
      split at h <;> obtain ⟨num, hnum, h⟩ := except_bind_eq_ok.mp h
      · exact ⟨num, countAt_spec hnum, h⟩
      · exact ⟨num, countAt_spec hnum, h⟩
      · exact ⟨num, by rw [if_neg (by assumption)]; exact countAt_spec hnum, h⟩
    obtain ⟨num, rfl, h⟩ := hdraw
    exact drawLoop_spec (Nat.pos_of_ne_zero hlen) (Nat.zero_le _)
      (fun _ h => absurd h (List.not_mem_nil _)) h

/-- For a non-empty pool, every list the draw returns is strictly increasing, below the
length, and of the type's count, which does not exceed the length. -/
theorem numberlist_sorted_in_range {env : Env} {length randomType : Nat} {l : List Nat}
    (hlen : 1 ≤ length) (h : getRandomNumberlist env length randomType = .ok l) :
    l.Sorted (· < ·) ∧ (∀ x ∈ l, x < length) ∧
      l.length = length * (if randomType = 2 then 138 else 46) / 1000 + 1 ∧
      l.length ≤ length := by
  obtain ⟨hsorted, hlt, hcount⟩ := getRandomNumberlist_spec h
  rw [if_neg (by omega)] at hcount
  exact ⟨hsorted, hlt, hcount, by rw [hcount]; split <;> omega⟩

theorem numberlist_sorted_in_range_thirty :
    [1, 2, 3, 4, 5].Sorted (· < ·) ∧ (∀ x ∈ [1, 2, 3, 4, 5], x < 30) ∧
      [1, 2, 3, 4, 5].length = 30 * (if 2 = 2 then 138 else 46) / 1000 + 1 ∧
      [1, 2, 3, 4, 5].length ≤ 30 :=
  @numberlist_sorted_in_range Env.accepting 30 2 [1, 2, 3, 4, 5] (by decide) rfl

/-! ## Termination -/

/-- The loop of `generate_random_number` returns a nonzero draw, or `Overflow` once its
counter runs out. -/
theorem randomFrom_ok_or_overflow (random : Nat → Nat) (seed : Nat) :
    ∀ room counter, (∃ r, r ≠ 0 ∧ randomFrom random seed room counter = .ok r) ∨
      randomFrom random seed room counter = .error (.module .overflow)
  | room, counter => by
    unfold randomFrom
    dsimp only
    by_cases hr : random (wrappingAdd 32 seed counter) ≠ 0
    · rw [if_pos hr]; exact .inl ⟨_, hr, rfl⟩
    · rw [if_neg hr]
      cases room with
      | zero => exact .inr rfl
      | succ room => exact randomFrom_ok_or_overflow random seed room (counter + 1)

/-- The loop of `get_random_numberlist` returns, with `Ok` or with `Overflow`. -/
theorem drawLoop_ok_or_overflow (random : Nat → Nat) (length num : Nat) :
    ∀ room l, (∃ out, drawLoop random length num room l = .ok out) ∨
      drawLoop random length num room l = .error (.module .overflow)
  | 0, _ => .inr rfl
  | room + 1, l => by
    unfold drawLoop
    dsimp only
    generalize (if num ≤ l.length then sortDedup l else l) = l'
    split
    · exact .inl ⟨_, rfl⟩
    · rcases randomFrom_ok_or_overflow random (u32Max - room) u32Max 0 with ⟨r, -, hr⟩ | hr <;>
        rw [hr]
      · exact drawLoop_ok_or_overflow random length num room (l' ++ [r % length])
      · exact .inr rfl

theorem countAt_ok_or_overflow (length rate : Nat) :
    (∃ num, countAt length rate = .ok num) ∨ countAt length rate = .error (.module .overflow) := by
  unfold countAt
  split
  · exact .inl ⟨_, rfl⟩
  · exact .inr rfl

/-- Every draw returns, whatever the length, the type, the block number and the randomness
source, with `Ok` or with `Overflow`. -/
theorem getRandomNumberlist_ok_or_overflow (env : Env) (length randomType : Nat) :
    (∃ l, getRandomNumberlist env length randomType = .ok l) ∨
      getRandomNumberlist env length randomType = .error (.module .overflow) := by
  unfold getRandomNumberlist
  by_cases hlen : length = 0
  · exact .inl ⟨[], by simp only [hlen, if_true]; rfl⟩
  · simp only [hlen, if_false, pure_bind]
    have hcount : ∀ rate, (∃ l, (countAt length rate >>= fun num =>
        drawLoop env.random length num (u32Max - min env.blockNumber u32Max) []) = .ok l) ∨
        (countAt length rate >>= fun num =>
          drawLoop env.random length num (u32Max - min env.blockNumber u32Max) []) =
          .error (.module .overflow) := fun rate => by
      rcases countAt_ok_or_overflow length rate with ⟨num, hnum⟩ | hnum <;> rw [hnum]
      · exact drawLoop_ok_or_overflow _ _ _ _ _
      · exact .inr rfl
    split
    · exact hcount _
    · exact hcount _
    · exact hcount _

/-! ## The seed sum -/

/-- With a source that always answers zero, the loop runs its counter to the end and
returns `Overflow`. -/
theorem randomFrom_zero (seed : Nat) :
    ∀ room counter, randomFrom (fun _ => 0) seed room counter = .error (.module .overflow)
  | 0, _ => rfl
  | room + 1, counter => by
    unfold randomFrom
    exact randomFrom_zero seed room (counter + 1)

/-- With a source that always answers zero, the loop asks about every sum up to
`seed + counter + room`. -/
theorem mem_randomSums_zero (seed : Nat) :
    ∀ room counter, seed + counter + room ∈ randomSums (fun _ => 0) seed room counter
  | 0, counter => by simp [randomSums]
  | room + 1, counter => by
    have h := mem_randomSums_zero seed room (counter + 1)
    rw [show seed + (counter + 1) + room = seed + counter + (room + 1) by omega] at h
    unfold randomSums
    exact List.mem_cons_of_mem _ h

/-- With a source that always answers zero, the draw never gets its first index. -/
theorem drawLoop_zero {length num : Nat} (hnum : 0 < num) :
    ∀ room, drawLoop (fun _ => 0) length num room [] = .error (.module .overflow)
  | 0 => rfl
  | room + 1 => by
    unfold drawLoop
    simp only [List.length_nil, Nat.le_zero, Nat.pos_iff_ne_zero.mp hnum, if_false]
    rw [randomFrom_zero]
    rfl

/-- With a source that always answers zero, every draw over a non-empty pool returns
`Overflow`. -/
theorem getRandomNumberlist_zero {env : Env} (hzero : ∀ x, env.random x = 0) {length : Nat}
    (hlen : length ≠ 0) (randomType : Nat) :
    getRandomNumberlist env length randomType = .error (.module .overflow) := by
  have hrandom : env.random = fun _ => 0 := funext hzero
  have hcount : ∀ rate, (countAt length rate >>= fun num =>
      drawLoop (fun _ => 0) length num (u32Max - min env.blockNumber u32Max) []) =
      .error (.module .overflow) := fun rate => by
    rcases countAt_ok_or_overflow length rate with ⟨num, hnum⟩ | hnum <;> rw [hnum]
    · exact drawLoop_zero (by rw [countAt_spec hnum]; omega) _
    · rfl
  unfold getRandomNumberlist
  simp only [hlen, if_false, pure_bind, hrandom]
  split <;> exact hcount _

/-- A source that answers zero: `get_random_numberlist` over one entry at block 0 hands seed
1 to `generate_random_number`, whose loop asks about `1 + u32::MAX` before its counter
overflows. -/
theorem generate_random_number_sum_overflows :
    getRandomNumberlist { Env.accepting with random := fun _ => 0 } 1 1 =
      .error (.module .overflow) ∧
    generateRandomNumber { Env.accepting with random := fun _ => 0 } 1 =
      .error (.module .overflow) ∧
    1 + u32Max ∈ randomSums (fun _ => 0) 1 u32Max 0 ∧ u32Max < 1 + u32Max :=
  ⟨getRandomNumberlist_zero (fun _ => rfl) one_ne_zero 1, randomFrom_zero 1 u32Max 0,
    by simpa using mem_randomSums_zero 1 u32Max 0, by decide⟩

end Cess.FileBank
