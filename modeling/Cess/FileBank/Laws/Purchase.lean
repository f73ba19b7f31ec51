import Cess.FileBank.Laws.Quota

/-!
# Purchase laws

What `buy_package` does to the ledger and what it charges.

* **The guard.** `ensure!(contains_key(&sender), PurchasedPackage)` lets a purchase through
  only for an account that already has a package (`buyPackage_without_package`), and a
  purchase that goes through writes a fresh record over the account's one, whatever the
  account still holds (`buyPackage_eq_ok`).
* **The quote.** Every package type but the free type 1 is priced by `get_price` at its own
  space, except type 4, priced at five TiB for the one TiB it grants (`packageTerms_quote`).
  `get_price` is monotone in the space it is asked about (`getPrice_mono`), so between two
  purchases priced at their own space, the larger space is charged no less
  (`charge_mono_of_own_quote`).
* **The arithmetic.** Every step of `get_price`, `add_puchased_package` and the final charge
  is checked; type 5's space `count * T_BYTE` is not, and wraps at `u128`.
-/

set_option autoImplicit false

namespace Cess.FileBank

/-! ## One purchase -/

section Purchase

variable {env : Env} {s s' : Store}

/-- `get_price` reads the network's space and answers the quote it computes. -/
theorem getPrice_eq_ok {buySpace p : Nat} (h : getPrice env buySpace s = .ok p s') :
    s' = s ∧ ∃ totalSpace, env.getSpace = .ok totalSpace ∧ totalSpace ≠ 0 ∧
      p = buySpace * 1000000000000 * 10000 / totalSpace + 1000000000000000 := by
  simp only [getPrice, bind_eq_ok, lift_eq_ok, ensure_eq_ok, okOr_eq_ok, Option.bind_eq_some,
    checkedMul_eq_some, checkedDiv_eq_some, checkedAdd_eq_some] at h
  obtain ⟨totalSpace, _, ⟨hspace, rfl⟩, _, _, ⟨hne, rfl⟩,
    ⟨_, ⟨_, ⟨_, ⟨-, rfl⟩, -, rfl⟩, -, rfl⟩, -, rfl⟩, rfl⟩ := h
  exact ⟨rfl, totalSpace, hspace, hne, rfl⟩

/-- In one runtime, a larger space is quoted no lower. -/
theorem getPrice_mono {b₁ b₂ p₁ p₂ : Nat} {s₁ s₂ : Store}
    (h₁ : getPrice env b₁ s = .ok p₁ s₁) (h₂ : getPrice env b₂ s = .ok p₂ s₂) (hle : b₁ ≤ b₂) :
    p₁ ≤ p₂ := by
  obtain ⟨-, t₁, ht₁, -, rfl⟩ := getPrice_eq_ok h₁
  obtain ⟨-, t₂, ht₂, -, rfl⟩ := getPrice_eq_ok h₂
  obtain rfl : t₁ = t₂ := Except.ok.inj (ht₁.symm.trans ht₂)
  exact Nat.add_le_add_right (Nat.div_le_div_right
    (Nat.mul_le_mul_right _ (Nat.mul_le_mul_right _ hle))) _

/-- The terms of each package type: one month always; type 1 free at 10 GiB; every other
type priced by `get_price` at its own space, except type 4, priced at five TiB; and type 5's
space the wrapped product `count * T_BYTE`. -/
theorem packageTerms_quote {packageType count space unitPrice month : Nat}
    (h : packageTerms env packageType count s = .ok (space, unitPrice, month) s') :
    s' = s ∧ month = 1 ∧
      ((packageType = 1 ∧ space = 10 * gByte ∧ unitPrice = 0) ∨
        (packageType ≠ 1 ∧
          getPrice env (if packageType = 4 then 5 * tByte else space) s = .ok unitPrice s)) ∧
      (packageType = 5 → space = wrappingMul 128 count tByte) := by
  unfold packageTerms at h
  split at h <;> simp only [bind_eq_ok, pure_eq_ok, ensure_eq_ok, fail_eq_ok, Prod.mk.injEq] at h
  · obtain ⟨⟨rfl, rfl, rfl⟩, rfl⟩ := h
    exact ⟨rfl, rfl, .inl ⟨rfl, rfl, rfl⟩, nofun⟩
  all_goals first
    | obtain ⟨q, s₁, hq, ⟨rfl, rfl, rfl⟩, rfl⟩ := h
      obtain ⟨rfl, -⟩ := getPrice_eq_ok hq
      exact ⟨rfl, rfl, .inr ⟨by decide, hq⟩, nofun⟩
    | obtain ⟨_, _, ⟨-, rfl⟩, q, s₁, hq, ⟨rfl, rfl, rfl⟩, rfl⟩ := h
      obtain ⟨rfl, -⟩ := getPrice_eq_ok hq
      exact ⟨rfl, rfl, .inr ⟨by decide, hq⟩, fun _ => rfl⟩

/-- `add_puchased_package` writes a fresh record: nothing used, nothing remaining, due
`month * 30 * 86400 / 3` blocks from now. -/
theorem addPuchasedPackage_eq_ok {acc : AccountId} {space month packageType : Nat} {u : Unit}
    (h : addPuchasedPackage env acc space month packageType s = .ok u s') :
    s' = (packageSlot acc).write (some
      { space, usedSpace := 0, remainingSpace := 0, tenancy := month, packageType,
        start := env.blockNumber, deadline := env.blockNumber + month * 30 * 86400 / 3,
        state := normalTag }) s := by
  simp only [addPuchasedPackage, bind_eq_ok, okOr_eq_ok, Option.bind_eq_some, checkedMul_eq_some,
    checkedDiv_eq_some, checkedAdd_eq_some, tryInto_eq_some, Slot.put_eq_ok] at h
  obtain ⟨_, _, ⟨⟨_, ⟨_, ⟨-, rfl⟩, -, rfl⟩, -, rfl⟩, rfl⟩, _, _, ⟨⟨-, rfl⟩, rfl⟩, _, _,
    ⟨⟨-, rfl⟩, rfl⟩, rfl⟩ := h
  rfl

/-- A purchase that goes through was made by an account that had a package, and it replaces
that package by a fresh one of the type's space, then charges the type's unit price per GiB. -/
theorem buyPackage_eq_ok {origin : Origin} {packageType count : Nat} {u : Unit}
    (h : buyPackage env origin packageType count s = .ok u s') :
    ∃ sender space unitPrice, origin = .signed sender ∧ s.purchasedPackage sender ≠ none ∧
      packageTerms env packageType count s = .ok (space, unitPrice, 1) s ∧
      s' = { s with
        purchasedPackage := Function.update s.purchasedPackage sender (some
          { space, usedSpace := 0, remainingSpace := 0, tenancy := 1, packageType,
            start := env.blockNumber, deadline := env.blockNumber + 864000, state := normalTag })
        calls := s.calls ++
          [.transfer sender env.palletAccount (space / gByte * (unitPrice / gByte))] } := by
  simp only [buyPackage, bind_eq_ok, ensureSigned_eq_ok, Slot.get_eq_ok, ensure_eq_ok] at h
  obtain ⟨sender, _, ⟨rfl, rfl⟩, _, _, ⟨rfl, rfl⟩, _, _, ⟨hsome, rfl⟩, ⟨space, unitPrice, month⟩,
    s₁, hterms, _, s₂, hadd, h⟩ := h
  simp only [bind_eq_ok, okOr_eq_ok, Option.bind_eq_some, checkedDiv_eq_some, checkedMul_eq_some,
    external_eq_ok] at h
  obtain ⟨_, _, ⟨⟨-, rfl⟩, rfl⟩, _, _, ⟨⟨_, ⟨-, rfl⟩, -, rfl⟩, rfl⟩, -, rfl⟩ := h
  obtain ⟨rfl, rfl, -⟩ := packageTerms_quote hterms
  refine ⟨sender, space, unitPrice, rfl, Option.isSome_iff_ne_none.mp hsome, hterms, ?_⟩
  rw [addPuchasedPackage_eq_ok hadd]
  simp only [packageSlot, Nat.one_mul, Nat.reduceMul, Nat.reduceDiv]

/-- An account without a package cannot buy one. -/
theorem buyPackage_without_package {acc : AccountId} (hnone : s.purchasedPackage acc = none)
    (packageType count : Nat) :
    buyPackage env (.signed acc) packageType count s = .error (.error (.module .purchasedPackage)) s := by
  simp only [buyPackage, bind, EStateM.bind, ensureSigned, Slot.get, read, packageSlot, hnone,
    ensure, Option.isSome_none, Bool.false_eq_true, if_false, fail, pure, EStateM.pure,
    EStateM.throw]

end Purchase

/-! ## Monotone charges -/

/-- Between two purchases in one runtime from one store, both priced at their own space, the
one granting no more space is charged no more. -/
theorem charge_mono_of_own_quote {env : Env} {s s₁ s₂ : Store} {o₁ o₂ : Origin}
    {t₁ t₂ c₁ c₂ : Nat} {u₁ u₂ : Unit} (h₁ : buyPackage env o₁ t₁ c₁ s = .ok u₁ s₁)
    (h₂ : buyPackage env o₂ t₂ c₂ s = .ok u₂ s₂) (ht₁ : t₁ ≠ 1 ∧ t₁ ≠ 4) (ht₂ : t₂ ≠ 1 ∧ t₂ ≠ 4) :
    ∃ a₁ a₂ space₁ space₂ price₁ price₂,
      s₁.calls = s.calls ++ [.transfer a₁ env.palletAccount price₁] ∧
      s₂.calls = s.calls ++ [.transfer a₂ env.palletAccount price₂] ∧
      (s₁.purchasedPackage a₁).map PackageDetails.space = some space₁ ∧
      (s₂.purchasedPackage a₂).map PackageDetails.space = some space₂ ∧
      (space₁ ≤ space₂ → price₁ ≤ price₂) := by
  obtain ⟨a₁, space₁, p₁, -, -, hterms₁, rfl⟩ := buyPackage_eq_ok h₁
  obtain ⟨a₂, space₂, p₂, -, -, hterms₂, rfl⟩ := buyPackage_eq_ok h₂
  obtain ⟨-, -, hq₁ | ⟨-, hq₁⟩, -⟩ := packageTerms_quote hterms₁
  · exact absurd hq₁.1 ht₁.1
  obtain ⟨-, -, hq₂ | ⟨-, hq₂⟩, -⟩ := packageTerms_quote hterms₂
  · exact absurd hq₂.1 ht₂.1
  rw [if_neg ht₁.2] at hq₁
  rw [if_neg ht₂.2] at hq₂
  refine ⟨a₁, a₂, space₁, space₂, _, _, rfl, rfl, by simp, by simp, fun hle => ?_⟩
  exact Nat.mul_le_mul (Nat.div_le_div_right hle)
    (Nat.div_le_div_right (getPrice_mono hq₁ hq₂ hle))

/-! ## Purchases over a held package -/

/-- Account 2, which has no package, cannot buy one; account 1, which has one and still holds
its 10-byte file, buys another, and its record is replaced: the deadline moves and the usage
is reset to nothing. -/
theorem buyPackage_overwrites_held_package :
    buyPackage Env.accepting (.signed 2) 1 0 chargedStore =
      .error (.error (.module .purchasedPackage)) chargedStore ∧
    ∃ s', buyPackage Env.accepting (.signed 1) 1 0 chargedStore = .ok () s' ∧
      s'.purchasedPackage 1 = some
        { space := 10 * gByte, usedSpace := 0, remainingSpace := 0, tenancy := 1,
          packageType := 1, start := 0, deadline := 864000, state := normalTag } ∧
      ownedSize s' 1 = 10 :=
  ⟨rfl, _, rfl, rfl, rfl⟩

/-- Type 5 for `2 ^ 88` TiB: `count * T_BYTE` is `2 ^ 128`, which wraps to a record of no
space, charged nothing. -/
theorem tier_five_space_wraps :
    ∃ s', buyPackage Env.accepting (.signed 1) 5 (2 ^ 88) chargedStore = .ok () s' ∧
      (s'.purchasedPackage 1).map PackageDetails.space = some 0 ∧
      s'.calls = chargedStore.calls ++ [.transfer 1 0 0] ∧ 2 ^ 88 * tByte = 2 ^ 128 :=
  ⟨_, rfl, rfl, rfl, rfl⟩

/-- Types 3 and 4 both grant one TiB, from the same store in the same runtime; type 4 is
charged the price of five. -/
theorem tier_four_charges_more_for_same_space :
    ∃ s₃ s₄, buyPackage Env.accepting (.signed 1) 3 0 chargedStore = .ok () s₃ ∧
      buyPackage Env.accepting (.signed 1) 4 0 chargedStore = .ok () s₄ ∧
      (s₃.purchasedPackage 1).map PackageDetails.space = some tByte ∧
      (s₄.purchasedPackage 1).map PackageDetails.space = some tByte ∧
      s₃.calls = chargedStore.calls ++ [.transfer 1 0 10490417152] ∧
      s₄.calls = chargedStore.calls ++ [.transfer 1 0 48637389824] :=
  ⟨_, _, rfl, rfl, rfl, rfl, rfl, rfl⟩

end Cess.FileBank
