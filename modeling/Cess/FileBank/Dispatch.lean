import Cess.FileBank.Storage

/-!
# Dispatch

A dispatch is `EStateM Fault Store`. None of the file bank's calls is `#[transactional]`,
so the model keeps the store a call reaches when it stops early: a write takes effect at
once, and only `try_mutate` discards its own closure's change on error (`Slot.tryMutate`).

## The frame calculus

`Steps R x` says that every run of `x`, whatever its outcome, relates the store it starts
from to the store it leaves by `R`; an invariant (`Preserves`: `P s → P s'`) is one
instance. `Steps.bind_of` is the one rule for `>>=`: a run
stops inside the first half or runs both, so two relations compose when their composite
and the first one alone both imply the third.
-/

set_option autoImplicit false

namespace Cess.FileBank

/-- A dispatch of the pallet. -/
abbrev Dispatch := EStateM Fault Store

/-- The store a dispatch leaves, whatever its outcome. -/
def storeOf {α : Type} : EStateM.Result Fault Store α → Store
  | .ok _ s => s
  | .error _ s => s

section Bind

variable {α β : Type} {x : Dispatch α} {f : α → Dispatch β} {s s' : Store}

theorem bind_of_ok {a : α} (h : x s = .ok a s') : (x >>= f) s = f a s' := by
  simp only [bind, EStateM.bind, h]

theorem bind_of_error {e : Fault} (h : x s = .error e s') : (x >>= f) s = .error e s' := by
  simp only [bind, EStateM.bind, h]

/-- A bind succeeds exactly when both halves do, the second from where the first stopped. -/
theorem bind_eq_ok {b : β} {s'' : Store} :
    (x >>= f) s = .ok b s'' ↔ ∃ a s', x s = .ok a s' ∧ f a s' = .ok b s'' := by
  cases h : x s with
  | ok a s' =>
    rw [bind_of_ok h]
    exact ⟨fun h' => ⟨a, s', rfl, h'⟩, fun ⟨_, _, h1, h2⟩ => by cases h1; exact h2⟩
  | error e s' => simp [bind_of_error h]

end Bind

/-! ## The frame calculus -/

/-- Every run of `x`, whatever its outcome, relates the store it starts from to the store it
leaves by `R`. -/
def Steps {α : Type} (R : Store → Store → Prop) (x : Dispatch α) : Prop :=
  ∀ s, R s (storeOf (x s))

section Steps

variable {α β : Type} {R : Store → Store → Prop}

/-- The general bind rule: a run of `x >>= f` either stops inside `x`, or runs `x` and then
`f`, so a composite of the two relations covers both. -/
theorem Steps.bind_of {R₁ R₂ : Store → Store → Prop} {x : Dispatch α} {f : α → Dispatch β}
    (hcomp : ∀ a b c, R₁ a b → R₂ b c → R a c) (hstop : ∀ a b, R₁ a b → R a b)
    (hx : Steps R₁ x) (hf : ∀ a, Steps R₂ (f a)) : Steps R (x >>= f) := by
  intro s
  have h₁ := hx s
  cases h : x s with
  | ok a s' => rw [h] at h₁; rw [bind_of_ok h]; exact hcomp _ _ _ h₁ (hf a s')
  | error e s' => rw [h] at h₁; rw [bind_of_error h]; exact hstop _ _ h₁

/-- Binding two dispatches that each relate by `R` relates by `R` when `R` is transitive. -/
theorem Steps.bind {x : Dispatch α} {f : α → Dispatch β} (htrans : ∀ a b c, R a b → R b c → R a c)
    (hx : Steps R x) (hf : ∀ a, Steps R (f a)) : Steps R (x >>= f) :=
  Steps.bind_of htrans (fun _ _ h => h) hx hf

theorem Steps.ite {c : Prop} [Decidable c] {x y : Dispatch α} (hx : Steps R x) (hy : Steps R y) :
    Steps R (if c then x else y) := by
  split <;> assumption

/-- A run that succeeds relates its two stores. -/
theorem Steps.of_ok {x : Dispatch α} {s s' : Store} {a : α} (hx : Steps R x)
    (h : x s = .ok a s') : R s s' := by
  have := hx s; rwa [h] at this

/-- A step that relates only from stores satisfying `P`, followed by steps that relate
everywhere, relates from stores satisfying `P`. -/
theorem Steps.bind_guarded {P : Store → Prop} {x : Dispatch α} {f : α → Dispatch β}
    (htrans : ∀ a b c, R a b → R b c → R a c) (hx : Steps (fun s s' => P s → R s s') x)
    (hf : ∀ a, Steps R (f a)) : Steps (fun s s' => P s → R s s') (x >>= f) :=
  Steps.bind_of (fun _ _ _ hab hbc hP => htrans _ _ _ (hab hP) hbc) (fun _ _ h => h) hx hf

/-- A step that relates by `R` and keeps `P`, followed by steps that relate from stores
satisfying `P`, relates from stores satisfying `P`. -/
theorem Steps.bind_keeping {P : Store → Prop} {x : Dispatch α} {f : α → Dispatch β}
    (htrans : ∀ a b c, R a b → R b c → R a c)
    (hx : Steps (fun s s' => R s s' ∧ (P s → P s')) x)
    (hf : ∀ a, Steps (fun s s' => P s → R s s') (f a)) :
    Steps (fun s s' => P s → R s s') (x >>= f) :=
  Steps.bind_of (fun _ _ _ hab hbc hP => htrans _ _ _ hab.1 (hbc (hab.2 hP)))
    (fun _ _ h _ => h.1) hx hf

theorem Steps.mono {R' : Store → Store → Prop} {x : Dispatch α} (h : ∀ a b, R a b → R' a b)
    (hx : Steps R x) : Steps R' x :=
  fun s => h _ _ (hx s)

end Steps

/-- `x` keeps the predicate `P`, whatever its outcome. -/
abbrev Preserves {α : Type} (P : Store → Prop) (x : Dispatch α) : Prop :=
  Steps (fun s s' => P s → P s') x

/-! ## Primitives -/

/-- Return one of this pallet's errors. -/
def fail {α : Type} (e : Error) : Dispatch α := EStateM.throw (.error (.module e))

/-- `ensure!(c, e)`, and every `if !c { Err(e)? }`. -/
def ensure (c : Prop) [Decidable c] (e : Error) : Dispatch Unit := if c then pure () else fail e

/-- `.ok_or(e)?`, and `.map_err(|_| e)?` on a conversion that may fail. -/
def okOr {α : Type} (o : Option α) (e : Error) : Dispatch α := o.elim (fail e) pure

/-- `.unwrap()`: panics on `None`. -/
def unwrap {α : Type} (o : Option α) : Dispatch α := o.elim (EStateM.throw .panic) pure

/-- `?` on a collaborator's answer. -/
def lift {α : Type} : Except DispatchError α → Dispatch α
  | .ok a => pure a
  | .error e => EStateM.throw (.error e)

/-- `ensure_signed`. -/
def ensureSigned : Origin → Dispatch AccountId
  | .signed acc => pure acc
  | _ => EStateM.throw (.error .badOrigin)

/-- `ensure_root`. -/
def ensureRoot : Origin → Dispatch Unit
  | .root => pure ()
  | _ => EStateM.throw (.error .badOrigin)

/-- Read the store. -/
def read {α : Type} (f : Store → α) : Dispatch α := fun s => .ok (f s) s

/-- Change the store. -/
def update (g : Store → Store) : Dispatch Unit := fun s => .ok () (g s)

/-- A call that changes another pallet's state: it is made, so it is recorded, and then its
answer is passed on with `?`. -/
def external (c : ExtCall) (r : Except DispatchError Unit) : Dispatch Unit := do
  update fun s => { s with calls := s.calls ++ [c] }
  lift r

/-! ## Storage locations -/

/-- A storage location: how a read sees it and what a write does. -/
structure Slot (V : Type) where
  read : Store → V
  write : V → Store → Store

namespace Slot

variable {V : Type}

/-- Read the location. -/
def get (l : Slot V) : Dispatch V := FileBank.read l.read

/-- Write the location. -/
def put (l : Slot V) (v : V) : Dispatch Unit := update (l.write v)

/-- `try_mutate`: run the closure on the location's value and write its result back only if
it succeeds. Whatever else the closure writes stays written, whatever it returns. -/
def tryMutate (l : Slot V) (f : V → Dispatch V) : Dispatch Unit := do
  let v ← l.get
  let v' ← f v
  l.put v'

end Slot

/-- `File[h]`. -/
def fileSlot (h : Bytes) : Slot (Option FileInfo) where
  read s := s.file.get h
  write v s := { s with file := s.file.set h v }

@[simp] theorem fileSlot_write_file (h : Bytes) (v : Option FileInfo) (s : Store) :
    ((fileSlot h).write v s).file = s.file.set h v := rfl

/-- `PurchasedPackage[acc]`. -/
def packageSlot (acc : AccountId) : Slot (Option PackageDetails) where
  read s := s.purchasedPackage acc
  write v s := { s with purchasedPackage := Function.update s.purchasedPackage acc v }

/-- `UserHoldFileList[acc]`; a `ValueQuery` write always stores the list. -/
def holdSlot (acc : AccountId) : Slot (List UserFileSliceInfo) where
  read s := s.holdList acc
  write v s := { s with userHoldFileList := Function.update s.userHoldFileList acc (some v) }

/-- `InvalidFile[acc]`. -/
def invalidSlot (acc : AccountId) : Slot (List Bytes) where
  read s := s.invalidFile acc
  write v s := { s with invalidFile := Function.update s.invalidFile acc v }

/-- `FillerMap[miner][id]`. -/
def fillerSlot (miner : AccountId) (id : Bytes) : Slot (Option FillerInfo) where
  read s := s.fillerMap.get (miner, id)
  write v s := { s with fillerMap := s.fillerMap.set (miner, id) v }

/-- `Members`. -/
def membersSlot : Slot (List AccountId) where
  read s := s.members
  write v s := { s with members := v }

/-! ## Success of the primitives -/

section Ok

variable {α : Type} {s s' : Store}

@[simp] theorem pure_eq_ok {a b : α} : (pure a : Dispatch α) s = .ok b s' ↔ b = a ∧ s' = s := by
  show EStateM.Result.ok a s = _ ↔ _
  simp [eq_comm]

@[simp] theorem throw_eq_ok {e : Fault} {b : α} :
    (EStateM.throw e : Dispatch α) s = .ok b s' ↔ False := by
  show EStateM.Result.error e s = _ ↔ _
  simp

@[simp] theorem fail_eq_ok {e : Error} {b : α} : (fail e : Dispatch α) s = .ok b s' ↔ False :=
  throw_eq_ok

@[simp] theorem ensure_eq_ok {c : Prop} [Decidable c] {e : Error} {u : Unit} :
    ensure c e s = .ok u s' ↔ c ∧ s' = s := by
  unfold ensure; split <;> simp_all

@[simp] theorem okOr_eq_ok {o : Option α} {e : Error} {a : α} :
    okOr o e s = .ok a s' ↔ o = some a ∧ s' = s := by
  cases o <;> simp [okOr, eq_comm]

@[simp] theorem unwrap_eq_ok {o : Option α} {a : α} :
    unwrap o s = .ok a s' ↔ o = some a ∧ s' = s := by
  cases o <;> simp [unwrap, eq_comm]

@[simp] theorem lift_eq_ok {r : Except DispatchError α} {a : α} :
    lift r s = .ok a s' ↔ r = .ok a ∧ s' = s := by
  cases r <;> simp [lift, EStateM.throw, eq_comm]

@[simp] theorem ensureSigned_eq_ok {o : Origin} {a : AccountId} :
    ensureSigned o s = .ok a s' ↔ o = .signed a ∧ s' = s := by
  cases o <;> simp [ensureSigned, EStateM.throw, eq_comm]

@[simp] theorem read_eq_ok {g : Store → α} {a : α} : read g s = .ok a s' ↔ a = g s ∧ s' = s := by
  show EStateM.Result.ok (g s) s = _ ↔ _
  simp [eq_comm]

@[simp] theorem update_eq_ok {g : Store → Store} {u : Unit} : update g s = .ok u s' ↔ s' = g s := by
  show EStateM.Result.ok () (g s) = _ ↔ _
  simp [eq_comm]

@[simp] theorem external_eq_ok {c : ExtCall} {r : Except DispatchError Unit} {u : Unit} :
    external c r s = .ok u s' ↔ r = .ok () ∧ s' = { s with calls := s.calls ++ [c] } := by
  simp only [external, bind_eq_ok, update_eq_ok, lift_eq_ok]
  constructor
  · rintro ⟨_, _, rfl, rfl, rfl⟩; exact ⟨rfl, rfl⟩
  · rintro ⟨rfl, rfl⟩; exact ⟨(), _, rfl, rfl, rfl⟩

@[simp] theorem Slot.get_eq_ok {V : Type} {l : Slot V} {v : V} :
    l.get s = .ok v s' ↔ v = l.read s ∧ s' = s :=
  read_eq_ok

@[simp] theorem Slot.put_eq_ok {V : Type} {l : Slot V} {v : V} {u : Unit} :
    l.put v s = .ok u s' ↔ s' = l.write v s :=
  update_eq_ok

@[simp] theorem Slot.tryMutate_eq_ok {V : Type} {l : Slot V} {f : V → Dispatch V} {u : Unit} :
    l.tryMutate f s = .ok u s' ↔ ∃ v' s₁, f (l.read s) s = .ok v' s₁ ∧ s' = l.write v' s₁ := by
  simp only [Slot.tryMutate, bind_eq_ok, Slot.get_eq_ok, Slot.put_eq_ok]
  constructor
  · rintro ⟨_, _, ⟨rfl, rfl⟩, v', s₁, h, rfl⟩
    exact ⟨v', s₁, h, rfl⟩
  · rintro ⟨v', s₁, h, rfl⟩
    exact ⟨_, _, ⟨rfl, rfl⟩, v', s₁, h, rfl⟩

end Ok

/-! ## Read-only dispatches -/

/-- `x` writes nothing, whatever its outcome. -/
def ReadOnly {α : Type} (x : Dispatch α) : Prop := ∀ s, storeOf (x s) = s

section ReadOnly

variable {α β : Type} {R : Store → Store → Prop}

theorem ReadOnly.steps {x : Dispatch α} (hrefl : ∀ s, R s s) (hx : ReadOnly x) : Steps R x :=
  fun s => (hx s).symm ▸ hrefl s

/-- Checks before a write need no transitivity: they leave the store where they found it. -/
theorem ReadOnly.bind_steps {x : Dispatch α} {f : α → Dispatch β} (hx : ReadOnly x)
    (hf : ∀ a, Steps R (f a)) (hrefl : ∀ s, R s s) : Steps R (x >>= f) :=
  Steps.bind_of (fun a b c (hab : b = a) (hbc : R b c) => hab ▸ hbc)
    (fun a b (hab : b = a) => hab ▸ hrefl a) hx hf

/-- A check whose every result satisfies `Q` lets the rest assume `Q`. -/
theorem ReadOnly.bind_steps_of {Q : α → Prop} {x : Dispatch α} {f : α → Dispatch β}
    (hx : ReadOnly x) (hQ : ∀ s a s', x s = .ok a s' → Q a) (hf : ∀ a, Q a → Steps R (f a))
    (hrefl : ∀ s, R s s) : Steps R (x >>= f) := by
  intro s
  have h₁ := hx s
  cases h : x s with
  | ok a s' =>
    rw [h] at h₁
    change s' = s at h₁
    subst h₁
    rw [bind_of_ok h]
    exact hf a (hQ _ a _ h) _
  | error e s' => rw [h] at h₁; rw [bind_of_error h]; exact h₁ ▸ hrefl s

theorem ReadOnly.bind {x : Dispatch α} {f : α → Dispatch β} (hx : ReadOnly x)
    (hf : ∀ a, ReadOnly (f a)) : ReadOnly (x >>= f) := by
  have h := ReadOnly.bind_steps hx (fun a s => (hf a s).symm) (fun s => rfl)
  exact fun s => (h s).symm

/-- A value `okOr` lets through is the one it was given. -/
theorem okOr_bind_steps {o : Option α} {e : Error} {f : α → Dispatch β} (hrefl : ∀ s, R s s)
    (hf : ∀ a, o = some a → Steps R (f a)) : Steps R (okOr o e >>= f) := by
  cases o with
  | none => exact fun s => hrefl s
  | some a => exact fun s => by rw [bind_of_ok (show okOr (some a) e s = .ok a s from rfl)]; exact hf a rfl s

/-- A value `unwrap` lets through is the one it was given. -/
theorem unwrap_bind_steps {o : Option α} {f : α → Dispatch β} (hrefl : ∀ s, R s s)
    (hf : ∀ a, o = some a → Steps R (f a)) : Steps R (unwrap o >>= f) := by
  cases o with
  | none => exact fun s => hrefl s
  | some a => exact fun s => by rw [bind_of_ok (show unwrap (some a) s = .ok a s from rfl)]; exact hf a rfl s

/-- What `ensure` lets through satisfies its condition. -/
theorem ensure_bind_steps {c : Prop} [Decidable c] {e : Error} {f : Unit → Dispatch β}
    (hrefl : ∀ s, R s s) (hf : c → Steps R (f ())) : Steps R (ensure c e >>= f) := by
  by_cases hc : c
  · intro s
    rw [bind_of_ok (show ensure c e s = .ok () s by simp [ensure, hc])]
    exact hf hc s
  · intro s
    rw [bind_of_error (show ensure c e s = .error (.error (.module e)) s by
      simp [ensure, hc]; rfl)]
    exact hrefl s

/-- After reading a location, the rest of the dispatch runs from a store holding what was
read. -/
theorem Slot.get_bind_steps {V : Type} {l : Slot V} {f : V → Dispatch β}
    (hf : ∀ v, Steps (fun s s' => l.read s = v → R s s') (f v)) : Steps R (l.get >>= f) := by
  intro s
  rw [bind_of_ok (show l.get s = .ok (l.read s) s from rfl)]
  exact hf (l.read s) s rfl

theorem readOnly_pure (a : α) : ReadOnly (pure a : Dispatch α) := fun _ => rfl

theorem readOnly_read (g : Store → α) : ReadOnly (read g) := fun _ => rfl

theorem readOnly_fail (e : Error) : ReadOnly (fail e : Dispatch α) := fun _ => rfl

theorem readOnly_ensure (c : Prop) [Decidable c] (e : Error) : ReadOnly (ensure c e) := by
  unfold ensure; split <;> intro s <;> rfl

theorem readOnly_okOr (o : Option α) (e : Error) : ReadOnly (okOr o e) := by
  cases o <;> intro s <;> rfl

theorem readOnly_unwrap (o : Option α) : ReadOnly (unwrap o) := by
  cases o <;> intro s <;> rfl

theorem readOnly_lift (r : Except DispatchError α) : ReadOnly (lift r) := by
  cases r <;> intro s <;> rfl

theorem readOnly_ensureSigned (o : Origin) : ReadOnly (ensureSigned o) := by
  cases o <;> intro s <;> rfl

theorem readOnly_ensureRoot (o : Origin) : ReadOnly (ensureRoot o) := by
  cases o <;> intro s <;> rfl

theorem Slot.readOnly_get {V : Type} (l : Slot V) : ReadOnly l.get := fun _ => rfl

end ReadOnly

/-! ## Writes -/

section Writes

variable {V : Type} {R : Store → Store → Prop}

theorem steps_update {g : Store → Store} (h : ∀ s, R s (g s)) : Steps R (update g) := h

theorem Slot.steps_put {l : Slot V} {v : V} (h : ∀ s, R s (l.write v s)) : Steps R (l.put v) :=
  h

/-- `try_mutate` relates by a transitive `R` when the closure does, whatever it returns, and
each value it returns may be written over the store the closure leaves. -/
theorem Slot.steps_tryMutate {l : Slot V} {f : V → Dispatch V}
    (htrans : ∀ a b c, R a b → R b c → R a c) (hf : ∀ v, Steps R (f v))
    (hw : ∀ s v' s', f (l.read s) s = .ok v' s' → R s' (l.write v' s')) :
    Steps R (l.tryMutate f) := by
  intro s
  have h₁ := hf (l.read s) s
  unfold tryMutate
  rw [bind_of_ok (show l.get s = .ok (l.read s) s from rfl)]
  cases h : f (l.read s) s with
  | ok v' s' =>
    rw [h] at h₁
    rw [bind_of_ok h]
    exact htrans _ _ _ h₁ (hw s v' s' h)
  | error e s' => rw [h] at h₁; rw [bind_of_error h]; exact h₁

/-- `try_mutate` relates by `R₂` when its closure does by a relation that implies it, and the
store the closure leaves with its value written relates to the one it started from. -/
theorem Slot.steps_tryMutate_of {R₁ : Store → Store → Prop} {l : Slot V} {f : V → Dispatch V}
    (hf : ∀ v, Steps R₁ (f v)) (hstop : ∀ a b, R₁ a b → R a b)
    (hw : ∀ s v' s', f (l.read s) s = .ok v' s' → R s (l.write v' s')) :
    Steps R (l.tryMutate f) := by
  intro s
  have h₁ := hf (l.read s) s
  unfold tryMutate
  rw [bind_of_ok (show l.get s = .ok (l.read s) s from rfl)]
  cases h : f (l.read s) s with
  | ok v' s' => rw [bind_of_ok h]; exact hw s v' s' h
  | error e s' => rw [h] at h₁; rw [bind_of_error h]; exact hstop _ _ h₁

/-- `try_mutate` with a closure that writes nothing needs no transitivity. -/
theorem Slot.steps_tryMutate_readOnly {l : Slot V} {f : V → Dispatch V} (hrefl : ∀ s, R s s)
    (hf : ∀ v, ReadOnly (f v)) (hw : ∀ s v', f (l.read s) s = .ok v' s → R s (l.write v' s)) :
    Steps R (l.tryMutate f) := by
  intro s
  have h₁ := hf (l.read s) s
  unfold tryMutate
  rw [bind_of_ok (show l.get s = .ok (l.read s) s from rfl)]
  cases h : f (l.read s) s with
  | ok v' s' =>
    rw [h] at h₁
    cases h₁
    rw [bind_of_ok h]
    exact hw _ v' h
  | error e s' => rw [h] at h₁; rw [bind_of_error h]; exact h₁ ▸ hrefl _

/-- A call that changes another pallet's state relates by whatever admits its record. -/
theorem steps_external {c : ExtCall} {r : Except DispatchError Unit}
    (htrans : ∀ a b c, R a b → R b c → R a c) (hrefl : ∀ s, R s s)
    (h : ∀ s, R s { s with calls := s.calls ++ [c] }) : Steps R (external c r) :=
  Steps.bind htrans (steps_update h) fun _ => (readOnly_lift r).steps hrefl

end Writes

end Cess.FileBank
