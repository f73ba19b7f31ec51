import Mathlib.Data.List.Basic
import Mathlib.Algebra.Group.Nat.Basic

/-!
# The file bank's data model

What `pallet-file-bank` stores and what it answers with, as the pallet's `lib.rs` uses it.
The record types live in the pallet's `types.rs`, which is not among the sources: each record
below has exactly the fields `lib.rs` reads or writes, under their names there.

Machine integers are naturals. Every `checked_*` of the source is a `checked*` here at the
source's width, and an unchecked operator is the wrapping one a release build runs; so
overflow is explicit wherever the code can meet it, and a law that needs a field to fit its
width says so.

Byte strings are `Bytes`. The state tags the source compares against (`"active"`,
`"frozen"`, ...) are spelled out as their ASCII bytes.
-/

set_option autoImplicit false

namespace Cess.FileBank

/-- An account. The encoding is irrelevant to the pallet, which only compares accounts. -/
abbrev AccountId := Nat

/-- A byte string: a file hash, a file name, a filler id, a state tag. -/
abbrev Bytes := List UInt8

/-! ## Fixed-width arithmetic -/

/-- The largest `u32`. -/
def u32Max : Nat := 2 ^ 32 - 1

/-- `checked_add` at width `bits`. -/
def checkedAdd (bits a b : Nat) : Option Nat :=
  if a + b < 2 ^ bits then some (a + b) else none

/-- `checked_mul` at width `bits`. -/
def checkedMul (bits a b : Nat) : Option Nat :=
  if a * b < 2 ^ bits then some (a * b) else none

/-- `checked_sub`, at any unsigned width. -/
def checkedSub (a b : Nat) : Option Nat :=
  if b ≤ a then some (a - b) else none

/-- `checked_div`, at any unsigned width. -/
def checkedDiv (a b : Nat) : Option Nat :=
  if b = 0 then none else some (a / b)

/-- Unchecked `-` at width `bits`, as a release build runs it: it wraps below zero. -/
def wrappingSub (bits a b : Nat) : Nat := (a + 2 ^ bits - b) % 2 ^ bits

/-- Unchecked `*` at width `bits`. -/
def wrappingMul (bits a b : Nat) : Nat := a * b % 2 ^ bits

/-- Unchecked `+` at width `bits`. -/
def wrappingAdd (bits a b : Nat) : Nat := (a + b) % 2 ^ bits

@[simp] theorem checkedAdd_eq_some {bits a b c : Nat} :
    checkedAdd bits a b = some c ↔ a + b < 2 ^ bits ∧ c = a + b := by
  unfold checkedAdd; split <;> simp_all [eq_comm]

@[simp] theorem checkedMul_eq_some {bits a b c : Nat} :
    checkedMul bits a b = some c ↔ a * b < 2 ^ bits ∧ c = a * b := by
  unfold checkedMul; split <;> simp_all [eq_comm]

@[simp] theorem checkedSub_eq_some {a b c : Nat} :
    checkedSub a b = some c ↔ b ≤ a ∧ c = a - b := by
  unfold checkedSub; split <;> simp_all [eq_comm]

@[simp] theorem checkedDiv_eq_some {a b c : Nat} :
    checkedDiv a b = some c ↔ b ≠ 0 ∧ c = a / b := by
  unfold checkedDiv; split <;> simp_all [eq_comm]

/-- Below its width, the wrapping difference of an ordered pair is the true one. -/
theorem wrappingSub_of_le {bits a b : Nat} (hab : b ≤ a) (ha : a < 2 ^ bits) :
    wrappingSub bits a b = a - b := by
  unfold wrappingSub
  rw [show a + 2 ^ bits - b = a - b + 2 ^ bits by omega, Nat.add_mod_right]
  exact Nat.mod_eq_of_lt (by omega)

/-- The wrapping difference of an ordered pair never exceeds the true one. -/
theorem wrappingSub_le {bits a b : Nat} (hab : b ≤ a) : wrappingSub bits a b ≤ a - b := by
  unfold wrappingSub
  rw [Nat.sub_add_comm hab, Nat.add_mod_right]
  exact Nat.mod_le _ _

/-- `M_BYTE`. -/
def mByte : Nat := 1048576

/-- `G_BYTE`. -/
def gByte : Nat := 1048576 * 1024

/-- `T_BYTE`. -/
def tByte : Nat := 1048576 * 1024 * 1024

/-! ## Bounded vectors -/

/-- `try_into` a bounded vector of bound `limit`. -/
def tryInto {α : Type} (limit : Nat) (l : List α) : Option (List α) :=
  if l.length ≤ limit then some l else none

/-- `try_push` onto a bounded vector of bound `limit`. -/
def tryPush {α : Type} (limit : Nat) (l : List α) (a : α) : Option (List α) :=
  if l.length < limit then some (l ++ [a]) else none

@[simp] theorem tryInto_eq_some {α : Type} {limit : Nat} {l l' : List α} :
    tryInto limit l = some l' ↔ l.length ≤ limit ∧ l' = l := by
  unfold tryInto; split <;> simp_all [eq_comm]

@[simp] theorem tryPush_eq_some {α : Type} {limit : Nat} {l l' : List α} {a : α} :
    tryPush limit l a = some l' ↔ l.length < limit ∧ l' = l ++ [a] := by
  unfold tryPush; split <;> simp_all [eq_comm]

/-! ## Fallible computations -/

/-- A bind of fallible computations succeeds exactly when both halves do. -/
theorem except_bind_eq_ok {ε α β : Type} {x : Except ε α} {f : α → Except ε β} {b : β} :
    (x >>= f) = .ok b ↔ ∃ a, x = .ok a ∧ f a = .ok b := by
  cases x <;> simp [bind, Except.bind]

/-! ## Errors -/

/-- The variants of the pallet's `Error` that the modelled functions raise. -/
inductive Error where
  | fileExistent
  | fileNonExistent
  | overflow
  | insufficientStorage
  | wrongOperation
  | notPurchasedPackage
  | purchasedPackage
  | leaseFreeze
  | notOwner
  | alreadyExist
  | notQualified
  | userNotDeclared
  | scheduleNonExistent
  | boundedVecError
  | storageLimitReached
  | minerPowerInsufficient
  | isZero
  | lengthExceedsLimit
  | declarated
  deriving DecidableEq, Repr

/-- A `DispatchError`: a bad origin, one of this pallet's errors, or an error some other
pallet (a collaborator) returned, which the file bank only passes on. -/
inductive DispatchError where
  | badOrigin
  | module (e : Error)
  | other (code : Nat)
  deriving DecidableEq, Repr

/-- How a dispatch stops early: it returns an error, or it panics (an `unwrap` of `None`, a
`remove` past the end of a vector). -/
inductive Fault where
  | error (e : DispatchError)
  | panic
  deriving DecidableEq, Repr

/-- The origin of a call. -/
inductive Origin where
  | root
  | signed (acc : AccountId)
  | none
  deriving DecidableEq, Repr

/-! ## State tags -/

/-- `"pending"`: a declared file no coordinator has committed yet. -/
def pendingTag : Bytes := [112, 101, 110, 100, 105, 110, 103]

/-- `"active"`: a committed file. -/
def activeTag : Bytes := [97, 99, 116, 105, 118, 101]

/-- `"normal"`: the state a package is bought in. -/
def normalTag : Bytes := [110, 111, 114, 109, 97, 108]

/-- `"frozen"`: a package that may not take new files. -/
def frozenTag : Bytes := [102, 114, 111, 122, 101, 110]

/-- `"positive"`: a miner that may take fillers. -/
def positiveTag : Bytes := [112, 111, 115, 105, 116, 105, 118, 101]

/-- `"exit"`: a miner that may clear its fillers. -/
def exitTag : Bytes := [101, 120, 105, 116]

/-! ## Records -/

/-- `FileInfo`: a declared or committed file. `user` and `file_name` are parallel lists. -/
structure FileInfo where
  fileSize : Nat
  blockNum : Nat
  scanSize : Nat
  segmentSize : Nat
  minerAcc : AccountId
  minerId : Nat
  minerIp : Bytes
  user : List AccountId
  fileName : List Bytes
  fileState : Bytes
  deriving DecidableEq, Repr

/-- `PackageDetails`: an account's purchased space. -/
structure PackageDetails where
  space : Nat
  usedSpace : Nat
  remainingSpace : Nat
  tenancy : Nat
  packageType : Nat
  start : Nat
  deadline : Nat
  state : Bytes
  deriving DecidableEq, Repr

/-- `FillerInfo`: a placeholder a miner stores to prove idle capacity. -/
structure FillerInfo where
  fillerSize : Nat
  blockNum : Nat
  segmentSize : Nat
  minerAddress : AccountId
  fillerId : Bytes
  deriving DecidableEq, Repr

/-- `UserFileSliceInfo`: one entry of an account's held-file index. -/
structure UserFileSliceInfo where
  fileHash : Bytes
  fileSize : Nat
  deriving DecidableEq, Repr

/-- A call the pallet makes that changes another pallet's state: `MinerControl`'s power and
space accounting, and `Currency::transfer`. -/
inductive ExtCall where
  | addPower (acc : AccountId) (amount : Nat)
  | subPower (acc : AccountId) (amount : Nat)
  | addSpace (acc : AccountId) (amount : Nat)
  | subSpace (acc : AccountId) (amount : Nat)
  | transfer (source dest : AccountId) (amount : Nat)
  deriving DecidableEq, Repr

end Cess.FileBank
