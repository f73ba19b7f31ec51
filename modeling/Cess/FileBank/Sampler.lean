import Cess.FileBank.Storage
import Mathlib.Data.List.Sort
import Mathlib.Data.List.Destutter

/-!
# The audit sampler

`get_random_challenge_data` and what it calls: the pool counts (`get_fillermap_length`,
`get_file_map_length`), the index draw (`get_random_numberlist` over
`generate_random_number`), and the positional walks (`get_random_filler`,
`get_random_file`). The sampler only reads the store, so each function here is a function
of the store and the runtime into `Except DispatchError`.

Both loops of the source that have no bound of their own stop at the latest when a `u32`
`checked_add` fails, so each is a structural recursion on the headroom left before that
overflow: `randomFrom` on the counter's, `drawLoop` on the seed's. Each is therefore the
total function the source computes, with no fuel and no cut-off.
-/

set_option autoImplicit false

namespace Cess.FileBank

/-- A challenge, the tuple `(miner, id, block_list, size, kind, segment_size)`
`get_random_challenge_data` returns; kind 1 is a filler, kind 2 a file. -/
structure Challenge where
  acc : AccountId
  id : Bytes
  blockList : List UInt8
  size : Nat
  kind : Nat
  segmentSize : Nat
  deriving DecidableEq, Repr

/-- The loop of `generate_random_number` from `counter` on, with `room = u32::MAX - counter`:
the first nonzero draw at `seed + counter`, an unchecked `u32` sum; `Overflow` once the
counter cannot grow. -/
def randomFrom (random : Nat → Nat) (seed : Nat) : (room counter : Nat) →
    Except DispatchError Nat
  | room, counter =>
    let r := random (wrappingAdd 32 seed counter)
    if r ≠ 0 then .ok r
    else match room with
      | 0 => .error (.module .overflow)
      | room + 1 => randomFrom random seed room (counter + 1)

/-- The sums `seed + counter` the loop of `randomFrom` asks the randomness source about, in
order, before the unchecked `u32` addition reduces them. -/
def randomSums (random : Nat → Nat) (seed : Nat) : (room counter : Nat) → List Nat
  | room, counter =>
    (seed + counter) :: if random (wrappingAdd 32 seed counter) ≠ 0 then []
      else match room with
        | 0 => []
        | room + 1 => randomSums random seed room (counter + 1)

/-- `generate_random_number`. -/
def generateRandomNumber (env : Env) (seed : Nat) : Except DispatchError Nat :=
  randomFrom env.random seed u32Max 0

/-- `number_list.sort(); number_list.dedup();`: ascending, with adjacent repeats dropped.
A sorted permutation of a list of numbers is unique, so any sorting algorithm computes
Rust's `sort` here; insertion sort is the one that evaluates by `decide`. -/
def sortDedup (l : List Nat) : List Nat :=
  (l.insertionSort (· ≤ ·)).destutter (· ≠ ·)

/-- The loop of `get_random_numberlist`, with `room = u32::MAX - seed`. Each turn first
bumps the seed (so the seed of this turn is `u32::MAX - room`); once the list is long enough
it is sorted and deduplicated, and the loop stops if it is still long enough; otherwise one
more draw, reduced modulo `length`, is pushed. -/
def drawLoop (random : Nat → Nat) (length num : Nat) :
    (room : Nat) → List Nat → Except DispatchError (List Nat)
  | 0, _ => .error (.module .overflow)
  | room + 1, numberList =>
    let numberList := if num ≤ numberList.length then sortDedup numberList else numberList
    if num ≤ numberList.length then .ok numberList
    else do
      let r ← randomFrom random (u32Max - room) u32Max 0
      drawLoop random length num room (numberList ++ [r % length])

/-- The count `get_random_numberlist` draws at a rate of `rate` per thousand, in `u32`. -/
def countAt (length rate : Nat) : Except DispatchError Nat :=
  match (checkedMul 32 length rate).bind (checkedDiv · 1000) |>.bind (checkedAdd 32 · 1) with
  | some num => .ok num
  | none => .error (.module .overflow)

/-- `get_random_numberlist`: distinct indices below `length`; type 2 draws three times as
many as type 1, and any other type draws as type 1. The seed starts at the block number. -/
def getRandomNumberlist (env : Env) (length randomType : Nat) :
    Except DispatchError (List Nat) := do
  let seed := min env.blockNumber u32Max
  if length = 0 then return []
  let num ← match randomType with
    | 1 => countAt length 46
    | 2 => countAt length (46 * 3)
    | _ => countAt length 46
  drawLoop env.random length num (u32Max - seed) []

/-- A `u32` count of a list, as `get_fillermap_length` and `get_file_map_length` keep it. -/
def countEntries {α : Type} : List α → Nat → Except DispatchError Nat
  | [], length => .ok length
  | _ :: rest, length =>
    match checkedAdd 32 length 1 with
    | some length => countEntries rest length
    | none => .error (.module .overflow)

/-- Whether a `File` entry is committed. -/
def isActive (e : Bytes × FileInfo) : Bool := e.2.fileState = activeTag

/-- `get_fillermap_length`. -/
def getFillermapLength (s : Store) : Except DispatchError Nat :=
  countEntries s.fillerMap.entries 0

/-- `get_file_map_length`: the committed files. -/
def getFileMapLength (s : Store) : Except DispatchError Nat :=
  countEntries (s.file.entries.filter isActive) 0

/-- The inner walk of `get_random_filler` and `get_random_file`: the entry the `u32` counter
reaches at `i`, counting from `counter`. -/
def walkTo {α : Type} (i : Nat) : List α → Nat → Except DispatchError (Option α)
  | [], _ => .ok none
  | e :: rest, counter =>
    if counter = i then .ok (some e)
    else match checkedAdd 32 counter 1 with
      | some counter => walkTo i rest counter
      | none => .error (.module .overflow)

/-- The outer loop of the walks: one walk per drawn index, keeping what each finds. -/
def collectAt {α : Type} (entries : List α) : List Nat → Except DispatchError (List α)
  | [] => .ok []
  | i :: rest => do
    let found ← walkTo i entries 0
    let more ← collectAt entries rest
    pure (found.toList ++ more)

/-- `get_random_filler`. -/
def getRandomFiller (env : Env) (s : Store) : Except DispatchError (List FillerInfo) := do
  let length ← getFillermapLength s
  let numberList ← getRandomNumberlist env length 1
  collectAt (s.fillerMap.entries.map Prod.snd) numberList

/-- `get_random_file`: the walk counts committed files only. -/
def getRandomFile (env : Env) (s : Store) :
    Except DispatchError (List (Bytes × FileInfo)) := do
  let length ← getFileMapLength s
  let numberList ← getRandomNumberlist env length 2
  collectAt (s.file.entries.filter isActive) numberList

/-- The challenges `get_random_challenge_data` makes of the sampled fillers. -/
def fillerChallenges (env : Env) : List FillerInfo → Except DispatchError (List Challenge)
  | [] => .ok []
  | v :: rest => do
    let numberList ← getRandomNumberlist env v.blockNum 1
    let more ← fillerChallenges env rest
    pure (⟨v.minerAddress, v.fillerId, numberList.map Nat.toUInt8, v.fillerSize, 1,
      v.segmentSize⟩ :: more)

/-- The challenges `get_random_challenge_data` makes of the sampled files, skipping a file
whose recorded miner id is no longer its miner's. -/
def fileChallenges (env : Env) :
    List (Bytes × FileInfo) → Except DispatchError (List Challenge)
  | [] => .ok []
  | (fileHash, file) :: rest => do
    let minerId ← env.getMinerId file.minerAcc
    if file.minerId ≠ minerId then fileChallenges env rest
    else do
      let numberList ← getRandomNumberlist env file.blockNum 1
      let more ← fileChallenges env rest
      pure (⟨file.minerAcc, fileHash, numberList.map Nat.toUInt8, file.fileSize, 2,
        file.segmentSize⟩ :: more)

/-- `get_random_challenge_data`: the sampled fillers' challenges, then the sampled files'. -/
def getRandomChallengeData (env : Env) (s : Store) :
    Except DispatchError (List Challenge) := do
  let fillerData ← fillerChallenges env (← getRandomFiller env s)
  let fileData ← fileChallenges env (← getRandomFile env s)
  pure (fillerData ++ fileData)

end Cess.FileBank
