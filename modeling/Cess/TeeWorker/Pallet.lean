import Cess.FileBank.Storage

/-!
# The tee-worker pallet

`pallet-tee-worker` keeps the registered TEE workers (the schedulers) and the PoDR2 public
key they share. `regist_scheduler` registers the sender as the worker of a stash it
controls and, while no worker is registered, stores the key it brings; the `ScheduleFind`
functions answer the file bank and the other pallets from the worker map.

Every call is `#[transactional]`: a call that fails or panics leaves storage as it found it.
So a call is a function from the store to a new store or a fault, and `Call.next` keeps the
old store on a fault.

`TeeWorkerMap` is a `CountedStorageMap`: its counter is a storage value of its own, which
`insert` raises, saturating at `u32::MAX`, when the key is new. `BondAcc` is read and written
by no function of the pallet and is left out. The staking pallet's `Bonded` map, the enclave
certificate check, the signature check and the credit counter are the runtime's answers,
in `Env`, and may differ at every call.
-/

set_option autoImplicit false

namespace Cess.TeeWorker

open FileBank (AccountId Bytes Origin StorageMap u32Max tryPush)

/-- The variants of the pallet's `Error`. -/
inductive Error where
  | alreadyRegistration
  | notController
  | alreadyReport
  | boundedVecError
  | storageLimitReached
  | overflow
  | notBond
  | nonTeeWorker
  | verifyCertFailed
  deriving DecidableEq, Repr

/-- How a call stops early: a bad origin, one of this pallet's errors, an error another
pallet returned, or a panic. -/
inductive Fault where
  | badOrigin
  | module (e : Error)
  | other (code : Nat)
  | panic
  deriving DecidableEq, Repr

/-- `SgxAttestationReport`: what `verify_miner_cert` checks. -/
structure SgxAttestationReport where
  reportJsonRaw : Bytes
  sign : Bytes
  certDer : Bytes
  deriving DecidableEq, Repr

/-- `TeeWorkerInfo`: a registered worker. -/
structure TeeWorkerInfo where
  controllerAccount : AccountId
  peerId : Bytes
  nodeKey : Bytes
  stashAccount : AccountId
  deriving DecidableEq, Repr

/-- The pallet's storage. -/
structure Store where
  teeWorkerMap : StorageMap AccountId TeeWorkerInfo
  /-- The counter of the `CountedStorageMap` `TeeWorkerMap`. -/
  teeWorkerCount : Nat
  teePodr2Pk : Option Bytes
  mrEnclaveWhitelist : List Bytes

/-- Empty storage. -/
def Store.empty : Store where
  teeWorkerMap := .empty
  teeWorkerCount := 0
  teePodr2Pk := none
  mrEnclaveWhitelist := []

/-- What a call may ask of the runtime. -/
structure Env where
  /-- `pallet_cess_staking::Pallet::bonded`: the controller a stash is bonded to. -/
  bonded : AccountId → Option AccountId
  /-- Whether `verify_miner_cert` accepts a report's `sign`, `cert_der` and
  `report_json_raw`. -/
  verifyMinerCert : Bytes → Bytes → Bytes → Bool
  /-- `sp_io::crypto::ed25519_verify` on a signature, a message and a public key. -/
  ed25519Verify : Bytes → Bytes → Bytes → Bool
  /-- `T::MaxWhitelist`. -/
  maxWhitelist : Nat
  /-- The answer of `CreditCounter::record_punishment`. -/
  recordPunishment : AccountId → Except Fault Unit

/-! ## Primitives -/

/-- `.ok_or(e)?`. -/
def okOr {α : Type} (o : Option α) (e : Error) : Except Fault α :=
  match o with
  | some a => .ok a
  | none => .error (.module e)

/-- `ensure!(c, e)`, and every `if !c { Err(e)? }`. -/
def ensure (c : Prop) [Decidable c] (e : Error) : Except Fault Unit :=
  if c then .ok () else .error (.module e)

/-- `ensure_signed`. -/
def ensureSigned : Origin → Except Fault AccountId
  | .signed acc => .ok acc
  | _ => .error .badOrigin

/-- `ensure_root`. -/
def ensureRoot : Origin → Except Fault Unit
  | .root => .ok ()
  | _ => .error .badOrigin

/-- `TeeWorkerMap::insert`: the counter rises, saturating, when the key is new. -/
def Store.insertWorker (s : Store) (acc : AccountId) (info : TeeWorkerInfo) : Store :=
  { s with
    teeWorkerMap := s.teeWorkerMap.insert acc info
    teeWorkerCount :=
      if s.teeWorkerMap.contains acc then s.teeWorkerCount else min (s.teeWorkerCount + 1) u32Max }

/-! ## Calls -/

/-- `regist_scheduler`: the sender registers as the worker of a stash bonded to it. The
first worker's PoDR2 key becomes the shared one. -/
def registScheduler (env : Env) (origin : Origin) (stashAccount : AccountId)
    (nodeKey peerId podr2Pbk : Bytes) (sgxAttestationReport : SgxAttestationReport)
    (s : Store) : Except Fault Store := do
  let sender ← ensureSigned origin
  let acc ← okOr (env.bonded stashAccount) .notBond
  ensure (sender = acc) .notController
  ensure (s.teeWorkerMap.contains sender = false) .alreadyRegistration
  ensure (env.verifyMinerCert sgxAttestationReport.sign sgxAttestationReport.certDer
    sgxAttestationReport.reportJsonRaw = true) .verifyCertFailed
  let teeWorkerInfo : TeeWorkerInfo :=
    { controllerAccount := sender, peerId, nodeKey, stashAccount }
  let s := if s.teeWorkerCount = 0 then { s with teePodr2Pk := some podr2Pbk } else s
  pure (s.insertWorker sender teeWorkerInfo)

/-- `"hello, world!"`, the message `test_verify_sig` checks. -/
def helloWorld : Bytes := [104, 101, 108, 108, 111, 44, 32, 119, 111, 114, 108, 100, 33]

/-- `test_verify_sig`: checks a signature over the fixed message; `msg` is not read. -/
def testVerifySig (env : Env) (origin : Origin) (puk sig _msg : Bytes) (s : Store) :
    Except Fault Store := do
  let _ ← ensureSigned origin
  ensure (env.ed25519Verify sig helloWorld puk = true) .verifyCertFailed
  pure s

/-- `update_whitelist`: root appends an enclave measurement; `try_push(..).unwrap()` panics
on a full list. -/
def updateWhitelist (env : Env) (origin : Origin) (mrEnclave : Bytes) (s : Store) :
    Except Fault Store := do
  ensureRoot origin
  match tryPush env.maxWhitelist s.mrEnclaveWhitelist mrEnclave with
  | some list => pure { s with mrEnclaveWhitelist := list }
  | none => .error .panic

/-- A call into the pallet. -/
inductive Call where
  | registScheduler (origin : Origin) (stashAccount : AccountId) (nodeKey peerId podr2Pbk : Bytes)
      (sgxAttestationReport : SgxAttestationReport)
  | testVerifySig (origin : Origin) (puk sig msg : Bytes)
  | updateWhitelist (origin : Origin) (mrEnclave : Bytes)

/-- What a call returns. -/
def Call.run (env : Env) : Call → Store → Except Fault Store
  | .registScheduler o stash nodeKey peerId podr2Pbk report =>
    TeeWorker.registScheduler env o stash nodeKey peerId podr2Pbk report
  | .testVerifySig o puk sig msg => TeeWorker.testVerifySig env o puk sig msg
  | .updateWhitelist o mrEnclave => TeeWorker.updateWhitelist env o mrEnclave

/-- The store after a call: a call that stops early is rolled back. -/
def Call.next (env : Env) (c : Call) (s : Store) : Store :=
  match c.run env s with
  | .ok s' => s'
  | .error _ => s

/-- The store a run of calls leaves, each call in its own runtime. -/
def Call.runAll : Store → List (Env × Call) → Store
  | s, [] => s
  | s, (env, c) :: rest => Call.runAll (c.next env s) rest

/-! ## `ScheduleFind` -/

/-- `contains_scheduler`. -/
def containsScheduler (s : Store) (acc : AccountId) : Bool := s.teeWorkerMap.contains acc

/-- The loop of `get_controller_acc`: the first worker in iteration order whose stash is
`acc`, and `acc` itself when there is none. -/
def findController (acc : AccountId) : List (AccountId × TeeWorkerInfo) → AccountId
  | [] => acc
  | (controllerUser, teeInfo) :: rest =>
    if teeInfo.stashAccount = acc then controllerUser else findController acc rest

/-- `get_controller_acc`. -/
def getControllerAcc (s : Store) (acc : AccountId) : AccountId :=
  findController acc s.teeWorkerMap.entries

/-- `punish_scheduler`: slash the stash of the worker `acc` controls and record the
punishment; the stash is returned as the account punished. -/
def punishScheduler (env : Env) (s : Store) (acc : AccountId) : Except Fault AccountId := do
  let teeWorker ← okOr (s.teeWorkerMap.get acc) .nonTeeWorker
  env.recordPunishment teeWorker.stashAccount
  pure teeWorker.stashAccount

/-- `get_first_controller`. -/
def getFirstController (s : Store) : Except Fault AccountId :=
  match s.teeWorkerMap.entries with
  | [] => .error (.module .nonTeeWorker)
  | (controllerAcc, _) :: _ => .ok controllerAcc

/-- `get_controller_list`. -/
def getControllerList (s : Store) : List AccountId := s.teeWorkerMap.entries.map Prod.fst

end Cess.TeeWorker
