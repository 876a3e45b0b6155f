import SlashingGuard.Guard.Config
import SlashingGuard.Guard.Error
import SlashingGuard.Guard.Metrics
import SlashingGuard.Ledger.Decision

/-! # Guards

    A guard answers the signing requests of the validators registered with it.
    All history is in the ledger: of its own it has only the keys it knows
    with their numbers, and the locks that are held.

    A decision, and each half of a prune, runs under the lock of one validator
    and one duty kind.  A lock that is held is not waited for here: whoever
    asks for it gets the timeout as an error and does nothing. -/

namespace SlashingGuard

/-- What a lock stands for. -/
abbrev LockName : Type := ValidatorId × DutyKind

/-- A guard: its settings, the keys it knows, and the locks that are held. -/
structure Guard where
  config : GuardConfig
  registered : List (PublicKey × ValidatorId)
  held : List LockName

namespace Guard

/-- A guard that knows no key yet. -/
def create (config : GuardConfig) : Except GuardError Guard :=
  match config.check with
  | .ok () => .ok ⟨config, [], []⟩
  | .error setting => .error (.configuration setting)

/-- The number of a key that the guard knows. -/
def validatorId? (g : Guard) (key : PublicKey) : Option ValidatorId :=
  g.registered.lookup key

/-- The guard with one more key, or with a new number for one. -/
def know (g : Guard) (key : PublicKey) (id : ValidatorId) : Guard :=
  { g with registered := (key, id) :: g.registered.filter fun entry => entry.1 ≠ key }

/-- The numbers of the keys that the guard knows, ascending, each once. -/
def registeredIds (g : Guard) : List ValidatorId :=
  ((g.registered.map Prod.snd).mergeSort fun a b => a.number ≤ b.number).eraseDups

end Guard

/-- What work of a guard sees and changes beside the ledger. -/
structure Context where
  guard : Guard
  metrics : Metrics

/-- Work of a guard on the ledger.  An error keeps the context. -/
abbrev GuardWork (α : Type) : Type :=
  ExceptT GuardError (StateT Context (Program Store.calls)) α

namespace GuardWork

variable {α : Type}

/-- Work on the ledger as work of a guard. -/
def ledger (work : LedgerWork α) : GuardWork α :=
  ExceptT.mk fun c => do
    let result ← work.run
    return (result.mapError GuardError.ledger, c)

/-- A value, or its error. -/
def conclude (result : Except GuardError α) : GuardWork α :=
  ExceptT.mk fun c => return (result, c)

def theGuard : GuardWork Guard := do return (← get).guard

def modifyGuard (f : Guard → Guard) : GuardWork Unit :=
  modify fun c => { c with guard := f c.guard }

def modifyMetrics (f : Metrics → Metrics) : GuardWork Unit :=
  modify fun c => { c with metrics := f c.metrics }

/-! ## Locks -/

/-- Takes a lock, unless it is held. -/
def takeLock (lock : LockName) : GuardWork Unit := do
  let g ← theGuard
  if g.held.contains lock then
    throw (.ledger (.lockTimeout lock.1 lock.2 g.config.lockTimeout))
  modifyGuard fun g => { g with held := lock :: g.held }

/-- Gives a lock back. -/
def releaseLock (lock : LockName) : GuardWork Unit :=
  modifyGuard fun g => { g with held := g.held.erase lock }

/-- Runs work under a lock, which is given back also after an error. -/
def withLock (lock : LockName) (work : GuardWork α) : GuardWork α := do
  takeLock lock
  -- An error is held back until the lock is given back.
  let result ← ExceptT.lift work.run
  releaseLock lock
  conclude result

/-- Runs work under both locks of a validator, the one for blocks taken first. -/
def withBothLocks (id : ValidatorId) (work : GuardWork α) : GuardWork α :=
  withLock (id, .block) (withLock (id, .attestation) work)

end GuardWork

namespace Guard

open GuardWork

/-! ## Registration -/

/-- Registers keys in the ledger and makes them known to the guard. -/
def register (keys : List PublicKey) : GuardWork Unit := do
  match keys.find? fun key => !key.isBls with
  | some key => throw (.wrongKeyLength key)
  | none =>
    -- Until all keys are in the ledger the guard knows none of them.
    let ids ← ledger (Ledger.registerAll keys)
    modifyGuard fun g => (keys.zip ids).foldl (fun g (key, id) => g.know key id) g

/-- The number of a key, which has to be known. -/
def resolve (key : PublicKey) : GuardWork ValidatorId := do
  match (← theGuard).validatorId? key with
  | some id => return id
  | none => throw (.unknownKey key)

/-! ## Requests -/

/-- Answers a request: decides it under the validator's lock for the duty kind, and counts the
    answer.  Without protection every request is permitted, and nothing is looked up. -/
def answer (kind : DutyKind) (key : PublicKey) (decide : ValidatorId → LedgerWork Decision) :
    GuardWork Decision := do
  if (← theGuard).config.enabled then
    let id ← resolve key
    let decision ← withLock (id, kind) (ledger (decide id))
    -- Permits and denials are counted; an error is neither.
    modifyMetrics fun m => m.countDecision kind decision
    return decision
  else return .permit

/-- Whether a block may be signed. -/
def signBlock (key : PublicKey) (slot : Slot) (root : SigningRoot) : GuardWork Decision :=
  answer .block key fun id => Ledger.signBlock id slot root

/-- Whether an attestation may be signed. -/
def signAttestation (key : PublicKey) (vote : Vote) (root : SigningRoot) : GuardWork Decision :=
  answer .attestation key fun id => Ledger.signAttestation id vote root

/-! ## Pruning -/

/-- Runs one half of a prune under its lock, and counts what it removed. -/
def pruneHalf (lock : LockName) (work : LedgerWork (Option UInt64 × Nat)) :
    GuardWork (Option UInt64 × Nat) :=
  withLock lock do
    let (floor, removed) ← ledger work
    modifyMetrics fun m => m.countPruned lock.2 removed
    return (floor, removed)

/-- Prunes one validator, blocks first. -/
def pruneValidator (id : ValidatorId) (epochsToKeep slotsPerEpoch : UInt64) :
    GuardWork PruneOutcome := do
  conclude ((checkTunables epochsToKeep slotsPerEpoch).mapError GuardError.configuration)
  let (slot, blocks) ←
    pruneHalf (id, .block) (Ledger.pruneBlocks id (slotsKept epochsToKeep slotsPerEpoch))
  let (epoch, attestations) ←
    pruneHalf (id, .attestation) (Ledger.pruneAttestations id epochsToKeep)
  return ⟨id, slot, epoch, blocks, attestations⟩

/-- Prunes validators in order; the first error ends it. -/
def pruneAll (epochsToKeep slotsPerEpoch : UInt64) (summary : PruneSummary) :
    List ValidatorId → GuardWork PruneSummary
  | [] => return summary
  | id :: rest => do
    let outcome ← pruneValidator id epochsToKeep slotsPerEpoch
    pruneAll epochsToKeep slotsPerEpoch (summary.record outcome) rest

/-- Prunes every validator that the guard knows, as it is configured. -/
def prune : GuardWork PruneSummary := do
  let g ← theGuard
  let pruning := g.config.pruning
  conclude (pruning.check.mapError GuardError.configuration)
  pruneAll pruning.epochsToKeep pruning.slotsPerEpoch .empty g.registeredIds

/-! ## Import -/

/-- Importing is refused, whatever the document. -/
def importDocument : GuardWork Unit := throw .importUnsupported

end Guard

end SlashingGuard
