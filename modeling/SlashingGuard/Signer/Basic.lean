import SlashingGuard.Disk.Lock
import SlashingGuard.Signer.Config
import SlashingGuard.Signer.Schedule
import SlashingGuard.Store.Durable

/-! # Signers

    A signer owns what a guard needs at work: the lock on the data directory,
    the store there, and the guard over it with the configured validators.
    The configuration is checked before anything on disk is touched, and a
    signer that cannot be opened gives its lock back. -/

namespace SlashingGuard

/-- An open signer. -/
structure Signer where
  config : SignerConfig
  store : Store
  guard : Guard

/-- What a guard cannot do, as a failure. -/
def GuardError.failure (e : GuardError) : Failure :=
  match e with
  | .interchange reason => .because e.message reason
  | .output reason => .because e.message reason
  | e => .plain e.message

/-- Why a directory is not locked, as a failure. -/
def LockError.failure (e : LockError) : Failure :=
  match e with
  | .endlessWait => .abort e.message
  | .uncreatable reason => .because e.message reason.message
  | .unwritable reason => .because e.message reason.message
  | e => .plain e.message

namespace Signer

/-- A step of opening a signer. -/
abbrev Opening (α : Type) : Type := ExceptT Failure (Program Disk.calls) α

/-- A step that other errors end, told as failures. -/
def Opening.of {α ε : Type} (failure : ε → Failure) (step : DiskProgram (Except ε α)) :
    Opening α :=
  ExceptT.mk ((Except.mapError failure) <$> step)

/-! ## Opening -/

/-- Whether a kind of store keeps the ledger in the data directory. -/
def isDurable : Backend → Bool
  | .memory => false
  | _ => true

/-- Opens the configured store. -/
def openStore (c : StorageConfig) : Opening Store :=
  let directory := c.dataDirectory
  match c.backend with
  | .memory => pure .inMemory
  | .file => do
    Opening.of (fun e => (Failure.plain e.message).during
      ("creating data directory " ++ directory)) (Disk.makeDirectories directory).run
    Opening.of (fun e => (Failure.plain e.message).during
      ("opening ledger " ++ DataDirectory.ledgerFile directory)) (Store.load directory)
  | .rocksDb =>
    throw (.plain "storage backend 'rocksdb' requires building with --features rocksdb")

/-- Runs work of a guard against a store. -/
def perform {α : Type} (work : GuardWork α) (c : Context) (s : Store) :
    DiskProgram ((Except GuardError α × Context) × Store) :=
  Store.run (work.run.run c) s

/-- Registers keys with a guard, if there are any. -/
def registerKeys (keys : List PublicKey) (guard : Guard) (s : Store) : Opening (Guard × Store) :=
  if keys.isEmpty then return (guard, s)
  else do
    let ((result, c), s) ← ExceptT.lift (perform (Guard.register keys) ⟨guard, .zero⟩ s)
    match result with
    | .ok () => return (c.guard, s)
    | .error e => throw (e.failure.during "registering configured validators")

/-- Opens the store and sets up the guard over it. -/
def assemble (config : SignerConfig) : Opening Signer := do
  let store ← openStore config.storage
  let guard ← Opening.of GuardError.failure (pure (Guard.create config.guard))
  let keys ← Opening.of ConfigError.failure (pure config.publicKeys)
  let (guard, store) ← registerKeys keys guard store
  return ⟨config, store, guard⟩

/-- Gives back the lock that an open signer with this configuration holds. -/
def unlock (c : StorageConfig) : DiskProgram Unit :=
  if isDurable c.backend then DataDirectory.release c.dataDirectory else pure ()

/-- Takes the lock on the data directory, if the ledger is kept there. -/
def lock (c : StorageConfig) : Opening Unit :=
  if isDurable c.backend then
    Opening.of (fun e => e.failure.during ("locking " ++ c.dataDirectory))
      (DataDirectory.acquire c.dataDirectory c.lockWait)
  else pure ()

/-- Opens a signer. -/
def launch (config : SignerConfig) : Opening Signer := do
  Opening.of (fun e => e.failure.during "invalid configuration") (pure config.check)
  lock config.storage
  match ← ExceptT.lift (assemble config).run with
  | .ok signer => return signer
  -- Only an open signer keeps the lock.
  | .error f =>
    ExceptT.lift (unlock config.storage)
    throw f

/-- Closes a signer. -/
def close (s : Signer) : DiskProgram Unit := unlock s.config.storage

/-! ## Pruning on schedule -/

/-- When the signer prunes, if it does. -/
def schedule? (s : Signer) : Option Schedule :=
  let guard := s.config.guard
  if guard.enabled && guard.pruning.enabled then
    some ⟨guard.pruning.interval, guard.pruning.atBoot⟩
  else none

end Signer

end SlashingGuard
