import SlashingGuard.Proofs.Guard.LedgerErrors
import SlashingGuard.Signer.Basic

/-! # What the check of a configuration is good for

    A configuration is checked once, before anything else is done.  Its parts
    are checked again where they are used: the settings of the guard when it is
    created and when it prunes, the keys when they are registered, the kind of
    store when it is opened.  None of these later checks refuses what has
    passed the first one. -/

namespace SlashingGuard

namespace SignerConfig

variable {config : SignerConfig}

theorem check_eq_ok : config.check = .ok () ↔ config.guard.check = .ok () ∧
    config.storage.backend ≠ .rocksDb ∧ ∃ keys, config.publicKeys = .ok keys := by
  unfold check
  cases config.guard.check with
  | error e => simp [Except.mapError, bind, Except.bind]
  | ok _ =>
    by_cases missing : config.storage.backend = .rocksDb
    · simp [Except.mapError, bind, Except.bind, missing, throw, throwThe, MonadExceptOf.throw]
    · cases config.publicKeys with
      | error e => simp [Except.mapError, bind, Except.bind, missing]
      | ok keys => simp [Except.mapError, bind, Except.bind, missing, pure, Except.pure]

theorem isBls_of_readKey {text : String} {key : PublicKey} (h : readKey text = .ok key) :
    key.isBls := by
  unfold readKey at h
  split at h
  · contradiction
  · split at h
    · next bls => exact Except.ok.inj h ▸ bls
    · contradiction

theorem isBls_of_mapM {texts : List String} {keys : List PublicKey}
    (h : texts.mapM readKey = .ok keys) : ∀ key ∈ keys, key.isBls := by
  induction texts generalizing keys with
  | nil =>
    obtain rfl := Except.ok.inj h
    exact nofun
  | cons text rest ih =>
    rw [List.mapM_cons] at h
    obtain ⟨key, first, h⟩ := exists_of_bind_eq_ok h
    obtain ⟨keys', others, h⟩ := exists_of_bind_eq_ok h
    obtain rfl := Except.ok.inj h
    exact List.forall_mem_cons.2 ⟨isBls_of_readKey first, ih others⟩

/-- Keys that could be read have the length that registering asks for. -/
theorem isBls_of_publicKeys {keys : List PublicKey} (h : config.publicKeys = .ok keys) :
    ∀ key ∈ keys, key.isBls := isBls_of_mapM h

end SignerConfig

namespace Signer

variable {α ε : Type}

/-! ## Stores -/

/-- That a kind of store is not there. -/
def missingStore : Failure :=
  .plain "storage backend 'rocksdb' requires building with --features rocksdb"

/-- Whatever is answered, a step fails with what its own errors are told as. -/
theorem surely_of (failure : ε → Failure) (step : DiskProgram (Except ε α)) :
    (Opening.of failure step).run.Surely fun r => ∀ f, r = .error f → ∃ e, f = failure e := by
  show Program.Surely _ (Program.bind step _)
  refine step.surely_true.bind fun r _ f failed => ?_
  cases r with
  | ok a => contradiction
  | error e => exact ⟨e, (Except.error.inj failed).symm⟩

/-- What fails during something else is told with a cause. -/
theorem during_ne_missingStore (activity : String) (f : Failure) :
    f.during activity ≠ missingStore := by
  intro same
  exact nomatch congrArg Failure.causes same

/-- Only the kind of store that is not there is refused for that. -/
theorem surely_openStore {c : StorageConfig} (supported : c.backend ≠ .rocksDb) :
    (openStore c).run.Surely fun r => ∀ f, r = .error f → f ≠ missingStore := by
  unfold openStore
  cases kind : c.backend with
  | memory => exact nofun
  | rocksDb => exact absurd kind supported
  | file =>
    show Program.Surely _ (Program.bind (Opening.of _ _).run _)
    refine (surely_of _ _).bind fun r known => ?_
    cases r with
    | error f =>
      rintro f' same
      obtain ⟨e, rfl⟩ := known f rfl
      obtain rfl := Except.error.inj same
      exact during_ne_missingStore _ _
    | ok _ =>
      refine (surely_of _ _).mono fun r known f failed => ?_
      obtain ⟨e, rfl⟩ := known f failed
      exact during_ne_missingStore _ _

/-! ## The check -/

/-- Nothing behind the check of a configuration fails for what was checked, whatever disks and
    stores answer. -/
structure CheckSuffices (config : SignerConfig) : Prop where
  /-- The guard can be created, and has the settings that were checked. -/
  guard : ∃ guard, Guard.create config.guard = .ok guard ∧ guard.config = config.guard
  /-- The keys can be read, and no guard refuses to register them. -/
  keys : ∃ keys, config.publicKeys = .ok keys ∧ ∀ c, (Guard.register keys).FailsInLedger c
  /-- The kind of store is there. -/
  store : (openStore config.storage).run.Surely fun r => ∀ f, r = .error f → f ≠ missingStore
  /-- A guard with these settings does not refuse to prune. -/
  prune : ∀ c : Context, c.guard.config = config.guard → Guard.prune.FailsInLedger c
  /-- The divisor of a prune is not zero. -/
  division : slotsKept? config.guard.pruning.epochsToKeep config.guard.pruning.slotsPerEpoch =
    some (slotsKept config.guard.pruning.epochsToKeep config.guard.pruning.slotsPerEpoch)

theorem checkSuffices {config : SignerConfig} (checked : config.check = .ok ()) :
    CheckSuffices config := by
  obtain ⟨guard, store, keys, read⟩ := SignerConfig.check_eq_ok.1 checked
  have pruning : config.guard.pruning.check = .ok () := by
    unfold GuardConfig.check at guard
    split at guard
    · contradiction
    · exact guard
  constructor
  case guard => exact ⟨⟨config.guard, [], []⟩, by simp [Guard.create, guard], rfl⟩
  case keys =>
    have bls := SignerConfig.isBls_of_publicKeys read
    exact ⟨keys, read, fun _ => Guard.failsInLedger_register bls⟩
  case store => exact surely_openStore store
  case prune =>
    intro c same
    exact Guard.failsInLedger_prune (same ▸ pruning)
  case division =>
    rw [slotsKept?, if_neg (Guard.tunables_of_check pruning).2]

end Signer

end SlashingGuard
