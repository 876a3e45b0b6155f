import SlashingGuard.Duty.Pruning
import SlashingGuard.Json.Basic
import SlashingGuard.Json.Record

/-! # Configuration of a guard

    Whether requests are checked at all, how long a request waits for a lock,
    how much history is kept, and the root that names the chain in exported
    documents.  In JSON every setting may be left out; the lock timeout counts
    milliseconds and the pruning interval seconds. -/

namespace SlashingGuard

/-! ## Pruning -/

namespace PruningConfig

def toJson (c : PruningConfig) : Json :=
  .object [
    ("enabled", .bool c.enabled),
    ("epochs_to_keep", .number c.epochsToKeep.toNat),
    ("slots_per_epoch", .number c.slotsPerEpoch.toNat),
    ("interval", .number c.interval.toSeconds),
    ("at_boot", .bool c.atBoot)]

def record : Json.Record PruningConfig where
  name := "PruningConfig"
  members := [
    .of "enabled" .nowhere Json.readBool fun b c => { c with enabled := b },
    .of "epochs_to_keep" .nowhere Json.readWordNumber fun n c => { c with epochsToKeep := n },
    .of "slots_per_epoch" .nowhere Json.readWordNumber fun n c => { c with slotsPerEpoch := n },
    .of "interval" .nowhere Json.readWordNumber fun n c =>
      { c with interval := .ofSeconds n.toNat },
    .of "at_boot" .nowhere Json.readBool fun b c => { c with atBoot := b }]
  draft := .standard

end PruningConfig

/-! ## The guard -/

/-- The settings of a guard. -/
structure GuardConfig where
  /-- Whether requests are checked; otherwise each is permitted and none recorded. -/
  enabled : Bool
  lockTimeout : Duration
  pruning : PruningConfig
  /-- Written into the metadata of exported documents. -/
  genesisRoot : SigningRoot
  deriving DecidableEq, Repr

namespace GuardConfig

def standard : GuardConfig where
  enabled := true
  lockTimeout := .ofSeconds 10
  pruning := .standard
  genesisRoot := ⟨List.replicate 32 0⟩

/-- The lock timeout and the pruning settings have to be usable. -/
def check (c : GuardConfig) : Except SettingError Unit :=
  if c.lockTimeout.isZero then .error .noLockTimeout else c.pruning.check

def toJson (c : GuardConfig) : Json :=
  .object [
    ("enabled", .bool c.enabled),
    ("lock_timeout", .number c.lockTimeout.toMillis),
    ("pruning", c.pruning.toJson),
    ("genesis_validators_root", .text c.genesisRoot.write)]

/-- A signing root written in hexadecimal digits. -/
def readRoot : Json.Reader SigningRoot :=
  Json.readParsed SigningRoot.read Hex.Invalid.message

def record : Json.Record GuardConfig where
  name := "SlashingProtectionConfig"
  members := [
    .of "enabled" .nowhere Json.readBool fun b c => { c with enabled := b },
    .of "lock_timeout" .nowhere Json.readWordNumber fun n c =>
      { c with lockTimeout := .ofMillis n.toNat },
    .of "pruning" .nowhere PruningConfig.record.read fun p c => { c with pruning := p },
    .of "genesis_validators_root" .nowhere readRoot fun r c => { c with genesisRoot := r }]
  draft := .standard

/-- The configuration that a JSON text holds. -/
def ofText (text : String) : Except Json.Error GuardConfig :=
  Json.readWhole record.read text

end GuardConfig

end SlashingGuard
