import SlashingGuard.Proofs.Json.Alike
import SlashingGuard.Signer.Config

/-! # Layers of settings

    A layer is what one source of settings says, which may be nothing about
    some of them.  Over a configuration it replaces the settings that it says
    something about and keeps the others.  A file is a layer: a text is read as
    a configuration by reading what it says, with no defaults anywhere, and
    putting that over the defaults. -/

namespace SlashingGuard

/-! ## Layers -/

/-- What a source says about the storage. -/
structure StorageLayer where
  dataDirectory : Option String := none
  backend : Option Backend := none
  syncWrites : Option Bool := none
  lockWait : Option Duration := none
  deriving DecidableEq

/-- What a source says about pruning. -/
structure PruningLayer where
  enabled : Option Bool := none
  epochsToKeep : Option UInt64 := none
  slotsPerEpoch : Option UInt64 := none
  interval : Option Duration := none
  atBoot : Option Bool := none
  deriving DecidableEq

/-- What a source says about the guard. -/
structure GuardLayer where
  enabled : Option Bool := none
  lockTimeout : Option Duration := none
  pruning : PruningLayer := {}
  genesisRoot : Option SigningRoot := none
  deriving DecidableEq

/-- What a source says about the settings of a signer. -/
structure Layer where
  storage : StorageLayer := {}
  guard : GuardLayer := {}
  validators : Option (List String) := none
  deriving DecidableEq

/-- The settings of the storage under a layer. -/
def StorageLayer.over (l : StorageLayer) (c : StorageConfig) : StorageConfig where
  dataDirectory := l.dataDirectory.getD c.dataDirectory
  backend := l.backend.getD c.backend
  syncWrites := l.syncWrites.getD c.syncWrites
  lockWait := l.lockWait.getD c.lockWait

/-- The settings of pruning under a layer. -/
def PruningLayer.over (l : PruningLayer) (c : PruningConfig) : PruningConfig where
  enabled := l.enabled.getD c.enabled
  epochsToKeep := l.epochsToKeep.getD c.epochsToKeep
  slotsPerEpoch := l.slotsPerEpoch.getD c.slotsPerEpoch
  interval := l.interval.getD c.interval
  atBoot := l.atBoot.getD c.atBoot

/-- The settings of a guard under a layer. -/
def GuardLayer.over (l : GuardLayer) (c : GuardConfig) : GuardConfig where
  enabled := l.enabled.getD c.enabled
  lockTimeout := l.lockTimeout.getD c.lockTimeout
  pruning := l.pruning.over c.pruning
  genesisRoot := l.genesisRoot.getD c.genesisRoot

/-- The configuration under a layer. -/
def Layer.over (l : Layer) (c : SignerConfig) : SignerConfig where
  storage := l.storage.over c.storage
  guard := l.guard.over c.guard
  validators := l.validators.getD c.validators

/-- The layer that says nothing. -/
def Layer.empty : Layer := {}

/-! ## Files -/

/-- Members of the storage settings, with nothing in the place of one that is left out. -/
def StorageLayer.record : Json.Record StorageLayer where
  name := "StorageConfig"
  members := [
    .of "data_dir" .nowhere (Json.readTextAs "path string") fun d l =>
      { l with dataDirectory := some d },
    .of "backend" .nowhere Backend.fromJson fun b l => { l with backend := some b },
    .of "sync_writes" .nowhere Json.readBool fun b l => { l with syncWrites := some b },
    .of "lock_wait" .nowhere Json.readWordNumber fun n l =>
      { l with lockWait := some (.ofSeconds n.toNat) }]
  draft := {}

/-- Members of the pruning settings. -/
def PruningLayer.record : Json.Record PruningLayer where
  name := "PruningConfig"
  members := [
    .of "enabled" .nowhere Json.readBool fun b l => { l with enabled := some b },
    .of "epochs_to_keep" .nowhere Json.readWordNumber fun n l =>
      { l with epochsToKeep := some n },
    .of "slots_per_epoch" .nowhere Json.readWordNumber fun n l =>
      { l with slotsPerEpoch := some n },
    .of "interval" .nowhere Json.readWordNumber fun n l =>
      { l with interval := some (.ofSeconds n.toNat) },
    .of "at_boot" .nowhere Json.readBool fun b l => { l with atBoot := some b }]
  draft := {}

/-- Members of the settings of a guard. -/
def GuardLayer.record : Json.Record GuardLayer where
  name := "SlashingProtectionConfig"
  members := [
    .of "enabled" .nowhere Json.readBool fun b l => { l with enabled := some b },
    .of "lock_timeout" .nowhere Json.readWordNumber fun n l =>
      { l with lockTimeout := some (.ofMillis n.toNat) },
    .of "pruning" .nowhere PruningLayer.record.read fun p l => { l with pruning := p },
    .of "genesis_validators_root" .nowhere GuardConfig.readRoot fun r l =>
      { l with genesisRoot := some r }]
  draft := {}

namespace Layer

/-- Members of the settings of a signer. -/
def record : Json.Record Layer where
  name := "SignerConfig"
  members := [
    .of "storage" .nowhere StorageLayer.record.read fun s l => { l with storage := s },
    .of "slashing" .nowhere GuardLayer.record.read fun g l => { l with guard := g },
    .of "validators" .nowhere (Json.readList Json.readText) fun vs l =>
      { l with validators := some vs }]
  draft := {}

/-- What the text of a file says. -/
def ofText (path text : String) : Except ConfigError Layer :=
  (Json.readWhole record.read text).mapError (ConfigError.malformed path text)

/-- What a file says; without a file, nothing. -/
def load : Option String → DiskProgram (Except ConfigError Layer)
  | none => return .ok empty
  | some path => do
    match ← (Disk.readText path).run with
    | .ok text => return ofText path text
    | .error reason => return .error (.unreadable path reason)

end Layer

open Json Record

/-- A draft of a layer and one of a configuration belong together if the layer over the defaults
    comes to the configuration. -/
theorem StorageLayer.read_alike :
    Alike (fun l c => StorageLayer.over l .standard = c) record.read StorageConfig.record.read := by
  refine Record.read_alike rfl (.cons ?_ (.cons ?_ (.cons ?_ (.cons ?_ .nil)))) rfl
  all_goals
    refine Member.alike_same fun a l c same => ?_
    subst same
    rfl

theorem PruningLayer.read_alike :
    Alike (fun l c => PruningLayer.over l .standard = c) record.read PruningConfig.record.read := by
  refine Record.read_alike rfl (.cons ?_ (.cons ?_ (.cons ?_ (.cons ?_ (.cons ?_ .nil))))) rfl
  all_goals
    refine Member.alike_same fun a l c same => ?_
    subst same
    rfl

theorem GuardLayer.read_alike :
    Alike (fun l c => GuardLayer.over l .standard = c) record.read GuardConfig.record.read := by
  have pruning := PruningLayer.read_alike
  refine Record.read_alike rfl (.cons ?_ (.cons ?_ (.cons ?_ (.cons ?_ .nil)))) rfl
  case refine_3 =>
    refine Member.alike_of pruning fun p p' l c same same' => ?_
    subst same same'
    rfl
  all_goals
    refine Member.alike_same fun a l c same => ?_
    subst same
    rfl

namespace Layer

theorem read_alike :
    Alike (fun l c => Layer.over l .standard = c) record.read SignerConfig.record.read := by
  have storage := StorageLayer.read_alike
  have guard := GuardLayer.read_alike
  refine Record.read_alike rfl (.cons ?_ (.cons ?_ (.cons ?_ .nil))) rfl
  · refine Member.alike_of storage fun s s' l c same same' => ?_
    subst same same'
    rfl
  · refine Member.alike_of guard fun g g' l c same same' => ?_
    subst same same'
    rfl
  · refine Member.alike_same fun a l c same => ?_
    subst same
    rfl

/-- A text holds the configuration that what it says comes to over the defaults, and it is refused
    for what is wrong with it alone. -/
theorem ofText_eq (path text : String) :
    SignerConfig.ofText path text = (ofText path text).map fun l => l.over .standard := by
  have both := read_alike.readWhole text
  unfold SignerConfig.ofText ofText
  generalize readWhole record.read text = x, readWhole SignerConfig.record.read text = x' at both ⊢
  cases both with
  | ok same => rw [← same]; rfl
  | error e => rfl

theorem load_eq (file : Option String) :
    SignerConfig.load file = (Except.map fun l => l.over .standard) <$> load file := by
  cases file with
  | none => rfl
  | some path =>
    unfold SignerConfig.load load
    rw [map_bind]
    refine bind_congr fun reply => ?_
    cases reply with
    | ok text => exact congrArg Program.done (ofText_eq path text)
    | error reason => rfl

end Layer

end SlashingGuard
