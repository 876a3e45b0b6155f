import SlashingGuard.Proofs.Interchange.Document
import SlashingGuard.Proofs.Json.Deletion
import SlashingGuard.Proofs.Json.Scalars
import SlashingGuard.Proofs.Signer.Settling

/-! # Written configurations are read

    A configuration is read back from what is written of it, if its lengths of
    time are whole numbers of the units they are written in: the text counts
    seconds or milliseconds, and readers take numbers that fit a word.  All
    configurations that come from a file and the environment are of this kind.
    When members are taken out of what is written, their settings are read as
    the defaults and the others as before. -/

namespace SlashingGuard

open Json

/-! ## Whole units -/

/-- A word of whole seconds. -/
def Duration.InSeconds (d : Duration) : Prop := ∃ n : UInt64, d = .ofSeconds n.toNat

/-- A word of whole milliseconds. -/
def Duration.InMillis (d : Duration) : Prop := ∃ n : UInt64, d = .ofMillis n.toNat

/-- Lengths of time are whole numbers of the units in which they are written. -/
structure PruningConfig.InUnits (c : PruningConfig) : Prop where
  interval : c.interval.InSeconds

structure GuardConfig.InUnits (c : GuardConfig) : Prop where
  lockTimeout : c.lockTimeout.InMillis
  pruning : c.pruning.InUnits

structure StorageConfig.InUnits (c : StorageConfig) : Prop where
  lockWait : c.lockWait.InSeconds

structure SignerConfig.InUnits (c : SignerConfig) : Prop where
  storage : c.storage.InUnits
  guard : c.guard.InUnits

theorem Duration.reads_inSeconds {d : Duration} (whole : d.InSeconds) :
    ∃ n : UInt64, d = .ofSeconds n.toNat ∧ ReadsUpTo readWordNumber (.number d.toSeconds) n := by
  obtain ⟨n, rfl⟩ := whole
  rw [toSeconds_ofSeconds]
  exact ⟨n, rfl, readsUpTo_wordNumber n⟩

theorem Duration.reads_inMillis {d : Duration} (whole : d.InMillis) :
    ∃ n : UInt64, d = .ofMillis n.toNat ∧ ReadsUpTo readWordNumber (.number d.toMillis) n := by
  obtain ⟨n, rfl⟩ := whole
  rw [toMillis_ofMillis]
  exact ⟨n, rfl, readsUpTo_wordNumber n⟩

/-! ## Resetting settings -/

/-- The settings with the defaults for those whose places are gone. -/
def PruningConfig.reset (gone : Places) (c : PruningConfig) : PruningConfig where
  enabled := if gone ["enabled"] then PruningConfig.standard.enabled else c.enabled
  epochsToKeep :=
    if gone ["epochs_to_keep"] then PruningConfig.standard.epochsToKeep else c.epochsToKeep
  slotsPerEpoch :=
    if gone ["slots_per_epoch"] then PruningConfig.standard.slotsPerEpoch else c.slotsPerEpoch
  interval := if gone ["interval"] then PruningConfig.standard.interval else c.interval
  atBoot := if gone ["at_boot"] then PruningConfig.standard.atBoot else c.atBoot

def GuardConfig.reset (gone : Places) (c : GuardConfig) : GuardConfig where
  enabled := if gone ["enabled"] then GuardConfig.standard.enabled else c.enabled
  lockTimeout := if gone ["lock_timeout"] then GuardConfig.standard.lockTimeout else c.lockTimeout
  pruning :=
    if gone ["pruning"] then GuardConfig.standard.pruning
    else c.pruning.reset (gone.below "pruning")
  genesisRoot :=
    if gone ["genesis_validators_root"] then GuardConfig.standard.genesisRoot else c.genesisRoot

def StorageConfig.reset (gone : Places) (c : StorageConfig) : StorageConfig where
  dataDirectory :=
    if gone ["data_dir"] then StorageConfig.standard.dataDirectory else c.dataDirectory
  backend := if gone ["backend"] then StorageConfig.standard.backend else c.backend
  syncWrites := if gone ["sync_writes"] then StorageConfig.standard.syncWrites else c.syncWrites
  lockWait := if gone ["lock_wait"] then StorageConfig.standard.lockWait else c.lockWait

def SignerConfig.reset (gone : Places) (c : SignerConfig) : SignerConfig where
  storage :=
    if gone ["storage"] then SignerConfig.standard.storage
    else c.storage.reset (gone.below "storage")
  guard :=
    if gone ["slashing"] then SignerConfig.standard.guard else c.guard.reset (gone.below "slashing")
  validators := if gone ["validators"] then SignerConfig.standard.validators else c.validators

/-! ## Reading what is written -/

theorem PruningConfig.reads_without {c : PruningConfig} (whole : c.InUnits) (gone : Places) :
    Reads record.read (c.toJson.without gone) (c.reset gone) := by
  obtain ⟨seconds, same, reads⟩ := Duration.reads_inSeconds whole.interval
  have enabled : record.GivesWithout gone ("enabled", .bool c.enabled) _ :=
    Record.givesWithout_of rfl (reads_bool c.enabled).upTo
  have epochs : record.GivesWithout gone ("epochs_to_keep", .number c.epochsToKeep.toNat) _ :=
    Record.givesWithout_of rfl (readsUpTo_wordNumber c.epochsToKeep)
  have slots : record.GivesWithout gone ("slots_per_epoch", .number c.slotsPerEpoch.toNat) _ :=
    Record.givesWithout_of rfl (readsUpTo_wordNumber c.slotsPerEpoch)
  have interval : record.GivesWithout gone ("interval", .number c.interval.toSeconds) _ :=
    Record.givesWithout_of rfl reads
  have atBoot : record.GivesWithout gone ("at_boot", .bool c.atBoot) _ :=
    Record.givesWithout_of rfl (reads_bool c.atBoot).upTo
  have members : List.Forall₂ (record.GivesWithout gone) _ _ :=
    .cons enabled (.cons epochs (.cons slots (.cons interval (.cons atBoot .nil))))
  refine Record.reads_without members (by decide) (.refl _)
    (by simp [record, Member.of, Presence.inObject]) ?_
  simp only [reset, Record.storeKept, same]
  -- Both sides ask the same questions about what is gone, in their own order.
  generalize gone ["enabled"] = a, gone ["epochs_to_keep"] = b, gone ["slots_per_epoch"] = e,
    gone ["interval"] = f, gone ["at_boot"] = g
  cases a <;> cases b <;> cases e <;> cases f <;> cases g <;> rfl

theorem GuardConfig.reads_without {c : GuardConfig} (whole : c.InUnits) (gone : Places) :
    Reads record.read (c.toJson.without gone) (c.reset gone) := by
  obtain ⟨millis, same, reads⟩ := Duration.reads_inMillis whole.lockTimeout
  have enabled : record.GivesWithout gone ("enabled", .bool c.enabled) _ :=
    Record.givesWithout_of rfl (reads_bool c.enabled).upTo
  have lockTimeout : record.GivesWithout gone ("lock_timeout", .number c.lockTimeout.toMillis) _ :=
    Record.givesWithout_of rfl reads
  have pruning : record.GivesWithout gone ("pruning", c.pruning.toJson) _ :=
    Record.givesWithout_of rfl
      (PruningConfig.reads_without whole.pruning (gone.below "pruning")).upTo
  have root : record.GivesWithout gone ("genesis_validators_root", .text c.genesisRoot.write) _ :=
    Record.givesWithout_of rfl (reads_parsed (SigningRoot.read_write c.genesisRoot)).upTo
  have members : List.Forall₂ (record.GivesWithout gone) _ _ :=
    .cons enabled (.cons lockTimeout (.cons pruning (.cons root .nil)))
  refine Record.reads_without members (by decide) (.refl _)
    (by simp [record, Member.of, Presence.inObject]) ?_
  simp only [reset, Record.storeKept, same]
  generalize gone ["enabled"] = a, gone ["lock_timeout"] = b, gone ["pruning"] = e,
    gone ["genesis_validators_root"] = f
  cases a <;> cases b <;> cases e <;> cases f <;> rfl

theorem StorageConfig.reads_without {c : StorageConfig} (whole : c.InUnits) (gone : Places) :
    Reads record.read (c.toJson.without gone) (c.reset gone) := by
  obtain ⟨seconds, same, reads⟩ := Duration.reads_inSeconds whole.lockWait
  have known : Backend.named.lookup c.backend.name = some c.backend := by cases c.backend <;> rfl
  have directory : record.GivesWithout gone ("data_dir", .text c.dataDirectory) _ :=
    Record.givesWithout_of rfl (reads_textAs "path string" c.dataDirectory).upTo
  have backend : record.GivesWithout gone ("backend", c.backend.toJson) _ :=
    Record.givesWithout_of rfl (reads_enum known).upTo
  have syncWrites : record.GivesWithout gone ("sync_writes", .bool c.syncWrites) _ :=
    Record.givesWithout_of rfl (reads_bool c.syncWrites).upTo
  have lockWait : record.GivesWithout gone ("lock_wait", .number c.lockWait.toSeconds) _ :=
    Record.givesWithout_of rfl reads
  have members : List.Forall₂ (record.GivesWithout gone) _ _ :=
    .cons directory (.cons backend (.cons syncWrites (.cons lockWait .nil)))
  refine Record.reads_without members (by decide) (.refl _)
    (by simp [record, Member.of, Presence.inObject]) ?_
  simp only [reset, Record.storeKept, same]
  generalize gone ["data_dir"] = a, gone ["backend"] = b, gone ["sync_writes"] = e,
    gone ["lock_wait"] = f
  cases a <;> cases b <;> cases e <;> cases f <;> rfl

theorem SignerConfig.reads_without {c : SignerConfig} (whole : c.InUnits) (gone : Places) :
    Reads record.read (c.toJson.without gone) (c.reset gone) := by
  have storage : record.GivesWithout gone ("storage", c.storage.toJson) _ :=
    Record.givesWithout_of rfl
      (StorageConfig.reads_without whole.storage (gone.below "storage")).upTo
  have guard : record.GivesWithout gone ("slashing", c.guard.toJson) _ :=
    Record.givesWithout_of rfl (GuardConfig.reads_without whole.guard (gone.below "slashing")).upTo
  have validators :
      record.GivesWithout gone ("validators", .array (c.validators.map Json.text)) _ :=
    Record.givesWithout_of rfl (Interchange.reads_map reads_text c.validators).upTo
  have members : List.Forall₂ (record.GivesWithout gone) _ _ :=
    .cons storage (.cons guard (.cons validators .nil))
  refine Record.reads_without members (by decide) (.refl _)
    (by simp [record, Member.of, Presence.inObject]) ?_
  simp only [reset, Record.storeKept]
  generalize gone ["storage"] = a, gone ["slashing"] = b, gone ["validators"] = e
  cases a <;> cases b <;> cases e <;> rfl

/-! ## Whole units everywhere -/

theorem PruningConfig.standard_inUnits : standard.InUnits := ⟨⟨86400, rfl⟩⟩

theorem GuardConfig.standard_inUnits : standard.InUnits :=
  ⟨⟨10000, rfl⟩, PruningConfig.standard_inUnits⟩

theorem SignerConfig.standard_inUnits : standard.InUnits :=
  ⟨⟨⟨30, rfl⟩⟩, GuardConfig.standard_inUnits⟩

/-- Every draft of the record is in units, so what is read is. -/
theorem PruningConfig.read_inUnits :
    Alike (fun c _ => InUnits c) record.read record.read := by
  refine Record.read_alike rfl (.cons ?_ (.cons ?_ (.cons ?_ (.cons ?_ (.cons ?_ .nil)))))
    standard_inUnits
  case refine_4 => exact Member.alike_same fun n _ _ _ => ⟨n, rfl⟩
  all_goals exact Member.alike_same fun _ _ _ whole => ⟨whole.interval⟩

theorem GuardConfig.read_inUnits : Alike (fun c _ => InUnits c) record.read record.read := by
  refine Record.read_alike rfl (.cons ?_ (.cons ?_ (.cons ?_ (.cons ?_ .nil)))) standard_inUnits
  case refine_2 => exact Member.alike_same fun n _ _ whole => ⟨⟨n, rfl⟩, whole.pruning⟩
  case refine_3 =>
    exact Member.alike_of PruningConfig.read_inUnits fun _ _ _ _ pruning whole =>
      ⟨whole.lockTimeout, pruning⟩
  all_goals exact Member.alike_same fun _ _ _ whole => ⟨whole.lockTimeout, whole.pruning⟩

theorem StorageConfig.read_inUnits : Alike (fun c _ => InUnits c) record.read record.read := by
  refine Record.read_alike rfl (.cons ?_ (.cons ?_ (.cons ?_ (.cons ?_ .nil))))
    SignerConfig.standard_inUnits.storage
  case refine_4 => exact Member.alike_same fun n _ _ _ => ⟨n, rfl⟩
  all_goals exact Member.alike_same fun _ _ _ whole => ⟨whole.lockWait⟩

theorem SignerConfig.read_inUnits : Alike (fun c _ => InUnits c) record.read record.read := by
  refine Record.read_alike rfl (.cons ?_ (.cons ?_ (.cons ?_ .nil))) standard_inUnits
  · exact Member.alike_of StorageConfig.read_inUnits fun _ _ _ _ storage whole =>
      ⟨storage, whole.guard⟩
  · exact Member.alike_of GuardConfig.read_inUnits fun _ _ _ _ guard whole =>
      ⟨whole.storage, guard⟩
  · exact Member.alike_same fun _ _ _ whole => ⟨whole.storage, whole.guard⟩

theorem GuardConfig.ofText_inUnits {text : String} {c : GuardConfig} (h : ofText text = .ok c) :
    c.InUnits :=
  read_inUnits.holds h

namespace SignerConfig

theorem ofText_inUnits {path text : String} {c : SignerConfig} (h : ofText path text = .ok c) :
    c.InUnits := by
  unfold ofText at h
  cases read : readWhole record.read text with
  | error e =>
    rw [read] at h
    contradiction
  | ok d =>
    rw [read] at h
    obtain rfl := Except.ok.inj h
    exact read_inUnits.holds read

/-- However the disk answers, a configuration that is loaded is in units. -/
theorem load_inUnits {σ : Type} {serve : Disk.Server σ} {s : σ} {file : Option String}
    {c : SignerConfig} (h : (Program.run serve (load file) s).1 = .ok c) : c.InUnits := by
  cases file with
  | none =>
    obtain rfl := Except.ok.inj h
    exact standard_inUnits
  | some path =>
    rw [load, Program.bind_eq, Program.run_bind] at h
    cases reply : (Program.run serve (Disk.readText path).run s).1 with
    | error e =>
      rw [reply] at h
      contradiction
    | ok text =>
      rw [reply] at h
      exact ofText_inUnits h

theorem over_inUnits (v : Variable → Option String) {c : SignerConfig} (whole : c.InUnits) :
    ((Layer.ofVariables v).over c).InUnits := by
  -- A length of time comes from a word in its variable, or it stays.
  have seconds {d : Duration} (whole : d.InSeconds) (said : Option UInt64) :
      ((said.map fun n => Duration.ofSeconds n.toNat).getD d).InSeconds := by
    cases said with
    | none => exact whole
    | some n => exact ⟨n, rfl⟩
  have millis {d : Duration} (whole : d.InMillis) (said : Option UInt64) :
      ((said.map fun n => Duration.ofMillis n.toNat).getD d).InMillis := by
    cases said with
    | none => exact whole
    | some n => exact ⟨n, rfl⟩
  exact ⟨⟨seconds whole.storage.lockWait _⟩,
    ⟨millis whole.guard.lockTimeout _, ⟨seconds whole.guard.pruning.interval _⟩⟩⟩

/-- The environment leaves a configuration in units, also when one of its variables cannot be
    read. -/
theorem withEnvironment_inUnits (environment : Environment) {c : SignerConfig} (whole : c.InUnits) :
    (c.withEnvironment environment).1.InUnits := by
  rcases readable_or_refused environment with readable | ⟨_, _, _, first⟩
  · rw [withEnvironment_readable readable]
    exact over_inUnits _ whole
  · rw [withEnvironment_refused first]
    exact over_inUnits _ whole

end SignerConfig

/-! ## Round trips -/

/-- How configurations are read from what is written of them. -/
structure RoundTrips : Prop where
  /-- Both forms of a value are spellings of it. -/
  forms : ∀ value : Json,
    Spells (compact value).toList value ∧ Spells (pretty value).toList value
  /-- A configuration is read from each spelling of what is written of it. -/
  signer : ∀ c : SignerConfig, c.InUnits → ∀ path text,
    Spells text.toList c.toJson → SignerConfig.ofText path text = .ok c
  guard : ∀ c : GuardConfig, c.InUnits → ∀ text,
    Spells text.toList c.toJson → GuardConfig.ofText text = .ok c
  /-- Without some of its members, on whatever level, it is read with the defaults for them and for
      nothing else. -/
  signerWithout : ∀ c : SignerConfig, c.InUnits → ∀ gone path text,
    Spells text.toList (c.toJson.without gone) → SignerConfig.ofText path text = .ok (c.reset gone)
  guardWithout : ∀ c : GuardConfig, c.InUnits → ∀ gone text,
    Spells text.toList (c.toJson.without gone) → GuardConfig.ofText text = .ok (c.reset gone)
  /-- What is loaded is in units, and the environment leaves it so. -/
  loaded : ∀ {σ : Type} (serve : Disk.Server σ) (s : σ) (file) (c : SignerConfig),
    (Program.run serve (SignerConfig.load file) s).1 = .ok c → c.InUnits
  overridden : ∀ (c : SignerConfig) (environment), c.InUnits →
    (c.withEnvironment environment).1.InUnits
  guardLoaded : ∀ (text) (c : GuardConfig), GuardConfig.ofText text = .ok c → c.InUnits

theorem SignerConfig.ofText_without {c : SignerConfig} (whole : c.InUnits) {gone : Places}
    {text : String} (spells : Spells text.toList (c.toJson.without gone)) (path : String) :
    ofText path text = .ok (c.reset gone) := by
  rw [ofText, readWhole_of_spells (reads_without whole gone) spells]
  rfl

theorem GuardConfig.ofText_without {c : GuardConfig} (whole : c.InUnits) {gone : Places}
    {text : String} (spells : Spells text.toList (c.toJson.without gone)) :
    ofText text = .ok (c.reset gone) :=
  readWhole_of_spells (reads_without whole gone) spells

theorem configurations_round_trip : RoundTrips where
  forms value := ⟨spells_toList_compact value, spells_toList_pretty value⟩
  signer c whole path text spells := by
    rw [← without_nothing c.toJson] at spells
    exact SignerConfig.ofText_without whole spells path
  guard c whole text spells := by
    rw [← without_nothing c.toJson] at spells
    exact GuardConfig.ofText_without whole spells
  signerWithout _ whole _ path _ spells := SignerConfig.ofText_without whole spells path
  guardWithout _ whole _ _ spells := GuardConfig.ofText_without whole spells
  loaded _ _ _ _ := SignerConfig.load_inUnits
  overridden _ environment := SignerConfig.withEnvironment_inUnits environment
  guardLoaded _ _ := GuardConfig.ofText_inUnits

/-- A configuration with settings in both units, away from the defaults. -/
def tuned : SignerConfig where
  storage := ⟨"dä\"ta", .rocksDb, false, .ofSeconds 45⟩
  guard := ⟨true, .ofMillis 250, ⟨true, 64, 8, .ofSeconds 7, true⟩, ⟨[0xab, 0x01]⟩⟩
  validators := ["0x", "\n"]

/-- Without its lock wait and its pruning interval it is read with the defaults for these, from a
    text of one line and from one of many. -/
theorem configurations_round_trip_tuned :
    let gone : Places := fun path =>
      path == ["storage", "lock_wait"] || path == ["slashing", "pruning", "interval"]
    let left : SignerConfig := { tuned with
      storage := { tuned.storage with lockWait := .ofSeconds 30 }
      guard := { tuned.guard with
        pruning := { tuned.guard.pruning with interval := .ofSeconds 86400 } } }
    SignerConfig.ofText "signer.json" (compact tuned.toJson) = .ok tuned ∧
    SignerConfig.ofText "signer.json" (compact (tuned.toJson.without gone)) = .ok left ∧
    SignerConfig.ofText "signer.json" (pretty (tuned.toJson.without gone)) = .ok left := by
  intro gone left
  have whole : tuned.InUnits := ⟨⟨⟨45, rfl⟩⟩, ⟨⟨250, rfl⟩, ⟨⟨7, rfl⟩⟩⟩⟩
  have forms := configurations_round_trip.forms
  have reset : tuned.reset gone = left := by decide +kernel
  have read := configurations_round_trip.signerWithout tuned whole gone "signer.json"
  rw [reset] at read
  exact ⟨configurations_round_trip.signer tuned whole _ _ (forms _).1, read _ (forms _).1,
    read _ (forms _).2⟩

end SlashingGuard
