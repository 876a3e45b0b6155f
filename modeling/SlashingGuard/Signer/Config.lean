import SlashingGuard.Disk.Call
import SlashingGuard.Guard.Config
import SlashingGuard.Guard.Error
import SlashingGuard.Signer.Failure
import SlashingGuard.Text.Blank
import SlashingGuard.Text.Quoted

/-! # Configuration of a signer

    Where the ledger lies, how the guard over it is set, and which validators
    it serves.  Settings come in layers, each over the one before it: the
    defaults, a JSON file, variables of the environment, options of the
    command line. -/

namespace SlashingGuard

/-! ## Settings -/

/-- The kinds of store. -/
inductive Backend where
  | memory
  | file
  | rocksDb
  deriving DecidableEq, Repr

namespace Backend

def name : Backend → String
  | .memory => "memory"
  | .file => "file"
  | .rocksDb => "rocksdb"

/-- The name in mixed case. -/
def title : Backend → String
  | .memory => "Memory"
  | .file => "File"
  | .rocksDb => "RocksDb"

def all : List Backend := [.memory, .file, .rocksDb]

/-- The kinds of store under their names. -/
def named : List (String × Backend) := all.map fun b => (b.name, b)

def toJson (b : Backend) : Json := .text b.name

def fromJson : Json.Reader Backend := Json.readEnum named

/-- A word that names no kind of store, in lower case. -/
structure Unknown where
  word : String
  deriving DecidableEq, Repr

def Unknown.message (e : Unknown) : String := "unknown storage backend " ++ Text.quote e.word

/-- The kind of store that a word names, in letters of either case. -/
def read (word : String) : Except Unknown Backend :=
  let lower := String.ofList (word.toList.map Char.toLower)
  match named.lookup lower with
  | some b => .ok b
  | none => .error ⟨lower⟩

end Backend

/-- Where the ledger lies, and how the directory is opened. -/
structure StorageConfig where
  dataDirectory : String
  backend : Backend
  syncWrites : Bool
  /-- How long to wait for another process to give the data directory back. -/
  lockWait : Duration
  deriving DecidableEq, Repr

/-- The settings of a signer. -/
structure SignerConfig where
  storage : StorageConfig
  guard : GuardConfig
  /-- The public keys to register, as they were written. -/
  validators : List String
  deriving DecidableEq, Repr

namespace StorageConfig

def standard : StorageConfig := ⟨"./data", .file, true, .ofSeconds 30⟩

def toJson (c : StorageConfig) : Json :=
  .object [
    ("data_dir", .text c.dataDirectory),
    ("backend", c.backend.toJson),
    ("sync_writes", .bool c.syncWrites),
    ("lock_wait", .number c.lockWait.toSeconds)]

def record : Json.Record StorageConfig where
  name := "StorageConfig"
  members := [
    .of "data_dir" .nowhere (Json.readTextAs "path string") fun d c =>
      { c with dataDirectory := d },
    .of "backend" .nowhere Backend.fromJson fun b c => { c with backend := b },
    .of "sync_writes" .nowhere Json.readBool fun b c => { c with syncWrites := b },
    .of "lock_wait" .nowhere Json.readWordNumber fun n c =>
      { c with lockWait := .ofSeconds n.toNat }]
  draft := .standard

end StorageConfig

/-! ## Errors -/

/-- Why a written key is not the key of a validator. -/
inductive KeyTrouble where
  | notHex (reason : Hex.Invalid)
  | wrongLength (actual : Nat)
  deriving DecidableEq, Repr

def KeyTrouble.message : KeyTrouble → String
  | .notHex reason => reason.message
  | .wrongLength actual =>
    "expected " ++ Decimal.write PublicKey.blsLength ++ " bytes, got " ++ Decimal.write actual

inductive ConfigError where
  | unreadable (path : String) (reason : IoError)
  | malformed (path text : String) (reason : Json.Error)
  | badVariable (name value : String)
  | unsupportedBackend (backend : Backend)
  | badKey (key : String) (trouble : KeyTrouble)
  | guard (setting : SettingError)

namespace ConfigError

def message : ConfigError → String
  | .unreadable path reason => "Failed to read config file " ++ path ++ ": " ++ reason.message
  | .malformed path text reason =>
    "Failed to parse config file " ++ path ++ ": " ++ reason.message text
  | .badVariable name value => "Invalid value " ++ Text.quote value ++ " for " ++ name
  | .unsupportedBackend backend =>
    "Storage backend '" ++ backend.name ++ "' is not compiled into this binary"
  | .badKey key trouble =>
    "Invalid validator public key " ++ Text.quote key ++ ": " ++ trouble.message
  | .guard setting => (GuardError.configuration setting).message

/-- The error as a failure, with the causes that it names. -/
def failure : ConfigError → Failure
  | .unreadable path reason => .because (message (.unreadable path reason)) reason.message
  | .malformed path text reason => .because (message (.malformed path text reason)) (reason.message text)
  | e => .plain e.message

end ConfigError

namespace SignerConfig

def standard : SignerConfig := ⟨.standard, .standard, []⟩

def toJson (c : SignerConfig) : Json :=
  .object [
    ("storage", c.storage.toJson),
    ("slashing", c.guard.toJson),
    ("validators", .array (c.validators.map Json.text))]

def record : Json.Record SignerConfig where
  name := "SignerConfig"
  members := [
    .of "storage" .nowhere StorageConfig.record.read fun s c => { c with storage := s },
    .of "slashing" .nowhere GuardConfig.record.read fun g c => { c with guard := g },
    .of "validators" .nowhere (Json.readList Json.readText) fun vs c =>
      { c with validators := vs }]
  draft := .standard

/-! ## The file -/

/-- The configuration that the text of a file holds. -/
def ofText (path text : String) : Except ConfigError SignerConfig :=
  (Json.readWhole record.read text).mapError (ConfigError.malformed path text)

/-- The configuration in a file; without a file, the defaults. -/
def load : Option String → DiskProgram (Except ConfigError SignerConfig)
  | none => return .ok standard
  | some path => do
    match ← (Disk.readText path).run with
    | .ok text => return ofText path text
    | .error reason => return .error (.unreadable path reason)

/-! ## The environment -/

/-- A variable of the environment, and what its value changes, if it can be read. -/
structure Setting where
  name : String
  apply : String → SignerConfig → Option SignerConfig

/-- A variable whose trimmed value is read by `read`. -/
def Setting.of {α : Type} (name : String) (read : String → Option α)
    (store : α → SignerConfig → SignerConfig) : Setting :=
  ⟨name, fun value c => (read (Text.trim value)).map fun a => store a c⟩

/-- A variable that holds any text. -/
def Setting.ofText (name : String) (store : String → SignerConfig → SignerConfig) : Setting :=
  ⟨name, fun value c => some (store value c)⟩

def readBool? (text : String) : Option Bool :=
  if text = "true" then some true else if text = "false" then some false else none

def readWord? (text : String) : Option UInt64 := (Decimal.read text).toOption

/-- The trimmed parts between commas, except empty ones. -/
def keyList (text : String) : List String :=
  ((text.splitOn ",").map Text.trim).filter (· ≠ "")

/-- The variables, in the order in which they are read. -/
def settings : List Setting := [
  .ofText "QS_DATA_DIR" fun d c => { c with storage := { c.storage with dataDirectory := d } },
  .of "QS_STORAGE_BACKEND" (fun text => (Backend.read text).toOption) fun b c =>
    { c with storage := { c.storage with backend := b } },
  .of "QS_SYNC_WRITES" readBool? fun b c =>
    { c with storage := { c.storage with syncWrites := b } },
  .of "QS_LOCK_WAIT_SECS" readWord? fun n c =>
    { c with storage := { c.storage with lockWait := .ofSeconds n.toNat } },
  .of "QS_SLASHING_ENABLED" readBool? fun b c =>
    { c with guard := { c.guard with enabled := b } },
  .of "QS_LOCK_TIMEOUT_MS" readWord? fun n c =>
    { c with guard := { c.guard with lockTimeout := .ofMillis n.toNat } },
  .of "QS_GENESIS_VALIDATORS_ROOT" (fun text => (SigningRoot.read text).toOption) fun r c =>
    { c with guard := { c.guard with genesisRoot := r } },
  .of "QS_PRUNING_ENABLED" readBool? fun b => pruning fun p => { p with enabled := b },
  .of "QS_PRUNING_EPOCHS_TO_KEEP" readWord? fun n => pruning fun p => { p with epochsToKeep := n },
  .of "QS_PRUNING_SLOTS_PER_EPOCH" readWord? fun n =>
    pruning fun p => { p with slotsPerEpoch := n },
  .of "QS_PRUNING_INTERVAL_SECS" readWord? fun n =>
    pruning fun p => { p with interval := .ofSeconds n.toNat },
  .of "QS_PRUNING_AT_BOOT" readBool? fun b => pruning fun p => { p with atBoot := b },
  .ofText "QS_VALIDATORS" fun text c => { c with validators := keyList text }]
where
  /-- A change of the pruning settings. -/
  pruning (f : PruningConfig → PruningConfig) (c : SignerConfig) : SignerConfig :=
    { c with guard := { c.guard with pruning := f c.guard.pruning } }

/-- The values of variables of the environment. -/
abbrev Environment : Type := String → Option String

/-- Applies the variables that are set, up to the first whose value cannot be read. -/
def applySettings (environment : Environment) :
    List Setting → SignerConfig → SignerConfig × Option ConfigError
  | [], c => (c, none)
  | setting :: rest, c =>
    match environment setting.name with
    | none => applySettings environment rest c
    | some value =>
      match setting.apply value c with
      | some changed => applySettings environment rest changed
      | none => (c, some (.badVariable setting.name value))

/-- The configuration under the variables of an environment, and the first of them whose value
    cannot be read. -/
def withEnvironment (c : SignerConfig) (environment : Environment) :
    SignerConfig × Option ConfigError :=
  applySettings environment settings c

/-! ## Checks -/

/-- The key that a text writes. -/
def readKey (text : String) : Except ConfigError PublicKey :=
  match PublicKey.read text with
  | .error reason => .error (.badKey text (.notHex reason))
  | .ok key =>
    if key.isBls then .ok key else .error (.badKey text (.wrongLength key.bytes.length))

/-- The keys to register. -/
def publicKeys (c : SignerConfig) : Except ConfigError (List PublicKey) :=
  c.validators.mapM readKey

/-- The settings of the guard have to be usable, the kind of store has to be there, and the keys
    have to be keys. -/
def check (c : SignerConfig) : Except ConfigError Unit := do
  c.guard.check.mapError ConfigError.guard
  if c.storage.backend = .rocksDb then throw (.unsupportedBackend c.storage.backend)
  let _ ← c.publicKeys

end SignerConfig

end SlashingGuard
