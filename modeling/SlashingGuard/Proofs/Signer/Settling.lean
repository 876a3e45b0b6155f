import SlashingGuard.Proofs.Signer.Layer
import SlashingGuard.Proofs.Signer.Launch
import SlashingGuard.Proofs.Text.Trimming
import SlashingGuard.Signer.CommandLine

/-! # Settling the configuration

    The variables of the environment make a layer too, each speaking of one
    setting.  They are applied one after the other, in an order of their own;
    where a value cannot be read, what was said before it stays and the rest
    is not looked at.  The options of the command line are the last layer. -/

namespace SlashingGuard

open Disk (Server)

/-! ## Variables -/

/-- The variables of the environment, by the settings that they speak of. -/
inductive Variable where
  | dataDirectory
  | backend
  | syncWrites
  | lockWait
  | guardEnabled
  | lockTimeout
  | genesisRoot
  | pruningEnabled
  | epochsToKeep
  | slotsPerEpoch
  | interval
  | atBoot
  | validators
  deriving DecidableEq, Repr

namespace Variable

def name : Variable → String
  | .dataDirectory => "QS_DATA_DIR"
  | .backend => "QS_STORAGE_BACKEND"
  | .syncWrites => "QS_SYNC_WRITES"
  | .lockWait => "QS_LOCK_WAIT_SECS"
  | .guardEnabled => "QS_SLASHING_ENABLED"
  | .lockTimeout => "QS_LOCK_TIMEOUT_MS"
  | .genesisRoot => "QS_GENESIS_VALIDATORS_ROOT"
  | .pruningEnabled => "QS_PRUNING_ENABLED"
  | .epochsToKeep => "QS_PRUNING_EPOCHS_TO_KEEP"
  | .slotsPerEpoch => "QS_PRUNING_SLOTS_PER_EPOCH"
  | .interval => "QS_PRUNING_INTERVAL_SECS"
  | .atBoot => "QS_PRUNING_AT_BOOT"
  | .validators => "QS_VALIDATORS"

/-- All variables, in the order in which they are read. -/
def all : List Variable := [
  .dataDirectory, .backend, .syncWrites, .lockWait, .guardEnabled, .lockTimeout, .genesisRoot,
  .pruningEnabled, .epochsToKeep, .slotsPerEpoch, .interval, .atBoot, .validators]

theorem mem_all (x : Variable) : x ∈ all := by cases x <;> decide

theorem all_nodup : all.Nodup := by decide

/-- Whether a text is a value of a variable.  A directory and a list of keys are any texts. -/
def accepts : Variable → String → Bool
  | .dataDirectory, _ | .validators, _ => true
  | .backend, text => (Backend.read (Text.trim text)).toOption.isSome
  | .genesisRoot, text => (SigningRoot.read (Text.trim text)).toOption.isSome
  | .syncWrites, text | .guardEnabled, text | .pruningEnabled, text | .atBoot, text =>
    (SignerConfig.readBool? (Text.trim text)).isSome
  | .lockWait, text | .lockTimeout, text | .epochsToKeep, text | .slotsPerEpoch, text
  | .interval, text => (SignerConfig.readWord? (Text.trim text)).isSome

/-- A variable is not set, or to a value of it. -/
def Readable (environment : SignerConfig.Environment) (x : Variable) : Prop :=
  ∀ text ∈ environment x.name, x.accepts text

instance (environment : SignerConfig.Environment) (x : Variable) :
    Decidable (x.Readable environment) :=
  match h : environment x.name with
  | none => .isTrue fun _ set => by rw [h] at set; cases set
  | some text =>
    decidable_of_iff (x.accepts text = true) <| by
      simp only [Readable, h, Option.mem_some_iff, forall_eq']

end Variable

/-- The variable `x` is the first that cannot be read: its value is `text`, and those before it are
    `before`. -/
structure Variable.FirstRefused (environment : SignerConfig.Environment) (before : List Variable)
    (x : Variable) (text : String) : Prop where
  order : ∃ after, all = before ++ x :: after
  readable : ∀ y ∈ before, y.Readable environment
  set : environment x.name = some text
  refused : x.accepts text = false

/-- What values of variables say.  The directory is taken as it is, the keys are the parts between
    commas, and any other value is read without the blanks around it. -/
def Layer.ofVariables (value : Variable → Option String) : Layer where
  storage := {
    dataDirectory := value .dataDirectory
    backend := parsed (fun text => (Backend.read text).toOption) .backend
    syncWrites := parsed SignerConfig.readBool? .syncWrites
    lockWait := (parsed SignerConfig.readWord? .lockWait).map fun n => .ofSeconds n.toNat }
  guard := {
    enabled := parsed SignerConfig.readBool? .guardEnabled
    lockTimeout := (parsed SignerConfig.readWord? .lockTimeout).map fun n => .ofMillis n.toNat
    pruning := {
      enabled := parsed SignerConfig.readBool? .pruningEnabled
      epochsToKeep := parsed SignerConfig.readWord? .epochsToKeep
      slotsPerEpoch := parsed SignerConfig.readWord? .slotsPerEpoch
      interval := (parsed SignerConfig.readWord? .interval).map fun n => .ofSeconds n.toNat
      atBoot := parsed SignerConfig.readBool? .atBoot }
    genesisRoot := parsed (fun text => (SigningRoot.read text).toOption) .genesisRoot }
  validators := (value .validators).map SignerConfig.keyList
where
  /-- The value of a variable that is read by `read`. -/
  parsed {α : Type} (read : String → Option α) (x : Variable) : Option α :=
    (value x).bind fun text => read (Text.trim text)

namespace Variable

/-- The values that an environment has for some variables. -/
def valuesIn (environment : SignerConfig.Environment) (xs : List Variable) (x : Variable) :
    Option String :=
  if x ∈ xs then environment x.name else none

/-- One variable alone is set. -/
def only (x : Variable) (text : String) (y : Variable) : Option String :=
  if y = x then some text else none

/-- A variable as a setting: it lays its value over the configuration. -/
def setting (x : Variable) : SignerConfig.Setting where
  name := x.name
  apply text c := if x.accepts text then some ((Layer.ofVariables (only x text)).over c) else none

/-- A setting whose value is stored in one place is a variable that says something there. -/
theorem setting_of {α : Type} {x : Variable} {name : String} {read : String → Option α}
    {store : α → SignerConfig → SignerConfig} (called : x.name = name)
    (accepts : ∀ text, x.accepts text = (read (Text.trim text)).isSome)
    (stores : ∀ text a c, read (Text.trim text) = some a →
      store a c = (Layer.ofVariables (only x text)).over c) :
    SignerConfig.Setting.of name read store = x.setting := by
  subst called
  unfold SignerConfig.Setting.of setting
  congr 1
  funext text c
  rw [accepts]
  cases known : read (Text.trim text) with
  | none => rfl
  | some a => exact congrArg some (stores text a c known)

theorem settings_eq : SignerConfig.settings = all.map setting := by
  simp only [SignerConfig.settings, all, List.map_cons, List.map_nil, List.cons.injEq, and_true]
  refine ⟨?_, ?_, ?_, ?_, ?_, ?_, ?_, ?_, ?_, ?_, ?_, ?_, ?_⟩
  -- The directory and the keys are any texts; the others have to be read first.
  case refine_1 => rfl
  case refine_13 => rfl
  all_goals
    refine setting_of rfl (fun text => rfl) fun text a c known => ?_
    simp only [Layer.ofVariables, Layer.ofVariables.parsed, only, reduceCtorEq, if_true, if_false,
      Option.bind_some, Option.bind_none, Option.map_some, Option.map_none, known]
    rfl

end Variable

/-! ## Layers over layers -/

namespace Layer

/-- The variables that are set in `v` are those of `v₁` and those of `v₂`, and the same is set in
    none of both. -/
def Parts (v v₁ v₂ : Variable → Option String) : Prop :=
  ∀ x, v₁ x = none ∧ v x = v₂ x ∨ v₂ x = none ∧ v x = v₁ x

variable {v v₁ v₂ : Variable → Option String}

/-- What is said of one setting in two parts is said by the upper part, or else by the lower. -/
theorem Parts.getD {α : Type} (parts : Parts v v₁ v₂) (said : Option String → Option α)
    (nothing : said none = none) (x : Variable) (d : α) :
    (said (v x)).getD d = (said (v₂ x)).getD ((said (v₁ x)).getD d) := by
  rcases parts x with ⟨none₁, same⟩ | ⟨none₂, same⟩
  · rw [none₁, same, nothing, Option.getD_none]
  · rw [none₂, same, nothing, Option.getD_none]

/-- Variables in two parts lie over a configuration as the parts do, one over the other. -/
theorem Parts.over (parts : Parts v v₁ v₂) (c : SignerConfig) :
    (ofVariables v).over c = (ofVariables v₂).over ((ofVariables v₁).over c) := by
  have read {α : Type} (read : String → Option α) (x : Variable) (d : α) :
      (ofVariables.parsed v read x).getD d =
        (ofVariables.parsed v₂ read x).getD ((ofVariables.parsed v₁ read x).getD d) :=
    parts.getD (fun value => value.bind fun text => read (Text.trim text)) rfl x d
  have made {α : Type} (make : UInt64 → α) (x : Variable) (d : α) :
      ((ofVariables.parsed v SignerConfig.readWord? x).map make).getD d =
        ((ofVariables.parsed v₂ SignerConfig.readWord? x).map make).getD
          (((ofVariables.parsed v₁ SignerConfig.readWord? x).map make).getD d) :=
    parts.getD (fun value =>
      (value.bind fun text => SignerConfig.readWord? (Text.trim text)).map make) rfl x d
  simp only [Layer.over, StorageLayer.over, GuardLayer.over, PruningLayer.over, ofVariables]
  -- Setting by setting, since each is said by one variable and that is in one part.
  congr 1
  · congr 1
    · exact parts.getD id rfl _ _
    · exact read _ _ _
    · exact read _ _ _
    · exact made _ _ _
  · congr 1
    · exact read _ _ _
    · exact made _ _ _
    · congr 1
      · exact read _ _ _
      · exact read _ _ _
      · exact read _ _ _
      · exact made _ _ _
      · exact read _ _ _
    · exact read _ _ _
  · exact parts.getD (Option.map SignerConfig.keyList) rfl _ _

/-- A layer that lies over a configuration already changes nothing there. -/
theorem over_again (l : Layer) (c : SignerConfig) : l.over (l.over c) = l.over c := by
  have again {α : Type} (said : Option α) (d : α) : said.getD (said.getD d) = said.getD d := by
    cases said <;> rfl
  simp only [Layer.over, StorageLayer.over, GuardLayer.over, PruningLayer.over, again]

end Layer

/-! ## The environment -/

namespace SignerConfig

open Variable

variable {environment : Environment} {x : Variable} {xs : List Variable}

theorem valuesIn_of_unset (unset : environment x.name = none) :
    valuesIn environment [x] = fun _ => none := by
  funext y
  by_cases this : y = x
  · simp [valuesIn, this, unset]
  · simp [valuesIn, this]

theorem valuesIn_of_set {text : String} (set : environment x.name = some text) :
    valuesIn environment [x] = only x text := by
  funext y
  by_cases this : y = x
  · simp [valuesIn, only, this, set]
  · simp [valuesIn, only, this]

/-- One variable lies over a configuration if it is set. -/
theorem applySettings_cons (readable : x.Readable environment) (rest : List Setting)
    (c : SignerConfig) : applySettings environment (x.setting :: rest) c =
      applySettings environment rest ((Layer.ofVariables (valuesIn environment [x])).over c) := by
  have found : environment x.setting.name = environment x.name := rfl
  rw [applySettings, found]
  cases set : environment x.name with
  | none =>
    rw [valuesIn_of_unset set]
    rfl
  | some text =>
    have applied : x.setting.apply text c = some ((Layer.ofVariables (only x text)).over c) :=
      if_pos (readable text set)
    rw [valuesIn_of_set set]
    dsimp only
    rw [applied]

/-- So do several, all at once. -/
theorem applySettings_append (distinct : xs.Nodup) (readable : ∀ x ∈ xs, x.Readable environment)
    (rest : List Setting) (c : SignerConfig) :
    applySettings environment (xs.map setting ++ rest) c =
      applySettings environment rest ((Layer.ofVariables (valuesIn environment xs)).over c) := by
  induction xs generalizing c with
  | nil => rfl
  | cons x xs ih =>
    obtain ⟨fresh, distinct⟩ := List.nodup_cons.1 distinct
    have parts : Layer.Parts (valuesIn environment (x :: xs)) (valuesIn environment [x])
        (valuesIn environment xs) := by
      intro y
      by_cases this : y = x
      · subst this
        exact .inr ⟨if_neg fresh, by simp [valuesIn]⟩
      · exact .inl ⟨by simp [valuesIn, this], by simp [valuesIn, this]⟩
    rw [List.map_cons, List.cons_append, applySettings_cons (readable x List.mem_cons_self),
      ih distinct (fun y among => readable y (List.mem_cons_of_mem x among)), parts.over]

theorem withEnvironment_readable (readable : ∀ x : Variable, x.Readable environment)
    (c : SignerConfig) :
    c.withEnvironment environment =
      ((Layer.ofVariables fun x => environment x.name).over c, none) := by
  have whole : valuesIn environment all = fun x => environment x.name := by
    funext x
    exact if_pos x.mem_all
  have applied := applySettings_append all_nodup (fun x _ => readable x) [] c
  rw [List.append_nil, ← settings_eq, whole] at applied
  exact applied

theorem withEnvironment_refused {before : List Variable} {text : String}
    (first : FirstRefused environment before x text) (c : SignerConfig) :
    c.withEnvironment environment =
      ((Layer.ofVariables (valuesIn environment before)).over c,
        some (.badVariable x.name text)) := by
  obtain ⟨after, order⟩ := first.order
  have distinct : before.Nodup := (List.nodup_append.1 (order ▸ all_nodup)).1
  -- Those before it are applied, and then it stops the rest.
  have applied := applySettings_append distinct first.readable (setting x :: after.map setting) c
  rw [← List.map_cons, ← List.map_append, ← order, ← settings_eq] at applied
  have found : environment x.setting.name = some text := first.set
  have stopped (d : SignerConfig) : x.setting.apply text d = none :=
    if_neg (by rw [first.refused]; exact Bool.false_ne_true)
  rw [withEnvironment, applied, List.map_cons, applySettings, found]
  dsimp only
  rw [stopped]
  rfl

/-- In every environment all variables can be read, or there is a first one that cannot. -/
theorem readable_or_refused (environment : Environment) :
    (∀ x : Variable, x.Readable environment) ∨
      ∃ before x text, FirstRefused environment before x text := by
  cases found : all.find? fun x => !decide (x.Readable environment) with
  | none =>
    refine .inl fun x => ?_
    simpa using List.find?_eq_none.1 found x x.mem_all
  | some x =>
    obtain ⟨unreadable, before, after, order, readable⟩ := List.find?_eq_some_iff_append.1 found
    have refused : ∃ text, environment x.name = some text ∧ x.accepts text = false := by
      simpa [Readable] using unreadable
    obtain ⟨text, set, refused⟩ := refused
    have readable : ∀ y ∈ before, y.Readable environment := fun y among => by
      simpa using readable y among
    exact .inr ⟨before, x, text, ⟨⟨after, order⟩, readable, set, refused⟩⟩

theorem withEnvironment_again (environment : Environment) (c : SignerConfig) :
    (c.withEnvironment environment).1.withEnvironment environment =
      c.withEnvironment environment := by
  rcases readable_or_refused environment with readable | ⟨_, _, _, first⟩
  · simp only [withEnvironment_readable readable, Layer.over_again]
  · simp only [withEnvironment_refused first, Layer.over_again]

/-- The pieces of a list of keys that is written with commas between them. -/
theorem keyList_intercalate {pieces : List String} (plain : ∀ piece ∈ pieces, ',' ∉ piece.toList) :
    keyList (",".intercalate pieces) = (pieces.map Text.trim).filter (· ≠ "") := by
  cases pieces with
  | nil =>
    rw [show ",".intercalate ([] : List String) = "" from rfl, keyList, Text.splitOn_comma]
    decide
  | cons piece rest => rw [keyList, Text.splitOn_intercalate plain (List.cons_ne_nil _ _)]

end SignerConfig

/-! ## All layers -/

/-- What the options of the command line say. -/
def Layer.ofOptions (r : CommandLine.Request) : Layer where
  storage := { dataDirectory := r.dataDirectory, backend := r.backend }

namespace CommandLine

theorem withOptions_eq (r : Request) (c : SignerConfig) :
    withOptions r c = (Layer.ofOptions r).over c := rfl

/-- The configuration is settled from what the file says and from nothing else on the disk. -/
theorem run_settle {σ : Type} (serve : Server σ) (r : Request)
    (environment : SignerConfig.Environment) (s : σ) :
    Program.run serve (settle r environment).run s =
      (match (Program.run serve (Layer.load r.config) s).1 with
        | .error e => .error e.failure
        | .ok file =>
          match (file.over .standard).withEnvironment environment with
          | (_, some e) => .error e.failure
          | (c, none) => .ok (withOptions r c),
        (Program.run serve (Layer.load r.config) s).2) := by
  unfold settle Signer.Opening.of
  rw [Layer.load_eq, ExceptT.run_bind, ExceptT.run_mk, Functor.map_map, map_eq_pure_bind,
    bind_assoc]
  simp only [pure_bind]
  rw [Program.bind_eq, Program.run_bind]
  generalize Program.run serve (Layer.load r.config) s = out
  obtain ⟨file | file, s'⟩ := out
  · rfl
  · dsimp only [Except.map, Except.mapError]
    generalize (file.over .standard).withEnvironment environment = applied
    obtain ⟨c, _ | e⟩ := applied <;> rfl

/-- How the sources of settings lie over each other: the defaults, a file, the environment and the
    options of the command line. -/
structure Layered : Prop where
  /-- A file lies over the defaults. -/
  file : ∀ path text,
    SignerConfig.ofText path text = (Layer.ofText path text).map fun l => l.over .standard
  /-- Variables whose values can all be read lie over the configuration. -/
  applied : ∀ environment, (∀ x : Variable, x.Readable environment) → ∀ c : SignerConfig,
    c.withEnvironment environment = ((Layer.ofVariables fun x => environment x.name).over c, none)
  /-- Otherwise those before the first that cannot be read do, and the error names that one. -/
  refused : ∀ environment, (¬ ∀ x : Variable, x.Readable environment) →
    ∃ before x text, Variable.FirstRefused environment before x text ∧
      ∀ c : SignerConfig, c.withEnvironment environment =
        ((Layer.ofVariables (Variable.valuesIn environment before)).over c,
          some (.badVariable x.name text))
  /-- Applying an environment again changes nothing. -/
  again : ∀ environment (c : SignerConfig),
    (c.withEnvironment environment).1.withEnvironment environment = c.withEnvironment environment
  /-- Values are read without the blanks around them. -/
  trimmed : ∀ (before after : List Char) (value : String),
    (∀ c ∈ before, Text.isBlank c) → (∀ c ∈ after, Text.isBlank c) →
    (∀ c ∈ value.toList.head?, ¬ Text.isBlank c) → (∀ c ∈ value.toList.getLast?, ¬ Text.isBlank c) →
    Text.trim (String.ofList (before ++ (value.toList ++ after))) = value
  /-- The keys are the trimmed pieces between commas that are not empty, in their order. -/
  keys : ∀ pieces : List String, (∀ piece ∈ pieces, ',' ∉ piece.toList) →
    SignerConfig.keyList (",".intercalate pieces) = (pieces.map Text.trim).filter (· ≠ "")
  /-- The directory and the kind of store are those of the options if they name them, else those of
      the environment, else those of the file, else the defaults. -/
  settled : ∀ {σ : Type} (serve : Server σ) (s s' : σ) (r : Request) (environment) (file : Layer),
    Program.run serve (Layer.load r.config) s = (.ok file, s') →
    (∀ x : Variable, x.Readable environment) →
    ∃ c : SignerConfig, Program.run serve (settle r environment).run s = (.ok c, s') ∧
      c = (Layer.ofOptions r).over
        ((Layer.ofVariables fun x => environment x.name).over (file.over .standard)) ∧
      c.storage.dataDirectory =
        (r.dataDirectory <|> environment "QS_DATA_DIR" <|> file.storage.dataDirectory).getD
          "./data" ∧
      c.storage.backend =
        (r.backend <|> ((environment "QS_STORAGE_BACKEND").bind fun text =>
          (Backend.read (Text.trim text)).toOption) <|> file.storage.backend).getD .file
  /-- A variable that cannot be read is told, whatever the options say. -/
  unsettled : ∀ {σ : Type} (serve : Server σ) (s s' : σ) (r : Request) (environment) (file : Layer),
    Program.run serve (Layer.load r.config) s = (.ok file, s') →
    (¬ ∀ x : Variable, x.Readable environment) →
    ∃ before x text, Variable.FirstRefused environment before x text ∧
      Program.run serve (settle r environment).run s =
        (.error (ConfigError.badVariable x.name text).failure, s')
  /-- So is a file that cannot be read, whatever the other layers say. -/
  unread : ∀ {σ : Type} (serve : Server σ) (s s' : σ) (r : Request) (environment) (e : ConfigError),
    Program.run serve (Layer.load r.config) s = (.error e, s') →
    Program.run serve (settle r environment).run s = (.error e.failure, s')

theorem layered : Layered where
  file := Layer.ofText_eq
  applied _ := SignerConfig.withEnvironment_readable
  refused environment unreadable := by
    obtain ⟨before, x, text, first⟩ :=
      (SignerConfig.readable_or_refused environment).resolve_left unreadable
    exact ⟨before, x, text, first, SignerConfig.withEnvironment_refused first⟩
  again := SignerConfig.withEnvironment_again
  trimmed _ _ _ := Text.trim_between
  keys _ := SignerConfig.keyList_intercalate
  settled serve s s' r environment file loaded readable := by
    have first_said {α : Type} (upper middle lower : Option α) (d : α) :
        upper.getD (middle.getD (lower.getD d)) = (upper <|> middle <|> lower).getD d := by
      cases upper <;> cases middle <;> rfl
    refine ⟨_, ?_, rfl, ?_, ?_⟩
    · rw [run_settle, loaded]
      dsimp only
      rw [SignerConfig.withEnvironment_readable readable]
      exact congrArg (fun c => (Except.ok c, s')) (withOptions_eq r _)
    · exact first_said _ _ _ _
    · exact first_said _ _ _ _
  unsettled serve s s' r environment file loaded unreadable := by
    obtain ⟨before, x, text, first⟩ :=
      (SignerConfig.readable_or_refused environment).resolve_left unreadable
    refine ⟨before, x, text, first, ?_⟩
    rw [run_settle, loaded]
    dsimp only
    rw [SignerConfig.withEnvironment_refused first]
  unread serve s s' r environment e failed := by
    rw [run_settle, failed]

/-- A working directory with a configuration file. -/
def configured : Disk.Tree :=
  let text := "\x7b\"storage\": \x7b\"backend\": \"memory\", \"data_dir\": \"disk\"\x7d, " ++
    "\"slashing\": \x7b\"pruning\": \x7b\"epochs_to_keep\": 64\x7d\x7d\x7d"
  { Disk.Tree.empty ["w"] 7 0 with nodes :=
      [(["w"], .directory), (["w", "signer.json"], .file (Bytes.ofText text))] }

/-- An environment with three variables, one of them for the lock timeout. -/
def threeSet (timeout : String) : SignerConfig.Environment := fun name =>
  ([("QS_DATA_DIR", "there "), ("QS_LOCK_TIMEOUT_MS", timeout),
    ("QS_PRUNING_EPOCHS_TO_KEEP", " 128\n")]).lookup name

/-- The configuration is settled from four layers; with a timeout that is no number it is not, and
    the setting behind it keeps the value that the file gives it. -/
theorem layered_threeSet :
    let r : Request := ⟨some "signer.json", none, some .file, .run⟩
    (∃ c, Program.run Disk.Tree.serve (settle r (threeSet "5")).run configured = (.ok c, configured) ∧
      c.storage = ⟨"there ", .file, true, .ofSeconds 30⟩ ∧
      c.guard.pruning.epochsToKeep = 128) ∧
    Program.run Disk.Tree.serve (settle r (threeSet "soon")).run configured =
      (.error (ConfigError.badVariable "QS_LOCK_TIMEOUT_MS" "soon").failure, configured) := by
  intro r
  let file : Layer := {
    storage := { backend := some .memory, dataDirectory := some "disk" }
    guard := { pruning := { epochsToKeep := some 64 } } }
  have loaded : Program.run Disk.Tree.serve (Layer.load r.config) configured =
      (.ok file, configured) := by
    have known :
        (Program.run Disk.Tree.serve (Layer.load r.config) configured).1.toOption = some file ∧
          (Program.run Disk.Tree.serve (Layer.load r.config) configured).2 = configured := by
      decide +kernel
    rcases run : Program.run Disk.Tree.serve (Layer.load r.config) configured with ⟨e | l, t⟩
    · rw [run] at known
      exact absurd known.1 nofun
    · rw [run] at known ⊢
      exact Prod.ext (congrArg Except.ok (Option.some.inj known.1)) known.2
  have readable : ∀ x : Variable, x.Readable (threeSet "5") := fun x =>
    (show ∀ x ∈ Variable.all, x.Readable (threeSet "5") by decide +kernel) x x.mem_all
  have unreadable : ¬ ∀ x : Variable, x.Readable (threeSet "soon") := fun all =>
    absurd (all .lockTimeout "soon" rfl) (by decide)
  refine ⟨?_, ?_⟩
  · obtain ⟨c, settled, rfl, -⟩ :=
      layered.settled Disk.Tree.serve configured configured r (threeSet "5") file loaded readable
    refine ⟨_, settled, ?_, ?_⟩
    · decide +kernel
    · decide +kernel
  · obtain ⟨before, x, text, first, settled⟩ :=
      layered.unsettled Disk.Tree.serve configured configured r (threeSet "soon") file loaded
        unreadable
    have alone : ∀ x ∈ Variable.all, ∀ text ∈ threeSet "soon" x.name, x.accepts text = false →
        x = .lockTimeout ∧ text = "soon" := by decide +kernel
    obtain ⟨rfl, rfl⟩ := alone x x.mem_all text first.set first.refused
    exact settled

end CommandLine

end SlashingGuard
