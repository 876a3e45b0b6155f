import SlashingGuard.Proofs.Guard.Operation
import SlashingGuard.Proofs.Ledger.Mutation

/-! # Runs

    A run is any sequence of steps on one store: guards are started, a guard
    is asked for something while calls on the store fail at will, somebody
    takes a transaction of the ledger's own steps, or the store is closed and
    its file is opened again.  The steps of a run follow one another; what is
    asked is logged with its reply.

    Every world that a run leads to is sound: the ledger is well formed and
    remembers all registrations, every lock has been given back, and each
    guard knows keys by the numbers that the ledger has for them. -/

namespace SlashingGuard

/-! ## Steps -/

/-- Something that was asked of a guard, and the reply. -/
structure Event where
  operation : Operation
  reply : Except GuardError Reply
  deriving DecidableEq

/-- A step of a run. -/
inductive Step where
  /-- A guard is started. -/
  | start (config : GuardConfig)
  /-- A guard is asked; calls on the store fail as scheduled. -/
  | ask (index : Nat) (operation : Operation) (faults : Store.FaultSchedule)
  /-- Somebody takes a transaction of the ledger's own steps. -/
  | transact (mutations : List Mutation) (commit : Bool) (faults : Store.FaultSchedule)
  /-- The store is closed and opened again from its file.  Guards started before are kept: a run
      need not ask them again. -/
  | reopen
  deriving DecidableEq

abbrev Run : Type := List Step

/-- One store with the guards on it, the counters they share, and what they were asked. -/
structure World where
  table : Table Bytes
  guards : List Guard
  metrics : Metrics
  log : List Event

namespace World

/-- An empty store, and nobody on it. -/
def empty : World := ⟨Table.empty, [], .zero, []⟩

/-- Starts a guard, if its settings are usable. -/
def start (w : World) (config : GuardConfig) : World :=
  match Guard.create config with
  | .ok g => { w with guards := w.guards ++ [g] }
  | .error _ => w

/-- Asks a guard, if there is one with this index. -/
def ask (w : World) (index : Nat) (op : Operation) (faults : Store.FaultSchedule) : World :=
  match w.guards[index]? with
  | some g =>
    let ((reply, c), t) := (op.perform.run.run ⟨g, w.metrics⟩).runFaulty faults w.table
    { table := t, guards := w.guards.set index c.guard, metrics := c.metrics,
      log := w.log ++ [⟨op, reply⟩] }
  | none => w

/-- Takes a transaction of the ledger's own steps. -/
def transact (w : World) (mutations : List Mutation) (commit : Bool)
    (faults : Store.FaultSchedule) : World :=
  { w with table := ((Mutation.transact mutations commit).run.runFaulty faults w.table).2 }

/-- Opens the file that the store was closed to; a file that cannot be read is left alone. -/
def reopen (w : World) : World :=
  match LedgerFile.decode (LedgerFile.encode w.table) with
  | .ok t => { w with table := t }
  | .error _ => w

def step (w : World) : Step → World
  | .start config => w.start config
  | .ask index op faults => w.ask index op faults
  | .transact mutations commit faults => w.transact mutations commit faults
  | .reopen => w.reopen

/-- The world after a run that starts from an empty store. -/
def after (run : Run) : World := run.foldl step empty

/-- What holds of a world and is kept by some steps holds after them. -/
theorem steps_induction {P : World → Prop} {steps : Run} {w : World} (init : P w)
    (keep : ∀ w, ∀ s ∈ steps, P w → P (w.step s)) : P (steps.foldl step w) :=
  List.foldlRecOn steps step init fun w hw s hs => keep w s hs hw

/-- What holds at the start and is kept by the steps of a run holds after the run. -/
theorem after_induction {P : World → Prop} {run : Run} (init : P empty)
    (keep : ∀ w, ∀ s ∈ run, P w → P (w.step s)) : P (after run) :=
  steps_induction init keep

end World

/-! ## Runs that fit the file -/

/-- The byte strings that a step brings from outside and may put into the store. -/
def Step.payload : Step → List Bytes
  | .ask _ op _ => op.payload
  | .transact mutations _ _ => mutations.flatMap Mutation.payload
  | _ => []

namespace Run

/-- What a run may bring from outside: if the store is ever reopened, byte strings that are short
    enough for the file. -/
def Admits (run : Run) (bytes : Bytes) : Prop := Step.reopen ∈ run → Table.Storable bytes

/-- If the store is ever reopened, nothing comes from outside that its file cannot hold. -/
def Storable (run : Run) : Prop := ∀ s ∈ run, ∀ bytes ∈ s.payload, run.Admits bytes

theorem admits_bls (run : Run) {key : PublicKey} (bls : key.isBls) : run.Admits key.bytes := by
  intro _
  have length : key.bytes.length = PublicKey.blsLength := by simpa [PublicKey.isBls] using bls
  rw [Table.Storable, length]
  decide

end Run

/-! ## Sound worlds -/

namespace World

/-- What holds of every world that a run leads to. -/
structure Sound (run : Run) (w : World) : Prop where
  wellFormed : w.table.WellFormed
  linked : w.table.Linked
  fits : Step.reopen ∈ run → w.table.FitsFile
  idle : ∀ g ∈ w.guards, g.held = []
  agrees : ∀ g ∈ w.guards, ∀ key id, g.validatorId? key = some id →
    w.table.registry.idOf key = some id

variable {run : Run} {w : World}

/-- What asking a guard comes to. -/
theorem ask_eq {index : Nat} {g : Guard} (found : w.guards[index]? = some g) (op : Operation)
    (faults : Store.FaultSchedule) :
    ∃ reply c t, (op.perform.run.run ⟨g, w.metrics⟩).runFaulty faults w.table = ((reply, c), t) ∧
      w.ask index op faults =
        ⟨t, w.guards.set index c.guard, c.metrics, w.log ++ [⟨op, reply⟩]⟩ := by
  refine ⟨_, _, _, rfl, ?_⟩
  simp only [ask, found]
  rfl

/-- An operation that is asked of a guard has one of the outcomes, and is logged with its
    reply. -/
theorem ask_cases (wf : w.table.WellFormed) (index : Nat) (op : Operation)
    (faults : Store.FaultSchedule) :
    w.ask index op faults = w ∨
      ∃ g ∈ w.guards, ∃ reply g' metrics t', Outcome g w.table op reply g' t' ∧
        w.ask index op faults =
          ⟨t', w.guards.set index g', metrics, w.log ++ [⟨op, reply⟩]⟩ := by
  unfold ask
  cases found : w.guards[index]? with
  | none => exact .inl rfl
  | some g =>
    have outcome := (Operation.always_perform (c := ⟨g, w.metrics⟩) wf op).runFaulty
      faults
    exact .inr ⟨g, List.mem_of_getElem? found, _, _, _, _, outcome, rfl⟩

/-- A guard starts with nothing, or does not start. -/
theorem start_cases (w : World) (config : GuardConfig) :
    w.start config = w ∨ w.start config = { w with guards := w.guards ++ [⟨config, [], []⟩] } := by
  unfold start Guard.create
  cases config.check with
  | ok _ => exact .inr rfl
  | error _ => exact .inl rfl

/-- A ledger that fits its file is the same after it was closed and reopened. -/
theorem reopen_eq (h : w.table.FitsFile) : w.reopen = w := by
  rw [reopen, LedgerFile.decode_encode h]

theorem sound_empty (run : Run) : Sound run empty where
  wellFormed := .empty
  linked _ _ h := by contradiction
  fits _ _ h := by contradiction
  idle _ h := by contradiction
  agrees _ h := by contradiction

/-- Changes of the ledger keep a world sound, whatever becomes of the counters and the log. -/
theorem Sound.reaches (sound : w.Sound run) {t : Table Bytes}
    (reaches : w.table.Reaches run.Admits t) (metrics : Metrics) (log : List Event) :
    Sound run ⟨t, w.guards, metrics, log⟩ where
  wellFormed := reaches.wellFormed sound.wellFormed
  linked := reaches.linked sound.linked
  fits again := reaches.fitsFile (fun _ admitted => admitted again) (sound.fits again)
  idle := sound.idle
  agrees g hg key id known := reaches.remembers.idOf key id (sound.agrees g hg key id known)

/-- One step keeps a world sound. -/
theorem Sound.step (sound : w.Sound run) (storable : run.Storable) {s : Step} (hs : s ∈ run) :
    Sound run (w.step s) := by
  cases s with
  | start config =>
    show Sound run (w.start config)
    rcases start_cases w config with same | started
    · rwa [same]
    · rw [started]
      -- The guard that was started knows no key.
      refine { sound with idle := fun g hg => ?_, agrees := fun g hg key id known => ?_ }
      · rcases List.mem_append.1 hg with hg | hg
        · exact sound.idle g hg
        · rw [List.mem_singleton.1 hg]
      · rcases List.mem_append.1 hg with hg | hg
        · exact sound.agrees g hg key id known
        · rw [List.mem_singleton.1 hg] at known
          contradiction
  | ask index op faults =>
    show Sound run (w.ask index op faults)
    rcases ask_cases sound.wellFormed index op faults with same | asked
    · rwa [same]
    · obtain ⟨g, hg, reply, g', metrics, t', outcome, asked⟩ := asked
      rw [asked]
      have reaches := outcome.reaches (storable _ hs) fun _ => run.admits_bls
      -- Only the guard that was asked may know more now, and the ledger knows it too.
      have kept := sound.reaches reaches metrics (w.log ++ [⟨op, reply⟩])
      refine { kept with idle := fun g₁ hg₁ => ?_, agrees := fun g₁ hg₁ key id known => ?_ }
      · rcases List.mem_or_eq_of_mem_set hg₁ with hg₁ | rfl
        · exact sound.idle g₁ hg₁
        · rw [outcome.held, sound.idle g hg]
      · rcases List.mem_or_eq_of_mem_set hg₁ with hg₁ | rfl
        · exact kept.agrees g₁ hg₁ key id known
        · rcases outcome.knows known with before | now
          · exact kept.agrees g hg key id before
          · exact now
  | transact mutations commit faults =>
    have admitted : ∀ m ∈ mutations, ∀ bytes ∈ m.payload, run.Admits bytes :=
      fun m hm bytes hb => storable _ hs bytes (List.mem_flatMap.2 ⟨m, hm, hb⟩)
    have reaches := (Mutation.always_transact sound.wellFormed mutations commit
      admitted).runFaulty faults
    exact sound.reaches reaches w.metrics w.log
  | reopen =>
    show Sound run w.reopen
    rwa [reopen_eq (sound.fits hs)]

/-- Every run leads to a sound world. -/
theorem sound_after {run : Run} (storable : run.Storable) : Sound run (after run) :=
  after_induction (sound_empty run) fun _ _ hs sound => sound.step storable hs

end World

/-! ## Runs of protected guards -/

/-- A step of guards that check what they permit: nobody writes to the ledger past them. -/
def Step.Guarded : Step → Prop
  | .start config => config.enabled
  | .transact _ _ _ => False
  | _ => True

namespace World

variable {run : Run} {w : World}

/-- A sound world whose guards all check what they permit. -/
structure Protected (run : Run) (w : World) : Prop extends Sound run w where
  enabled : ∀ g ∈ w.guards, g.config.enabled

/-- What one step of a protected run may do: nothing to the ledger and the log, or what an
    operation of a protected guard does, which is logged with its reply. -/
theorem Protected.step_cases (w_ok : w.Protected run) (storable : run.Storable) {s : Step}
    (hs : s ∈ run) (guarded : s.Guarded) :
    (w.step s).Protected run ∧
      ((w.step s).table = w.table ∧ (w.step s).log = w.log ∨
        ∃ g ∈ w.guards, ∃ op reply g', op.payload = s.payload ∧
          Outcome g w.table op reply g' (w.step s).table ∧
            (w.step s).log = w.log ++ [⟨op, reply⟩]) := by
  have sound := w_ok.toSound.step storable hs
  cases s with
  | start config =>
    have started : (w.start config).table = w.table ∧ (w.start config).log = w.log ∧
        ∀ g ∈ (w.start config).guards, g.config.enabled := by
      rcases start_cases w config with same | started
      · rw [same]; exact ⟨rfl, rfl, w_ok.enabled⟩
      · rw [started]
        refine ⟨rfl, rfl, fun g hg => ?_⟩
        rcases List.mem_append.1 hg with hg | hg
        · exact w_ok.enabled g hg
        · rw [List.mem_singleton.1 hg]; exact guarded
    exact ⟨{ sound with enabled := started.2.2 }, .inl ⟨started.1, started.2.1⟩⟩
  | ask index op faults =>
    rcases ask_cases w_ok.wellFormed index op faults with same | asked
    · have same : w.step (.ask index op faults) = w := same
      rw [same]
      exact ⟨w_ok, .inl ⟨rfl, rfl⟩⟩
    · obtain ⟨g, hg, reply, g', metrics, t', outcome, asked⟩ := asked
      have asked : w.step (.ask index op faults) = _ := asked
      rw [asked] at sound ⊢
      refine ⟨{ sound with enabled := fun g₁ hg₁ => ?_ },
        .inr ⟨g, hg, op, reply, g', rfl, outcome, rfl⟩⟩
      rcases List.mem_or_eq_of_mem_set hg₁ with hg₁ | rfl
      · exact w_ok.enabled g₁ hg₁
      · rw [outcome.config]; exact w_ok.enabled g hg
  | transact mutations commit faults => exact absurd guarded id
  | reopen =>
    have same : w.step .reopen = w := reopen_eq (w_ok.fits hs)
    rw [same]
    exact ⟨w_ok, .inl ⟨rfl, rfl⟩⟩

theorem protected_empty (run : Run) : Protected run empty :=
  { sound_empty run with enabled := fun _ h => by contradiction }

/-- What is said of the ledger and the log, holds at the start, and is kept by every operation of a
    protected guard holds after a run of protected guards. -/
theorem protected_induction {P : World → Prop} (guarded : ∀ s ∈ run, s.Guarded)
    (storable : run.Storable) (init : P empty)
    (same : ∀ w w' : World, w'.table = w.table → w'.log = w.log → P w → P w')
    (asked : ∀ w w' : World, w.Protected run → ∀ s ∈ run, ∀ g ∈ w.guards, ∀ op reply g',
      op.payload = s.payload → Outcome g w.table op reply g' w'.table →
        w'.log = w.log ++ [⟨op, reply⟩] → P w → P w') :
    (after run).Protected run ∧ P (after run) := by
  apply after_induction (P := fun w => w.Protected run ∧ P w)
  · exact ⟨protected_empty run, init⟩
  · intro w s hs h
    obtain ⟨w_ok, hw⟩ := h
    obtain ⟨kept, ⟨table, log⟩ | ⟨g, hg, op, reply, g', payload, outcome, log⟩⟩ :=
      w_ok.step_cases storable hs (guarded s hs)
    · exact ⟨kept, same w _ table log hw⟩
    · exact ⟨kept, asked w _ w_ok s hs g hg op reply g' payload outcome log hw⟩

end World

/-! ## A run of two guards -/

namespace Run

/-- The key that is asked for in the run of two guards. -/
def oneKey : PublicKey := ⟨List.replicate 48 7⟩

/-- Two guards sign for one key.  A call fails, the store is reopened, and a prune forgets the
    first vote before the last one is asked for. -/
def twoGuards : Run :=
  [.start .standard, .start .standard, .ask 0 (.register [oneKey]) [],
    .ask 1 (.register [oneKey]) [], .ask 0 (.signBlock oneKey 5 ⟨[1]⟩) [],
    .ask 1 (.signAttestation oneKey ⟨2, 3⟩ ⟨[2]⟩) [],
    .ask 1 (.signBlock oneKey 5 ⟨[1]⟩) [some (.io "busy")], .reopen,
    .ask 1 (.signBlock oneKey 5 ⟨[1]⟩) [], .ask 0 (.signAttestation oneKey ⟨3, 8⟩ ⟨[3]⟩) [],
    .ask 1 (.pruneValidator ⟨1⟩ 2 1) [], .ask 0 (.signAttestation oneKey ⟨8, 9⟩ ⟨[4]⟩) []]

theorem guarded_twoGuards : ∀ s ∈ twoGuards, s.Guarded := by
  simp [twoGuards, Step.Guarded, GuardConfig.standard]

theorem storable_twoGuards : twoGuards.Storable := by
  simp [Storable, twoGuards, Step.payload, Operation.payload, Admits, Table.Storable]

end Run

end SlashingGuard
