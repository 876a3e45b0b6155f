import SlashingGuard.Proofs.Disk.DataDirectory
import SlashingGuard.Proofs.Ledger.Enrollment
import SlashingGuard.Proofs.Signer.Check
import SlashingGuard.Proofs.Store.Persistence

/-! # Opening a signer

    A signer is opened in steps, any of which may fail: the check, the lock,
    the directory, the ledger file, and the registration of the configured
    keys.  On a tree of files the ledger file is written by the last of them
    alone, and nothing behind that write can fail.  So a signer that cannot be
    opened leaves the ledger file and the locks as they were, and one that is
    open has the former ledger with its keys registered. -/

namespace SlashingGuard

open Disk Disk.Tree DataDirectory

/-! ## Registering keys -/

namespace Guard

/-- A registration of a guard writes the batch of its keys, or it fails and writes nothing. -/
theorem commits_register {keys : List PublicKey} (bls : ∀ key ∈ keys, key.isBls) (c : Context)
    (t : Table Bytes) : ((register keys).run.run c).Commits (fun _ r => ∃ e, r.1 = .error e)
      (fun r => r.1 = .ok () →
        r.2.guard.config = c.guard.config ∧ t.applyBatch (t.registration keys) = t)
      (fun r t' => r.1 = .ok () ∧
        r.2.guard.config = c.guard.config ∧ t' = t.applyBatch (t.registration keys)) t := by
  have accepted : (keys.find? fun key => !key.isBls) = none := by simpa using bls
  unfold register
  rw [accepted]
  show Program.Commits _ _ _ _
    (Program.bind (Program.bind (Ledger.registerAll keys).run _) _)
  rw [Program.bind_assoc]
  refine (Ledger.commits_registerAll keys).bind_done ?_ ?_ ?_
  · rintro x r rfl
    exact ⟨_, rfl, _, rfl⟩
  · intro r read
    cases r with
    | error e => exact ⟨_, rfl, nofun⟩
    | ok ids => exact ⟨_, rfl, fun _ => ⟨knowAll_config c.guard (keys.zip ids), read ids rfl⟩⟩
  · rintro r t' ⟨ids, rfl, written⟩
    exact ⟨_, rfl, rfl, knowAll_config c.guard (keys.zip ids), written⟩

end Guard

namespace Signer

variable {σ α β ε : Type}

/-- A step of opening ends as the work in it does; its errors are told as failures. -/
theorem ends_of {serve : Server σ} {failure : ε → Failure} {step : DiskProgram (Except ε α)} {s : σ}
    {P : Except ε α → σ → Prop} {Q : Except Failure α → σ → Prop}
    (h : Ends serve (ExceptT.mk step) s P)
    (failed : ∀ e s', P (.error e) s' → Q (.error (failure e)) s')
    (done : ∀ a s', P (.ok a) s' → Q (.ok a) s') : Ends serve (Opening.of failure step) s Q := by
  refine Ends.mk_bind (k := fun r => .done (r.mapError failure)) h fun r s' post => ?_
  cases r with
  | ok a => exact done a s' post
  | error e => exact failed e s' post

theorem ends_of_bind {serve : Server σ} {failure : ε → Failure} {step : DiskProgram (Except ε α)}
    {k : α → Opening β} {s : σ} {P : Except ε α → σ → Prop} {Q : Except Failure β → σ → Prop}
    (h : Ends serve (ExceptT.mk step) s P)
    (failed : ∀ e s', P (.error e) s' → Q (.error (failure e)) s')
    (done : ∀ a s', P (.ok a) s' → Ends serve (k a) s' Q) :
    Ends serve (Opening.of failure step >>= k) s Q :=
  ends_bind.2 (ends_of h failed done)

/-- What a program gives that cannot fail is known to what is done with it. -/
theorem ends_lift_bind {serve : Server σ} {p : DiskProgram α} {k : α → Opening β} {s : σ}
    {Q : Except Failure β → σ → Prop} : Ends serve (ExceptT.lift p >>= k) s Q ↔
      Ends serve (k (Program.run serve p s).1) (Program.run serve p s).2 Q := by
  unfold Ends
  rw [ExceptT.run_bind_lift, Program.bind_eq, Program.run_bind]

variable {keys : List PublicKey}

/-- The store of a data directory, with keys registered in the ledger that was there on the tree
    `t`; on the tree `u` the directory holds this ledger. -/
structure Enrolls (directory : String) (keys : List PublicKey) (t u : Tree) (s : Store) :
    Prop where
  former : ∃ former, ledger? t directory = some former ∧ former.Registers keys s.table
  home : s.home = some directory
  saved : ledger? u directory = some s.table
  /-- Without keys the ledger file is not written. -/
  untouched : keys = [] → u.file? (ledgerRoute t directory) = t.file? (ledgerRoute t directory)

theorem Enrolls.of_keeps {changed : List Route} {directory : String} {t₀ t u : Tree} {s : Store}
    (h : Enrolls directory keys t u s) (kept : Keeps changed t₀ t)
    (other : ledgerRoute t₀ directory ∉ changed) : Enrolls directory keys t₀ u s := by
  obtain ⟨former, read, registers⟩ := h.former
  refine ⟨⟨former, ledger?_of_keeps kept other read, registers⟩, h.home, h.saved, fun none => ?_⟩
  have untouched := h.untouched none
  rw [ledgerRoute_of_keeps kept] at untouched
  exact untouched.trans (kept.file? other)

/-- Registering keys writes their batch to the ledger file, or leaves it. -/
theorem ends_registerKeys (bls : ∀ key ∈ keys, key.isBls) (g : Guard) {directory : String}
    {former : Table Bytes} {t : Tree} (read : ledger? t directory = some former) :
    Ends Tree.serve (registerKeys keys g ⟨some directory, former⟩) t fun r u =>
      match r with
      | .ok (g', s) => g'.config = g.config ∧ Enrolls directory keys t u s ∧
          Leaves [draftRoute t directory, ledgerRoute t directory] t u
      | .error _ => Leaves [draftRoute t directory] t u := by
  unfold registerKeys
  by_cases none : keys = []
  · subst none
    exact ⟨rfl, ⟨⟨former, read, former.registers_nil⟩, rfl, read, fun _ => rfl⟩, .refl _ t⟩
  rw [if_neg (by simpa using none), ends_lift_bind, perform, Store.run_eq_through]
  have ends := (Guard.commits_register bls ⟨g, .zero⟩ former).persists
    (s := ⟨some directory, former⟩) rfl Tree.serve t
  generalize Program.run (ι := Store.calls) (Store.through Tree.serve) _ _ = out at ends ⊢
  obtain ⟨⟨r, c⟩, s, u⟩ := out
  dsimp only at ends ⊢
  cases ends with
  | unsaved known =>
    cases r with
    | error e => exact .refl _ t
    | ok _ =>
      obtain ⟨config, same⟩ := known rfl
      have registers := former.registers_applyBatch none
      rw [same] at registers
      exact ⟨config, ⟨⟨former, read, registers⟩, rfl, read, fun _ => rfl⟩, .refl _ t⟩
  | saved known saved =>
    obtain ⟨rfl, config, rfl⟩ := known
    have ends := save_ends_tree t directory (former.applyBatch (former.registration keys))
    rw [Ends, saved] at ends
    obtain ⟨kept, holds⟩ : Leaves _ t u ∧ u.node? (ledgerRoute t directory) = _ := ends
    have fits := (fitsFile_of_ledger? read).applyBatch (former.fitsFile_registration bls)
    rw [← ledgerRoute_of_keeps kept.toKeeps] at holds
    have saved := ledger?_of_node fits holds
    have registers := former.registers_applyBatch none
    exact ⟨config, ⟨⟨former, read, registers⟩, rfl, saved, (absurd · none)⟩, kept⟩
  | @failed table _ _ known _ saved =>
    obtain ⟨_, failed⟩ := known
    obtain rfl : r = .error _ := failed
    have ends := save_ends_tree t directory table
    rw [Ends, saved] at ends
    exact ends

/-- In memory keys are registered without the disk. -/
theorem ends_registerKeys_inMemory (bls : ∀ key ∈ keys, key.isBls) (g : Guard)
    (former : Table Bytes) {serve : Server σ} (d : σ) :
    Ends serve (registerKeys keys g ⟨none, former⟩) d fun r d' => d' = d ∧
      ∀ g' s, r = .ok (g', s) → g'.config = g.config ∧ former.Registers keys s.table ∧
        s.home = none := by
  unfold registerKeys
  by_cases none : keys = []
  · subst none
    refine ⟨rfl, fun g' s same => ?_⟩
    obtain ⟨rfl, rfl⟩ := Prod.mk.inj (Except.ok.inj same)
    exact ⟨rfl, former.registers_nil, rfl⟩
  rw [if_neg (by simpa using none), ends_lift_bind, perform, Store.run_eq_through,
    Store.run_through_inMemory]
  have ends := (Guard.commits_register bls ⟨g, .zero⟩ former).run_serve
  generalize Program.run (ι := Store.calls) Table.serve _ _ = out at ends ⊢
  obtain ⟨⟨r, c⟩, after⟩ := out
  dsimp only at ends ⊢
  cases r with
  | error e => exact ⟨rfl, nofun⟩
  | ok _ =>
    refine ⟨rfl, fun g' s same => ?_⟩
    obtain ⟨rfl, rfl⟩ := Prod.mk.inj (Except.ok.inj same)
    have registers := former.registers_applyBatch none
    rcases ends with ⟨known, rfl⟩ | ⟨-, config, rfl⟩
    · obtain ⟨config, same⟩ := known rfl
      rw [same] at registers
      exact ⟨config, registers, rfl⟩
    · exact ⟨config, registers, rfl⟩

/-! ## Setting up the guard -/

/-- Opening a store in a directory sees to the directory and reads the ledger file. -/
theorem ends_openStore {c : StorageConfig} (kind : c.backend = .file) (t : Tree) :
    Ends Tree.serve (openStore c) t fun r u => Leaves [] t u ∧
      ∀ s, r = .ok s → ∃ former, s = ⟨some c.dataDirectory, former⟩ ∧
        ledger? u c.dataDirectory = some former := by
  unfold openStore
  rw [kind]
  refine ends_of_bind (ends_makeDirectories t c.dataDirectory) (fun _ _ made => ⟨made.1, nofun⟩)
    fun _ t₁ ⟨made, leads⟩ => ?_
  have leads : t₁.Leads c.dataDirectory (t₁.routeOf c.dataDirectory) := by
    rw [made.routeOf]
    exact leads rfl
  refine ends_of (ends_load leads) (fun _ _ loaded => ⟨loaded.1 ▸ made, nofun⟩)
    fun s u ⟨same, loaded⟩ => ⟨same ▸ made, fun s' opened => ?_⟩
  subst same
  obtain rfl := Except.ok.inj opened
  exact loaded s rfl

variable {config : SignerConfig}

/-- Creating the guard and reading the keys cannot fail, since both were checked. -/
theorem assemble_eq (checked : config.check = .ok ()) :
    ∃ keys guard, config.publicKeys = .ok keys ∧ guard.config = config.guard ∧
      assemble config = do
        let store ← openStore config.storage
        let (guard, store) ← registerKeys keys guard store
        return ⟨config, store, guard⟩ := by
  obtain ⟨guard, created, settings⟩ := (checkSuffices checked).guard
  obtain ⟨keys, read, -⟩ := (checkSuffices checked).keys
  refine ⟨keys, guard, read, settings, ?_⟩
  unfold assemble
  rw [created, read]
  rfl

/-- What is set up in a directory. -/
theorem ends_assemble (checked : config.check = .ok ()) (kind : config.storage.backend = .file)
    (t : Tree) : Ends Tree.serve (assemble config) t fun r u =>
      let directory := config.storage.dataDirectory
      match r with
      | .ok signer => signer.config = config ∧ signer.guard.config = config.guard ∧
          (∃ keys, config.publicKeys = .ok keys ∧ Enrolls directory keys t u signer.store) ∧
          Leaves [draftRoute t directory, ledgerRoute t directory] t u
      | .error _ => Leaves [draftRoute t directory] t u := by
  obtain ⟨keys, guard, readKeys, settings, steps⟩ := assemble_eq checked
  have bls := SignerConfig.isBls_of_publicKeys readKeys
  rw [steps]
  refine (ends_openStore kind t).bind (fun _ _ opened => opened.1.mono (List.nil_subset _))
    fun s t₁ ⟨opened, loaded⟩ => ?_
  obtain ⟨former, rfl, read⟩ := loaded s rfl
  have ends := ends_registerKeys bls guard read
  rw [draftRoute_of_keeps opened.toKeeps, ledgerRoute_of_keeps opened.toKeeps] at ends
  refine ends.bind (fun _ u kept => (opened.mono (List.nil_subset _)).trans kept)
    fun (g, s) u ⟨config, enrolls, kept⟩ => ?_
  exact ⟨rfl, config.trans settings,
    ⟨keys, readKeys, enrolls.of_keeps opened.toKeeps List.not_mem_nil⟩,
    (opened.mono (List.nil_subset _)).trans kept⟩

/-- What is set up in memory begins with an empty ledger. -/
theorem ends_assemble_inMemory (checked : config.check = .ok ())
    (kind : config.storage.backend = .memory) {serve : Server σ} (d : σ) :
    Ends serve (assemble config) d fun r d' => d' = d ∧ ∀ signer, r = .ok signer →
      signer.config = config ∧ signer.guard.config = config.guard ∧
        ∃ keys, config.publicKeys = .ok keys ∧
          Table.empty.Registers keys signer.store.table ∧ signer.store.home = none := by
  obtain ⟨keys, guard, readKeys, settings, steps⟩ := assemble_eq checked
  have bls := SignerConfig.isBls_of_publicKeys readKeys
  have stores : openStore config.storage = pure .inMemory := by rw [openStore, kind]
  rw [steps, stores, pure_bind]
  refine (ends_registerKeys_inMemory bls guard .empty d).bind
    (fun _ d' ends => ⟨ends.1, fun _ opened => by contradiction⟩)
    fun (g, s) d' ⟨same, ends⟩ => ⟨same, fun signer opened => ?_⟩
  obtain ⟨config', registers, home⟩ := ends g s rfl
  obtain rfl := Except.ok.inj opened
  exact ⟨rfl, config'.trans settings, keys, readKeys, registers, home⟩

/-! ## Opening -/

theorem launch_eq (checked : config.check = .ok ()) : launch config = (do
    Signer.lock config.storage
    match ← ExceptT.lift (assemble config).run with
    | .ok signer => return signer
    | .error f =>
      ExceptT.lift (Signer.unlock config.storage)
      throw f) := by
  unfold launch
  rw [checked]
  rfl

/-- The ledger that a signer begins with, when opening it has led from the tree `t` to the tree `u`:
    the configured keys are registered, in memory in an empty ledger and in a data directory in the
    one that was there. -/
inductive Begins (config : SignerConfig) (t u : Tree) (s : Store) : Prop where
  | inMemory {keys : List PublicKey} : config.storage.backend = .memory →
    config.publicKeys = .ok keys → Table.empty.Registers keys s.table → s.home = none → u = t →
      Begins config t u s
  | inDirectory {keys : List PublicKey} : config.storage.backend = .file →
    config.publicKeys = .ok keys → Enrolls config.storage.dataDirectory keys t u s →
      Keeps (ledgerRoute t config.storage.dataDirectory ::
        sideRoutes t config.storage.dataDirectory) t u →
      u.locked = lockRoute t config.storage.dataDirectory :: t.locked → Begins config t u s

/-- A signer that is open begins with its ledger; one that is not leaves the ledger and the
    locks. -/
def Opens (config : SignerConfig) (t : Tree) (r : Except Failure Signer) (u : Tree) : Prop :=
  match r with
  | .ok signer => signer.config = config ∧ signer.guard.config = config.guard ∧
      Begins config t u signer.store
  | .error _ => Leaves (sideRoutes t config.storage.dataDirectory) t u

theorem opens_launch_file (checked : config.check = .ok ())
    (kind : config.storage.backend = .file) (t : Tree) :
    Ends Tree.serve (launch config) t (Opens config t) := by
  have durable : isDurable config.storage.backend = true := by rw [kind]; rfl
  rw [launch_eq checked, Signer.lock, if_pos durable]
  refine ends_of_bind (ends_acquire t _ _) (fun _ _ left => left.mono (by simp [sideRoutes]))
    fun _ t₁ ⟨locked, held, has⟩ => ?_
  have ends := ends_assemble checked kind t₁
  dsimp only at ends
  rw [draftRoute_of_keeps locked, ledgerRoute_of_keeps locked] at ends
  rw [ends_lift_bind]
  unfold Ends at ends
  generalize Program.run Tree.serve (assemble config).run t₁ = out at ends ⊢
  obtain ⟨r, u⟩ := out
  cases r with
  | ok signer =>
    obtain ⟨same, settings, ⟨keys, read, enrolls⟩, kept⟩ := ends
    have other := ledgerRoute_ne_lockRoute t config.storage.dataDirectory
    refine ⟨same, settings, .inDirectory kind read (enrolls.of_keeps locked (by simpa using other))
      ?_ (kept.locked.trans held)⟩
    exact (locked.mono (by simp [sideRoutes])).trans (kept.toKeeps.mono (by simp [sideRoutes]))
  | error f =>
    have left : Leaves [draftRoute t config.storage.dataDirectory] t₁ u := ends
    -- The lock file is still there, so the lock is found and given back.
    have other := lockRoute_ne_draftRoute t config.storage.dataDirectory
    have has : u.Has _ "LOCK" _ := left.has (mt List.mem_singleton.1 other) has
    have given : Program.run Tree.serve (Signer.unlock config.storage) u =
        ((), { u with locked := u.locked.erase (lockRoute t config.storage.dataDirectory) }) := by
      rw [Signer.unlock, if_pos durable]
      exact has.serve_unlock isName_lock
    show Ends _ (ExceptT.lift _ >>= _) _ _
    rw [ends_lift_bind, given]
    have kept : Keeps (sideRoutes t config.storage.dataDirectory) t u :=
      (locked.mono (by simp [sideRoutes])).trans (left.toKeeps.mono (by simp [sideRoutes]))
    refine ⟨kept.trans ((keeps_locked u _).mono (List.nil_subset _)), ?_⟩
    show u.locked.erase (lockRoute t config.storage.dataDirectory) = t.locked
    rw [left.locked, held, List.erase_cons_head]

/-- In memory a signer is opened without the disk. -/
theorem opens_launch_memory (checked : config.check = .ok ())
    (kind : config.storage.backend = .memory) (t : Tree) :
    Ends Tree.serve (launch config) t fun r u => u = t ∧ Opens config t r u := by
  have locks : Signer.lock config.storage = pure () := by rw [Signer.lock, kind]; rfl
  have unlocks : Signer.unlock config.storage = pure () := by rw [Signer.unlock, kind]; rfl
  rw [launch_eq checked, locks, unlocks, pure_bind, ends_lift_bind]
  have ends : Ends Tree.serve (assemble config) t _ := ends_assemble_inMemory checked kind t
  unfold Ends at ends
  generalize Program.run Tree.serve (assemble config).run t = out at ends ⊢
  obtain ⟨r, u⟩ := out
  cases r with
  | ok signer =>
    obtain ⟨same, opened⟩ := ends
    obtain ⟨config', settings, keys, read, registers, home⟩ := opened signer rfl
    exact ⟨same, config', settings, .inMemory kind read registers home same⟩
  | error f =>
    obtain rfl : u = t := ends.1
    exact ⟨rfl, .refl _ u⟩

/-! ## All or nothing -/

/-- Opening a signer on a tree of files is all or nothing, and what it needs is checked first.  This
    is so because a tree has no links and can always be made durable.  `settles_launch` says what is
    left on a disk that fails behind the rename, and `launch_overwrites_linked` what a link does. -/
structure LaunchesWhole (config : SignerConfig) (t : Tree) : Prop where
  /-- What fails its check is refused before anything is asked of the disk. -/
  refused : ∀ e, config.check = .error e →
    (launch config).run = .done (.error (e.failure.during "invalid configuration"))
  /-- A failure leaves the ledger file and the locks as they were: only the lock file and the draft
      may be others, and directories may be new. -/
  failed : ∀ f u, Program.run Tree.serve (launch config).run t = (.error f, u) →
    u.file? (ledgerRoute t config.storage.dataDirectory) =
        t.file? (ledgerRoute t config.storage.dataDirectory) ∧
      Leaves (sideRoutes t config.storage.dataDirectory) t u
  /-- A signer that is open has the former ledger with the configured keys registered, and so has
      its data directory. -/
  opened : ∀ signer u, Program.run Tree.serve (launch config).run t = (.ok signer, u) →
    signer.config = config ∧ signer.guard.config = config.guard ∧ Begins config t u signer.store
  /-- Whatever has become of the disk, a prune with such a signer fails in the ledger alone. -/
  prunes : ∀ signer u, Program.run Tree.serve (launch config).run t = (.ok signer, u) →
    ∀ v e, (Program.run Tree.serve
      (perform Guard.prune ⟨signer.guard, .zero⟩ signer.store) v).1.1.1 = .error e →
        ∃ x, e = .ledger x
  /-- In memory nothing is asked of the disk. -/
  inMemory : config.storage.backend = .memory →
    (Program.run Tree.serve (launch config).run t).2 = t
  /-- Nothing fails later for what was checked. -/
  sufficient : config.check = .ok () → CheckSuffices config

theorem refused_of_check {e : ConfigError} (failed : config.check = .error e) :
    (launch config).run = .done (.error (e.failure.during "invalid configuration")) := by
  unfold launch
  rw [failed]
  rfl

theorem opens_launch (config : SignerConfig) (t : Tree) :
    Ends Tree.serve (launch config) t (Opens config t) := by
  cases checked : config.check with
  | error e =>
    unfold Ends
    rw [refused_of_check checked]
    exact .refl _ t
  | ok _ =>
    cases kind : config.storage.backend with
    | memory => exact (opens_launch_memory checked kind t).2
    | file => exact opens_launch_file checked kind t
    | rocksDb => exact absurd kind (SignerConfig.check_eq_ok.1 checked).2.1

theorem launch_all_or_nothing (config : SignerConfig) (t : Tree) : LaunchesWhole config t := by
  have opens := opens_launch config t
  unfold Ends at opens
  constructor
  case refused => exact fun _ => refused_of_check
  case failed =>
    intro f u run
    rw [run] at opens
    have left : Leaves (sideRoutes t config.storage.dataDirectory) t u := opens
    exact ⟨left.file? (ledgerRoute_not_mem_sideRoutes t _), left⟩
  case opened =>
    intro signer u run
    rw [run] at opens
    exact opens
  case prunes =>
    intro signer u run v e failed
    have checked : config.check = .ok () := by
      cases checked : config.check with
      | error e' =>
        rw [refused_of_check checked] at run
        exact nomatch (Prod.mk.inj run).1
      | ok _ => rfl
    rw [run] at opens
    rw [perform, Store.run_eq_through] at failed
    have prune := (checkSuffices checked).prune ⟨signer.guard, .zero⟩ opens.2.1
    exact prune.run (Store.through Tree.serve) (signer.store, v) e failed
  case inMemory =>
    intro kind
    cases checked : config.check with
    | error e => rw [refused_of_check checked]; rfl
    | ok _ => exact (opens_launch_memory checked kind t).1
  case sufficient => exact checkSuffices

/-- A key of one digit, as it is written. -/
def keyText (digit : Char) : String := String.ofList (List.replicate 96 digit)

/-- A configuration with two keys, one of them given twice. -/
def threeListed : SignerConfig :=
  { SignerConfig.standard with validators := [keyText '2', keyText '1', keyText '2'] }

/-- A working directory with a data directory, in whose ledger one of the two has a number. -/
def servedOnce : Tree :=
  let ledger := Table.empty.applyBatch (Table.empty.registration [⟨List.replicate 48 0x11⟩])
  { Tree.empty ["w"] 7 0 with nodes := [(["w"], .directory), (["w", "data"], .directory),
      (["w", "data", "slashing-protection.db"], .file (LedgerFile.encode ledger))] }

/-- The signer opens, and the other key is registered. -/
theorem launch_all_or_nothing_oneNewKey : CheckSuffices threeListed ∧ ∃ signer u keys,
    Program.run Tree.serve (launch threeListed).run servedOnce = (.ok signer, u) ∧
      threeListed.publicKeys = .ok keys ∧ Enrolls "./data" keys servedOnce u signer.store ∧
      u.locked = [["w", "data", "LOCK"]] := by
  have whole := launch_all_or_nothing threeListed servedOnce
  have checked : threeListed.check = .ok () := by rfl
  have opens : (Program.run Tree.serve (launch threeListed).run servedOnce).1.isOk := by
    decide +kernel
  refine ⟨whole.sufficient checked, ?_⟩
  rcases run : Program.run Tree.serve (launch threeListed).run servedOnce with ⟨f | signer, u⟩
  · rw [run] at opens
    exact absurd opens Bool.false_ne_true
  · obtain ⟨-, -, begins⟩ := whole.opened signer u run
    cases begins with
    | inMemory kind _ _ _ _ => exact nomatch kind
    | @inDirectory keys _ read enrolls _ held => exact ⟨signer, u, keys, run, read, enrolls, held⟩

end Signer

end SlashingGuard
