import SlashingGuard.Proofs.Signer.Launch

/-! # Launches that fail late

    On a tree of files a launch that fails leaves the ledger file as it was,
    since there nothing fails behind the rename that puts a new file in place.
    A disk may still refuse the call behind it, which makes the directory
    durable.  Then the launch fails, and the configured keys are registered in
    the file all the same.

    So a launch is followed here on any disk, whatever calls it fails: the
    file that a failed launch leaves is the old one, or the one with the keys,
    and the second only where the directory could not be made durable.  What
    is asked of the disk is that the lock file is not the ledger file by
    another name; a link that makes it so passes all checks, and the signer
    writes its number over the ledger. -/

namespace SlashingGuard

open Disk DataDirectory

variable {σ α β ε : Type} {serve : Server σ} {directory : String}

/-! ## Work beside the ledger file -/

namespace Disk.Files

/-- A disk on which reading changes nothing in the ledger file of a data directory, nor does what
    is done about its lock. -/
structure Apart (files : Files serve directory) : Prop where
  clock : ∀ s, files.ledger (serve .clock s).2 = files.ledger s
  process : ∀ s, files.ledger (serve .processId s).2 = files.ledger s
  strays : ∀ s, files.ledger (serve (.strays directory (lockFile directory)) s).2 = files.ledger s
  ensure : ∀ s, files.ledger (serve (.ensure (lockFile directory)) s).2 = files.ledger s
  lock : ∀ s wait, files.ledger (serve (.lock (lockFile directory) wait) s).2 = files.ledger s
  unlock : ∀ s, files.ledger (serve (.unlock (lockFile directory)) s).2 = files.ledger s
  sign : ∀ s bytes, files.ledger (serve (.write (lockFile directory) bytes) s).2 = files.ledger s
  look : ∀ s, files.ledger (serve (.read (lockFile directory)) s).2 = files.ledger s
  read : ∀ s, files.ledger (serve (.read (ledgerFile directory)) s).2 = files.ledger s

/-- A program that leaves the ledger file as it was, however it ends. -/
def Spares (files : Files serve directory) (p : DiskProgram α) : Prop :=
  ∀ s, files.ledger (Program.run serve p s).2 = files.ledger s

variable {files : Files serve directory}

theorem spares_pure (a : α) : files.Spares (pure a) := fun _ => rfl

theorem Spares.bind {p : DiskProgram α} {f : α → DiskProgram β} (h : files.Spares p)
    (next : ∀ a, files.Spares (f a)) : files.Spares (p >>= f) := by
  intro s
  rw [Program.bind_eq, Program.run_bind]
  exact (next _ _).trans (h s)

/-- Work that an error ends spares the file if all its steps do. -/
theorem Spares.attempt {w : ExceptT ε (Program calls) α} {k : α → ExceptT ε (Program calls) β}
    (h : files.Spares w.run) (next : ∀ a, files.Spares (k a).run) : files.Spares (w >>= k).run := by
  refine Spares.bind h fun r => ?_
  cases r with
  | ok a => exact next a
  | error e => exact spares_pure _

/-- Taking the lock spares the ledger file, whether or not the lock is had in the end. -/
theorem Apart.acquire (apart : files.Apart) (wait : Duration) :
    files.Spares (acquire directory wait) := by
  have prepared : files.Spares (prepare directory).run := by
    unfold prepare
    refine Spares.attempt files.makeDirectories fun _ => ?_
    refine Spares.attempt (w := ExceptT.lift _) (Spares.bind apart.strays fun _ => spares_pure _)
      fun outside => ?_
    cases outside with
    | true => exact spares_pure _
    | false => exact apart.ensure
  have signed : files.Spares (DataDirectory.sign (lockFile directory)) := by
    unfold DataDirectory.sign
    refine Spares.bind apart.process fun process => Spares.bind ?_ fun _ => spares_pure _
    exact Spares.attempt (fun s => apart.sign s _) fun _ s => files.sync s _
  have looked : files.Spares (readText (lockFile directory)).run := by
    unfold readText
    refine Spares.attempt apart.look fun bytes => ?_
    cases Bytes.toText? bytes <;> exact spares_pure _
  unfold DataDirectory.acquire
  refine Spares.bind apart.clock fun now => ?_
  split
  · exact spares_pure _
  refine Spares.bind prepared fun r => ?_
  cases r with
  | error reason => exact spares_pure _
  | ok _ =>
    refine Spares.bind (fun s => apart.lock s wait) fun held => ?_
    cases held with
    | false => exact Spares.bind looked fun _ => spares_pure _
    | true =>
      refine Spares.bind signed fun r => ?_
      cases r with
      | ok _ => exact spares_pure _
      | error e => exact Spares.bind apart.unlock fun _ => spares_pure _

/-! ## The ledger in the file -/

/-- The ledger that the file holds, which is empty without a file; none if it cannot be read. -/
def table? (files : Files serve directory) (s : σ) : Option (Table Bytes) :=
  match files.ledger s with
  | none => some Table.empty
  | some bytes => (LedgerFile.decode bytes).toOption

theorem table?_congr {s s' : σ} (same : files.ledger s' = files.ledger s) :
    files.table? s' = files.table? s := by rw [table?, table?, same]

theorem table?_of_encode {s : σ} {t : Table Bytes} (fits : t.FitsFile)
    (holds : files.ledger s = some (LedgerFile.encode t)) : files.table? s = some t := by
  rw [table?, holds]
  simp only [LedgerFile.decode_encode fits, Except.toOption]

theorem fitsFile_of_table? {s : σ} {t : Table Bytes} (h : files.table? s = some t) :
    t.FitsFile := by
  unfold table? at h
  split at h
  · obtain rfl := Option.some.inj h
    intro entry member
    contradiction
  · next bytes _ =>
    cases read : LedgerFile.decode bytes with
    | error e => rw [read] at h; contradiction
    | ok t' =>
      rw [read] at h
      obtain rfl := Option.some.inj h
      exact LedgerFile.fitsFile_of_decode read

/-- A store is opened with the ledger in the file, which stays as it is. -/
theorem Apart.ends_load (apart : files.Apart) (s : σ) :
    Ends serve (ExceptT.mk (Store.load directory)) s fun r s' => files.ledger s' = files.ledger s ∧
      ∀ store, r = .ok store → ∃ former, store = ⟨some directory, former⟩ ∧
        files.table? s = some former := by
  have reading : (Program.run serve (Store.load directory) s).1 =
      Store.ofFile directory (serve (.read (ledgerFile directory)) s).1 := rfl
  refine ⟨apart.read s, fun store opened => ?_⟩
  rw [ExceptT.run_mk, reading, files.read] at opened
  unfold table?
  cases held : files.ledger s with
  | none =>
    rw [held] at opened
    exact ⟨_, (Except.ok.inj opened).symm, rfl⟩
  | some bytes =>
    simp only [held, Store.ofFile] at opened
    split at opened
    · next t read =>
      refine ⟨t, (Except.ok.inj opened).symm, ?_⟩
      simp only [read, Except.toOption]
    · contradiction

end Disk.Files

/-! ## Launches on any disk -/

namespace Signer

variable {files : Files serve directory} {keys : List PublicKey}

/-- How opening a signer may end for the ledger file: with the signer and its keys registered, with
    an error and the file as it was, or with an error behind a registration that is in the file
    but was not made durable. -/
inductive Settles (files : Files serve directory) (keys : List PublicKey) (s : σ) :
    Except Failure Store → σ → Prop where
  | opened {former table : Table Bytes} {s' : σ} : files.table? s = some former →
    former.Registers keys table → files.table? s' = some table →
      Settles files keys s (.ok ⟨some directory, table⟩) s'
  | kept {f : Failure} {s' : σ} : files.ledger s' = files.ledger s →
    Settles files keys s (.error f) s'
  | late {former : Table Bytes} {f : Failure} {s' : σ} : files.table? s = some former →
    files.ledger s' =
        some (LedgerFile.encode (former.applyBatch (former.registration keys))) →
      (∃ s₁, Store.Unsettled serve directory s₁) → Settles files keys s (.error f) s'

/-- What was opened on a disk with the same file was opened on this one. -/
theorem Settles.congr {s s₁ s' : σ} {r : Except Failure Store}
    (h : Settles files keys s₁ r s') (same : files.ledger s₁ = files.ledger s) :
    Settles files keys s r s' := by
  have table := Files.table?_congr same
  cases h with
  | opened read registers saved => exact .opened (table.symm.trans read) registers saved
  | kept unchanged => exact .kept (unchanged.trans same)
  | late read written unsettled => exact .late (table.symm.trans read) written unsettled

/-- Registering keys writes their batch to the ledger file, or leaves it, or fails behind the
    rename. -/
theorem settles_registerKeys (bls : ∀ key ∈ keys, key.isBls) (g : Guard) {former : Table Bytes}
    {s : σ} (read : files.table? s = some former) :
    Ends serve (registerKeys keys g ⟨some directory, former⟩) s fun r s' =>
      (∀ g' store, r = .ok (g', store) → g'.config = g.config) ∧
        Settles files keys s (r.map Prod.snd) s' := by
  unfold registerKeys
  by_cases none : keys = []
  · subst none
    refine ⟨fun g' store same => ?_, .opened read former.registers_nil read⟩
    obtain ⟨rfl, -⟩ := Prod.mk.inj (Except.ok.inj same)
    rfl
  rw [if_neg (by simpa using none), ends_lift_bind, perform, Store.run_eq_through]
  have ends := (Guard.commits_register bls ⟨g, .zero⟩ former).persists
    (s := ⟨some directory, former⟩) rfl serve s
  generalize Program.run (ι := Store.calls) (Store.through serve) _ _ = out at ends ⊢
  obtain ⟨⟨r, c⟩, store, s'⟩ := out
  dsimp only at ends ⊢
  have registers := former.registers_applyBatch none
  -- The batch is the only write: it is never tried, or it is saved, or saving it fails.
  cases ends with
  | unsaved known =>
    cases r with
    | error e => exact ⟨fun _ _ same => by contradiction, .kept rfl⟩
    | ok _ =>
      obtain ⟨config, same⟩ := known rfl
      rw [same] at registers
      refine ⟨fun g' store same => ?_, .opened read registers read⟩
      obtain ⟨rfl, -⟩ := Prod.mk.inj (Except.ok.inj same)
      exact config
  | saved known saved =>
    obtain ⟨rfl, config, rfl⟩ := known
    have ends := Store.save_ends files (former.applyBatch (former.registration keys)) s
    rw [Ends, saved] at ends
    have fits := (Files.fitsFile_of_table? read).applyBatch (former.fitsFile_registration bls)
    refine ⟨fun g' store same => ?_,
      .opened read registers (Files.table?_of_encode fits ends)⟩
    obtain ⟨rfl, -⟩ := Prod.mk.inj (Except.ok.inj same)
    exact config
  | failed known aimed saved =>
    obtain ⟨_, failed⟩ := known
    obtain rfl : r = .error _ := failed
    obtain ⟨_, -, -, rfl⟩ := aimed
    have ends := Store.save_ends files (former.applyBatch (former.registration keys)) s
    rw [Ends, saved] at ends
    refine ⟨fun _ _ same => by contradiction, ?_⟩
    -- A save that fails has not renamed yet, or it has, and the directory was not made durable.
    rcases ends with kept | ⟨written, unsettled⟩
    · exact .kept kept
    · exact .late read written ⟨_, unsettled⟩

variable {config : SignerConfig}

/-- What is set up in a directory. -/
theorem settles_assemble (apart : files.Apart) (checked : config.check = .ok ())
    (kind : config.storage.backend = .file) (home : config.storage.dataDirectory = directory)
    (s : σ) : ∃ keys, config.publicKeys = .ok keys ∧
      Ends serve (assemble config) s fun r s' => Settles files keys s (r.map Signer.store) s' := by
  obtain ⟨keys, guard, readKeys, -, steps⟩ := assemble_eq checked
  have bls := SignerConfig.isBls_of_publicKeys readKeys
  refine ⟨keys, readKeys, ?_⟩
  have opened : Ends serve (openStore config.storage) s fun r s' =>
      files.ledger s' = files.ledger s ∧ ∀ store, r = .ok store →
        ∃ former, store = ⟨some directory, former⟩ ∧ files.table? s = some former := by
    unfold openStore
    rw [kind, home]
    have made : Ends serve (makeDirectories directory) s fun _ s' =>
        files.ledger s' = files.ledger s := files.makeDirectories s
    refine ends_of_bind made (fun _ _ same => ⟨same, fun _ h => by contradiction⟩)
      fun _ s₁ same => ?_
    refine ends_of (apart.ends_load s₁) (fun _ _ loaded => ⟨loaded.1.trans same, ?_⟩)
      fun store s₂ ⟨same', loaded⟩ => ⟨same'.trans same, fun store' h => ?_⟩
    · exact fun _ h => by contradiction
    · obtain rfl := Except.ok.inj h
      rw [← Files.table?_congr same]
      exact loaded store rfl
  rw [steps]
  refine opened.bind (fun _ _ kept => .kept kept.1) fun store s₁ ⟨same, loaded⟩ => ?_
  obtain ⟨former, rfl, read⟩ := loaded store rfl
  have read : files.table? s₁ = some former := (Files.table?_congr same).trans read
  refine (settles_registerKeys bls guard read).bind (fun _ _ ends => ends.2.congr same)
    fun (g, store) s₂ ends => ?_
  exact ends.2.congr same

/-- On any disk where the lock file has nothing to do with the ledger file, opening a signer
    registers its keys, or fails and leaves the ledger file, or fails because the directory could
    not be made durable, with the keys in the file. -/
theorem settles_launch (apart : files.Apart) (checked : config.check = .ok ())
    (kind : config.storage.backend = .file) (home : config.storage.dataDirectory = directory)
    (s : σ) : ∃ keys, config.publicKeys = .ok keys ∧
      Ends serve (launch config) s fun r s' => Settles files keys s (r.map Signer.store) s' := by
  have durable : isDurable config.storage.backend = true := by rw [kind]; rfl
  obtain ⟨keys, readKeys, -⟩ := settles_assemble apart checked kind home s
  refine ⟨keys, readKeys, ?_⟩
  have taken : Ends serve (ExceptT.mk (acquire directory config.storage.lockWait)) s fun _ s' =>
      files.ledger s' = files.ledger s := apart.acquire _ s
  rw [launch_eq checked, Signer.lock, if_pos durable, home]
  refine ends_of_bind taken (fun _ _ same => .kept same) fun _ s₁ same => ?_
  obtain ⟨keys', readKeys', ends⟩ := settles_assemble apart checked kind home s₁
  obtain rfl := Except.ok.inj (readKeys.symm.trans readKeys')
  rw [ends_lift_bind]
  unfold Ends at ends
  generalize Program.run serve (assemble config).run s₁ = out at ends ⊢
  obtain ⟨r, s₂⟩ := out
  cases r with
  | ok signer => exact ends.congr same
  | error f =>
    -- Giving the lock back leaves what has become of the file.
    have given : files.Spares (Signer.unlock config.storage) := by
      rw [Signer.unlock, if_pos durable, home]
      exact apart.unlock
    show Ends _ (ExceptT.lift _ >>= _) _ _
    rw [ends_lift_bind]
    have ends : Settles files keys s (.error f) s₂ := ends.congr same
    cases ends with
    | kept unchanged => exact .kept ((given s₂).trans unchanged)
    | late read written unsettled => exact .late read ((given s₂).trans written) unsettled

/-- So where the directory can always be made durable, a launch is all or nothing for the ledger
    file. -/
theorem kept_of_settled (settled : ∀ s, (serve (.sync (itself directory)) s).1 = .ok ()) {s s' : σ}
    {f : Failure} (ends : Settles files keys s (.error f) s') :
    files.ledger s' = files.ledger s := by
  cases ends with
  | kept same => exact same
  | late _ _ unsettled =>
    obtain ⟨_, s₁, e, failed⟩ := unsettled
    have done := settled s₁
    rw [failed] at done
    contradiction

/-! ## Two disks on which a failed launch leaves another file -/

/-- A tree of files on which a data directory cannot be made durable. -/
def unsettled (directory : String) : Server Tree
  | .sync path, t =>
    if path = itself directory then (.error (.other "Input/output error (os error 5)"), t)
    else Tree.serve (.sync path) t
  | call, t => Tree.serve call t

/-- Where the configured keys cannot be made durable, the signer does not open, and the key that is
    new is registered in the ledger file. -/
theorem launch_fails_registered :
    let former := Table.empty.applyBatch (Table.empty.registration [⟨List.replicate 48 0x11⟩])
    let keys : List PublicKey := [⟨List.replicate 48 0x22⟩, ⟨List.replicate 48 0x11⟩]
    let out := Program.run (unsettled "./data") (launch threeListed).run servedOnce
    out.1.map Signer.config = .error ((Failure.plain
        "Storage fault: KV store I/O error: Input/output error (os error 5)").during
      "registering configured validators") ∧
      servedOnce.file? (ledgerRoute servedOnce "./data") = some (LedgerFile.encode former) ∧
      out.2.file? (ledgerRoute servedOnce "./data") =
        some (LedgerFile.encode (former.applyBatch (former.registration keys))) ∧
      out.2.file? (ledgerRoute servedOnce "./data") ≠
        servedOnce.file? (ledgerRoute servedOnce "./data") := by
  decide +kernel

/-- A tree of files on which the lock file of a directory is a second name of its ledger file. -/
def lockedByName (directory : String) (call : Call) (t : Tree) : call.Reply × Tree :=
  let file (path : String) := if path = lockFile directory then ledgerFile directory else path
  match call with
  | .ensure path => Tree.serve (.ensure (file path)) t
  | .lock path wait => Tree.serve (.lock (file path) wait) t
  | .write path bytes => Tree.serve (.write (file path) bytes) t
  | .sync path => Tree.serve (.sync (file path)) t
  | .read path => Tree.serve (.read (file path)) t
  | .unlock path => Tree.serve (.unlock (file path)) t
  | call => Tree.serve call t

/-- There the signer writes its number over the ledger, which it cannot open then. -/
theorem launch_overwrites_linked :
    let out := Program.run (lockedByName "./data") (launch threeListed).run servedOnce
    out.1.map Signer.config = .error ((Failure.plain
        "KV store corruption: ledger file truncated at byte 0").during
      "opening ledger ./data/slashing-protection.db") ∧
      out.2.file? (ledgerRoute servedOnce "./data") = some (Bytes.ofText "7\n") := by
  decide +kernel

end Signer

end SlashingGuard
