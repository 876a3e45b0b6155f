import SlashingGuard.Proofs.Store.LedgerFile
import SlashingGuard.Store.Durable

/-! # How a save ends

    A store with a data directory saves its table in six calls on the disk,
    and the first one that fails ends the save.  Of the disk little is asked:
    only a rename that succeeds changes the ledger file, and a draft holds
    what was written to it.  A call that fails may leave anything in the
    draft.

    A batch that fails is not seen by later reads.  The ledger file is the old
    one too, with one exception: the fifth call replaces the file, so where
    the sixth one fails, which makes the directory durable, the batch has
    failed and is in the file.  Then the store and its file differ until a
    batch is saved or the store is opened again. -/

namespace SlashingGuard

variable {α β σ : Type}

/-! ## Disks -/

namespace Disk

/-- A disk: what it replies to a call, and its state behind the call. -/
abbrev Server (σ : Type) : Type := (call : Call) → σ → call.Reply × σ

/-- What a disk holds of a data directory: the contents of the ledger file and of the draft beside
    it, if there are such files, and what calls do to them.  Any call of a save may fail. -/
structure Files (serve : Server σ) (directory : String) where
  ledger : σ → Option Bytes
  draft : σ → Option Bytes
  read : ∀ s, (serve (.read (DataDirectory.ledgerFile directory)) s).1 =
    match ledger s with
    | some bytes => .ok bytes
    | none => .error .notFound
  makeDirectories : ∀ s, ledger (serve (.makeDirectories directory) s).2 = ledger s
  create : ∀ s, ledger (serve (.create (DataDirectory.draftFile directory)) s).2 = ledger s
  write : ∀ s bytes,
    ledger (serve (.write (DataDirectory.draftFile directory) bytes) s).2 = ledger s
  written : ∀ s bytes, (serve (.write (DataDirectory.draftFile directory) bytes) s).1 = .ok () →
    draft (serve (.write (DataDirectory.draftFile directory) bytes) s).2 = some bytes
  sync : ∀ s path, ledger (serve (.sync path) s).2 = ledger s
  synced : ∀ s path, draft (serve (.sync path) s).2 = draft s
  renamed : ∀ s, (serve (.rename (DataDirectory.draftFile directory)
      (DataDirectory.ledgerFile directory)) s).1 = .ok () →
    ledger (serve (.rename (DataDirectory.draftFile directory)
      (DataDirectory.ledgerFile directory)) s).2 = draft s
  unrenamed : ∀ s e, (serve (.rename (DataDirectory.draftFile directory)
      (DataDirectory.ledgerFile directory)) s).1 = .error e →
    ledger (serve (.rename (DataDirectory.draftFile directory)
      (DataDirectory.ledgerFile directory)) s).2 = ledger s

/-- However work on a disk ends, its result and the state left are as `Q` says. -/
def Ends {ε : Type} (serve : Server σ) (w : ExceptT ε (Program calls) α) (s : σ)
    (Q : Except ε α → σ → Prop) : Prop :=
  Q (Program.run serve w.run s).1 (Program.run serve w.run s).2

theorem ends_bind {ε : Type} {serve : Server σ} {w : ExceptT ε (Program calls) α}
    {k : α → ExceptT ε (Program calls) β} {s : σ} {Q : Except ε β → σ → Prop} :
    Ends serve (w >>= k) s Q ↔ Ends serve w s fun r s' =>
      match r with
      | .ok a => Ends serve (k a) s' Q
      | .error e => Q (.error e) s' := by
  unfold Ends
  show Q (Program.run serve (Program.bind w.run _) s).1
    (Program.run serve (Program.bind w.run _) s).2 ↔ _
  rw [Program.run_bind]
  cases (Program.run serve w.run s).1 <;> rfl

/-- A call that fails ends an attempt, and one that does not lets it go on. -/
theorem ends_call_bind {serve : Server σ} {w : Attempt Unit} {k : Unit → Attempt β}
    {s : σ} {reply : Except IoError Unit × σ} {Q : Except IoError β → σ → Prop}
    (call : Program.run serve w.run s = reply)
    (failed : ∀ e, reply.1 = .error e → Q (.error e) reply.2)
    (done : reply.1 = .ok () → Ends serve (k ()) reply.2 Q) :
    Ends serve (w >>= k) s Q := by
  rw [ends_bind, Ends, call]
  cases h : reply.1 with
  | ok _ => exact done h
  | error e => exact failed e h

theorem Ends.mono {ε : Type} {serve : Server σ} {w : ExceptT ε (Program calls) α} {s : σ}
    {P Q : Except ε α → σ → Prop} (h : Ends serve w s P) (imp : ∀ r s', P r s' → Q r s') :
    Ends serve w s Q := imp _ _ h

/-- What a program gives is known to what is done with it. -/
theorem ends_mk_bind {ε : Type} {serve : Server σ} {p : DiskProgram α}
    {k : α → DiskProgram (Except ε β)} {s : σ} {Q : Except ε β → σ → Prop} :
    Ends serve (ExceptT.mk (p >>= k)) s Q ↔
      Ends serve (ExceptT.mk (k (Program.run serve p s).1)) (Program.run serve p s).2 Q := by
  unfold Ends
  rw [ExceptT.run_mk, ExceptT.run_mk, Program.bind_eq, Program.run_bind]

/-- So is the result of work, also an error. -/
theorem Ends.mk_bind {ε ε' : Type} {serve : Server σ} {p : DiskProgram (Except ε α)}
    {k : Except ε α → DiskProgram (Except ε' β)} {s : σ} {P : Except ε α → σ → Prop}
    {Q : Except ε' β → σ → Prop} (h : Ends serve (ExceptT.mk p) s P)
    (next : ∀ r s', P r s' → Ends serve (ExceptT.mk (k r)) s' Q) :
    Ends serve (ExceptT.mk (p >>= k)) s Q := ends_mk_bind.2 (next _ _ h)

/-- One piece of work after another, each known by how it ends. -/
theorem Ends.bind {ε : Type} {serve : Server σ} {w : ExceptT ε (Program calls) α}
    {k : α → ExceptT ε (Program calls) β} {s : σ} {P : Except ε α → σ → Prop}
    {Q : Except ε β → σ → Prop} (h : Ends serve w s P)
    (failed : ∀ e s', P (.error e) s' → Q (.error e) s')
    (done : ∀ a s', P (.ok a) s' → Ends serve (k a) s' Q) :
    Ends serve (w >>= k) s Q := by
  rw [ends_bind]
  unfold Ends at h ⊢
  generalize Program.run serve w.run s = out at h
  obtain ⟨r, s'⟩ := out
  cases r with
  | ok a => exact done a s' h
  | error e => exact failed e s' h

end Disk

/-! ## Saves -/

namespace Store

open Disk

variable {serve : Server σ} {directory : String}

/-- The directory could not be made durable, which left the disk as it is. -/
def Unsettled (serve : Server σ) (directory : String) (s' : σ) : Prop :=
  ∃ s e, serve (.sync (DataDirectory.itself directory)) s = (.error e, s')

/-- A save that succeeds leaves the table in the ledger file.  One that fails leaves the file as it
    was, unless all that failed was to make the directory durable. -/
theorem save_ends (files : Files serve directory) (t : Table Bytes) (s : σ) :
    Ends serve (save directory t) s fun r s' =>
      match r with
      | .ok () => files.ledger s' = some (LedgerFile.encode t)
      | .error _ => files.ledger s' = files.ledger s ∨
          files.ledger s' = some (LedgerFile.encode t) ∧ Unsettled serve directory s' := by
  -- Up to the rename the ledger file is the one that was there.
  have made := files.makeDirectories s
  refine ends_call_bind rfl (fun _ _ => .inl made) fun _ => ?_
  have created := (files.create _).trans made
  refine ends_call_bind rfl (fun _ _ => .inl created) fun _ => ?_
  have written := (files.write _ (LedgerFile.encode t)).trans created
  refine ends_call_bind rfl (fun _ _ => .inl written) fun done => ?_
  have draft := files.written _ (LedgerFile.encode t) done
  have synced := (files.sync _ (DataDirectory.draftFile directory)).trans written
  refine ends_call_bind rfl (fun _ _ => .inl synced) fun _ => ?_
  have draft := (files.synced _ (DataDirectory.draftFile directory)).trans draft
  refine ends_call_bind rfl (fun e failed => .inl ((files.unrenamed _ e failed).trans synced))
    fun done => ?_
  -- From here on it is the new one.
  have renamed := (files.renamed _ done).trans draft
  have settled := (files.sync _ (DataDirectory.itself directory)).trans renamed
  dsimp only [Ends]
  split
  · exact settled
  · next e failed => exact .inr ⟨settled, _, e, Prod.ext failed rfl⟩

/-! ## Batches -/

/-- A batch is saved before it is seen. -/
theorem run_write (serve : Server σ) {s : Store} (home : s.home = some directory)
    (batch : List Change) (d : σ) :
    Program.run serve ((Store.serve (.write batch)).run s) d =
      match Program.run serve (save directory (s.table.applyBatch batch)).run d with
      | (.ok (), d') => ((.ok (), { s with table := s.table.applyBatch batch }), d')
      | (.error e, d') => ((.error (.io e.message), s), d') := by
  obtain ⟨_, table⟩ := s
  obtain rfl : _ = some directory := home
  refine (Program.run_bind serve (save directory (table.applyBatch batch)).run _ d).trans ?_
  dsimp only
  generalize Program.run serve (save directory (table.applyBatch batch)).run d = saved
  obtain ⟨_ | _, d'⟩ := saved <;> rfl

/-- How a batch ends for a store and its disk. -/
inductive BatchEnds (files : Files serve directory) (s : Store) (batch : List Change) (d : σ) :
    calls.Reply (.write batch) → Store → σ → Prop where
  | saved {d' : σ} : files.ledger d' = some (LedgerFile.encode (s.table.applyBatch batch)) →
    BatchEnds files s batch d (.ok ()) { s with table := s.table.applyBatch batch } d'
  | kept {d' : σ} {fault : StoreFault} : files.ledger d' = files.ledger d →
    BatchEnds files s batch d (.error fault) s d'
  | unsettled {d' : σ} {fault : StoreFault} :
    files.ledger d' = some (LedgerFile.encode (s.table.applyBatch batch)) →
      Unsettled serve directory d' → BatchEnds files s batch d (.error fault) s d'

/-- A batch is saved and seen by later reads, or fails and is not seen. -/
theorem batchEnds_write (files : Files serve directory) {s : Store} (home : s.home = some directory)
    (batch : List Change) (d : σ) :
    let out := Program.run serve ((Store.serve (.write batch)).run s) d
    BatchEnds files s batch d out.1.1 out.1.2 out.2 := by
  have ends := save_ends files (s.table.applyBatch batch) d
  intro out
  have written := run_write serve home batch d
  dsimp only [Ends] at ends
  rcases saved : Program.run serve (save directory (s.table.applyBatch batch)).run d with
    ⟨e | _, d'⟩ <;> rw [saved] at ends written
  · rw [show out = _ from written]
    rcases ends with kept | ⟨replaced, unsettled⟩
    · exact .kept kept
    · exact .unsettled replaced unsettled
  · rw [show out = _ from written]
    exact .saved ends

/-! ## Runs of batches -/

/-- Writes batches one after the other, whatever becomes of each, and gives those that did not
    fail. -/
def writeEach : List (List Change) → StateT Store DiskProgram (List (List Change))
  | [] => return []
  | batch :: rest => do
    match ← Store.serve (.write batch) with
    | .ok () => return batch :: (← writeEach rest)
    | .error _ => writeEach rest

/-- The ledger file holds a table; an empty table needs none. -/
def InStep (files : Files serve directory) (t : Table Bytes) (d : σ) : Prop :=
  files.ledger d = some (LedgerFile.encode t) ∨ files.ledger d = none ∧ t = Table.empty

theorem writeEach_cons {s : Store} (batch : List Change) (rest : List (List Change)) (d : σ) :
    Program.run serve ((writeEach (batch :: rest)).run s) d =
      let out := Program.run serve ((Store.serve (.write batch)).run s) d
      let more := Program.run serve ((writeEach rest).run out.1.2) out.2
      match out.1.1 with
      | .ok () => ((batch :: more.1.1, more.1.2), more.2)
      | .error _ => more := by
  refine (Program.run_bind serve ((Store.serve (.write batch)).run s) _ d).trans ?_
  generalize Program.run serve ((Store.serve (.write batch)).run s) d = out
  obtain ⟨⟨_ | _, s'⟩, d'⟩ := out
  · rfl
  · exact Program.run_bind serve ((writeEach rest).run s') _ d'

/-- The ledger file holds a table, or would hold it but for one of some batches, which failed to be
    made durable. -/
def Follows (files : Files serve directory) (batches : List (List Change)) (t : Table Bytes)
    (d : σ) : Prop :=
  InStep files t d ∨ (∃ d', Unsettled serve directory d') ∧
    ∃ batch ∈ batches, files.ledger d = some (LedgerFile.encode (t.applyBatch batch))

section Steps

variable {files : Files serve directory} {all : List (List Change)} {s s' : Store}
  {batch : List Change} {d d' : σ} {reply : calls.Reply (.write batch)}

theorem BatchEnds.home (h : BatchEnds files s batch d reply s' d') : s'.home = s.home := by
  cases h <;> rfl

/-- Only a batch that did not fail is seen. -/
theorem BatchEnds.table (h : BatchEnds files s batch d reply s' d') :
    s'.table = match reply with
      | .ok () => s.table.applyBatch batch
      | .error _ => s.table := by
  cases h <;> rfl

theorem BatchEnds.follows (h : BatchEnds files s batch d reply s' d') (among : batch ∈ all)
    (follows : Follows files all s.table d) : Follows files all s'.table d' := by
  cases h with
  | saved new => exact .inl (.inl new)
  | kept same =>
    unfold Follows InStep at follows ⊢
    rwa [same]
  | unsettled new unsettled => exact .inr ⟨⟨d', unsettled⟩, batch, among, new⟩

end Steps

/-- Whatever fails, a store goes on with the batches that did not fail, and its file follows it. -/
theorem follows_writeEach (files : Files serve directory) {all batches : List (List Change)}
    (among : ∀ batch ∈ batches, batch ∈ all) {s : Store} (home : s.home = some directory) {d : σ}
    (follows : Follows files all s.table d) :
    let out := Program.run serve ((writeEach batches).run s) d
    out.1.1.Sublist batches ∧
      out.1.2 = ⟨some directory, out.1.1.foldl Table.applyBatch s.table⟩ ∧
      Follows files all out.1.2.table out.2 := by
  induction batches generalizing s d with
  | nil =>
    obtain ⟨_, table⟩ := s
    obtain rfl : _ = some directory := home
    exact ⟨.slnil, rfl, follows⟩
  | cons batch rest ih =>
    obtain ⟨first, others⟩ := List.forall_mem_cons.1 among
    -- However the batch ends, the file follows the store that the rest starts from.
    have ends := batchEnds_write files home batch d
    rw [writeEach_cons]
    generalize Program.run serve ((Store.serve (.write batch)).run s) d = out at ends ⊢
    obtain ⟨⟨reply, s'⟩, d'⟩ := out
    obtain ⟨sub, more⟩ := ih others (ends.home.trans home) (ends.follows first follows)
    have table := ends.table
    cases reply with
    | ok _ =>
      rw [table] at more
      exact ⟨sub.cons_cons batch, more⟩
    | error _ =>
      rw [table] at more
      exact ⟨sub.cons batch, more⟩

/-! ## Opening again -/

/-- A store is opened with the table that its file holds. -/
theorem run_load (files : Files serve directory) {t : Table Bytes} (fits : t.FitsFile) {d : σ}
    (inStep : InStep files t d) :
    (Program.run serve (load directory) d).1 = .ok ⟨some directory, t⟩ := by
  have reading : (Program.run serve (load directory) d).1 =
      ofFile directory (serve (.read (DataDirectory.ledgerFile directory)) d).1 := rfl
  rw [reading, files.read]
  rcases inStep with held | ⟨missing, rfl⟩
  · rw [held]
    simp only [ofFile, LedgerFile.decode_encode fits]
  · rw [missing]
    rfl

end Store

/-- Whether the file form holds what a change brings. -/
def Change.FitsFile : Change → Prop
  | .put key value => key.length < 2 ^ 32 ∧ value.length < 2 ^ 32
  | .delete _ => True

theorem Table.FitsFile.apply {t : Table Bytes} (fits : t.FitsFile) {change : Change}
    (short : change.FitsFile) : (change.apply t).FitsFile := by
  intro entry member
  cases change with
  | put key value =>
    rcases Entries.mem_insert member with rfl | before
    · exact short
    · exact fits entry before
  | delete key => exact fits entry (List.mem_filter.1 member).1

theorem Table.FitsFile.applyBatch {t : Table Bytes} (fits : t.FitsFile) {batch : List Change}
    (short : ∀ change ∈ batch, change.FitsFile) : (t.applyBatch batch).FitsFile :=
  List.foldlRecOn batch Change.apply fits fun _ fits change member => fits.apply (short change member)

namespace Store

open Disk

variable {serve : Server σ} {directory : String}

/-- Where the directory can always be made durable, a store opened again has the table that the
    batches left which did not fail, whatever failed in between. -/
theorem reopen_writeEach (files : Files serve directory)
    (settles : ∀ d, (serve (.sync (DataDirectory.itself directory)) d).1 = .ok ())
    {batches : List (List Change)} (short : ∀ batch ∈ batches, ∀ change ∈ batch, change.FitsFile)
    {s : Store} (home : s.home = some directory) (fits : s.table.FitsFile) {d : σ}
    (inStep : InStep files s.table d) :
    let out := Program.run serve ((writeEach batches).run s) d
    out.1.2 = ⟨some directory, out.1.1.foldl Table.applyBatch s.table⟩ ∧
      (Program.run serve (load directory) out.2).1 = .ok out.1.2 := by
  intro out
  obtain ⟨sub, store, follows⟩ :=
    follows_writeEach files (fun batch (among : batch ∈ batches) => among) home (.inl inStep)
  -- What is left fits the file, since nothing was put into it but what the batches bring.
  have fits' : out.1.2.table.FitsFile := by
    rw [store]
    exact List.foldlRecOn out.1.1 Table.applyBatch fits fun _ fits batch member =>
      fits.applyBatch (short batch (sub.subset member))
  refine ⟨store, ?_⟩
  rcases follows with inStep | ⟨⟨d', d₁, e, failed⟩, -⟩
  · rw [run_load files fits' inStep, store]
  · -- No sync of the directory failed.
    have settled := settles d₁
    rw [failed] at settled
    contradiction

/-! ## A batch that fails and is in the file -/

/-- A disk with one ledger file and one draft, on which no directory can be made durable. -/
def brittle (directory : String) : Server (Option Bytes × Option Bytes)
  | .makeDirectories _, d => (.ok (), d)
  | .read _, d => (match d.1 with
    | some bytes => .ok bytes
    | none => .error .notFound, d)
  | .probe _, d => (.ok (), d)
  | .strays _ _, d => (false, d)
  | .create _, d => (.ok (), d.1, some [])
  | .ensure _, d => (.ok (), d)
  | .write _ bytes, d => (.ok (), d.1, some bytes)
  | .sync path, d =>
    (if path = DataDirectory.itself directory then .error (.other "Input/output error (os error 5)")
      else .ok (), d)
  | .rename _ _, d => (.ok (), d.2, none)
  | .lock _ _, d => (true, d)
  | .unlock _, d => ((), d)
  | .processId, d => (1, d)
  | .clock, d => (0, d)

def brittleFiles (directory : String) : Files (brittle directory) directory where
  ledger := Prod.fst
  draft := Prod.snd
  read _ := rfl
  makeDirectories _ := rfl
  create _ := rfl
  write _ _ := rfl
  written _ _ _ := rfl
  sync _ _ := rfl
  synced _ _ := rfl
  renamed _ _ := rfl
  unrenamed _ _ failed := by contradiction

/-- A batch fails on such a disk and is not seen, but is there when the store is opened again. -/
theorem failed_batch_reappears :
    let batch := [Change.put [1] [2]]
    let out := Program.run (brittle "") ((writeEach [batch]).run ⟨some "", Table.empty⟩) (none, none)
    out.1.1 = [] ∧ out.1.2.table = Table.empty ∧
      (Program.run (brittle "") (load "") out.2).1 =
        .ok ⟨some "", Table.empty.applyBatch batch⟩ := by
  intro batch out
  have fits : (Table.empty.applyBatch batch).FitsFile := by
    unfold Table.FitsFile
    decide +kernel
  have file : out.2.1 = some (LedgerFile.encode (Table.empty.applyBatch batch)) := by
    decide +kernel
  exact ⟨by decide +kernel, Table.ext (by decide +kernel), run_load (brittleFiles "") fits (.inl file)⟩

end Store

end SlashingGuard
