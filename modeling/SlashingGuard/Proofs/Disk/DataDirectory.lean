import SlashingGuard.Disk.Lock
import SlashingGuard.Proofs.Disk.Keeping
import SlashingGuard.Proofs.Store.FileFormat

/-! # Work in a data directory

    A data directory holds the lock file, the ledger file and the draft of the
    next ledger file.  On a tree of files, locking the directory touches the
    lock file only; reading the ledger file touches nothing; and a save that
    fails has touched the draft only, since nothing that it does behind the
    rename can fail there. -/

namespace SlashingGuard

open Disk Disk.Tree

namespace DataDirectory

theorem isName_ledger : Path.IsName "slashing-protection.db" := by constructor <;> decide

theorem isName_draft : Path.IsName "slashing-protection.tmp" := by constructor <;> decide

theorem isName_lock : Path.IsName "LOCK" := by constructor <;> decide

/-- The route of the ledger file of a data directory. -/
def ledgerRoute (t : Tree) (directory : String) : Route :=
  t.routeOf directory ++ ["slashing-protection.db"]

/-- The route of the draft beside the ledger file. -/
def draftRoute (t : Tree) (directory : String) : Route :=
  t.routeOf directory ++ ["slashing-protection.tmp"]

/-- The route of the lock file. -/
def lockRoute (t : Tree) (directory : String) : Route := t.routeOf directory ++ ["LOCK"]

theorem ledgerRoute_ne_draftRoute (t : Tree) (directory : String) :
    ledgerRoute t directory ≠ draftRoute t directory := by
  simp [ledgerRoute, draftRoute]

theorem ledgerRoute_ne_lockRoute (t : Tree) (directory : String) :
    ledgerRoute t directory ≠ lockRoute t directory := by
  simp [ledgerRoute, lockRoute]

theorem lockRoute_ne_draftRoute (t : Tree) (directory : String) :
    lockRoute t directory ≠ draftRoute t directory := by
  simp [lockRoute, draftRoute]

/-- What is touched beside the ledger file. -/
def sideRoutes (t : Tree) (directory : String) : List Route :=
  [lockRoute t directory, draftRoute t directory]

theorem ledgerRoute_not_mem_sideRoutes (t : Tree) (directory : String) :
    ledgerRoute t directory ∉ sideRoutes t directory := by
  simp [sideRoutes, ledgerRoute_ne_lockRoute, ledgerRoute_ne_draftRoute]

variable {changed : List Route} {t u : Tree}

theorem ledgerRoute_of_keeps (kept : Keeps changed t u) (directory : String) :
    ledgerRoute u directory = ledgerRoute t directory := congrArg (· ++ _) (kept.routeOf directory)

theorem draftRoute_of_keeps (kept : Keeps changed t u) (directory : String) :
    draftRoute u directory = draftRoute t directory := congrArg (· ++ _) (kept.routeOf directory)

/-! ## Saves -/

/-- A save that succeeds puts the ledger file and takes the draft away.  One that fails leaves all
    but the draft. -/
theorem save_ends_tree (t : Tree) (directory : String) (table : Table Bytes) :
    Ends Tree.serve (Store.save directory table) t fun r u =>
      match r with
      | .ok () => Leaves [draftRoute t directory, ledgerRoute t directory] t u ∧
        u.node? (ledgerRoute t directory) = some (.file (LedgerFile.encode table))
      | .error _ => Leaves [draftRoute t directory] t u := by
  -- Up to the rename only the draft is touched.
  refine (ends_makeDirectories t directory).bind (fun _ _ made => made.1.mono (List.nil_subset _))
    fun _ t₁ ⟨made, leads⟩ => ?_
  have leads := leads rfl
  have made := made.mono (List.nil_subset [draftRoute t directory])
  refine (ends_create leads isName_draft).bind (fun _ _ created => made.trans created)
    fun _ t₂ created => ?_
  have leads := created.leads leads
  have created := made.trans created
  refine (ends_write leads isName_draft _).bind (fun _ _ written => created.trans written.1)
    fun _ t₃ ⟨written, _, holds⟩ => ?_
  have leads := written.leads leads
  have written := created.trans written
  -- What can be made durable is no stream, so it holds what was written.
  refine (ends_sync leads isName_draft).bind (fun _ _ synced => synced.1 ▸ written)
    fun _ t₄ ⟨same, solid⟩ => ?_
  subst same
  have holds := (holds rfl).resolve_right (solid rfl)
  have apart : "slashing-protection.tmp" ≠ "slashing-protection.db" := by decide
  refine (ends_rename leads isName_draft isName_ledger apart).bind
    (fun e _ moved => moved.1 e rfl ▸ written) fun _ t₅ ⟨_, moves⟩ => ?_
  obtain ⟨moved, put⟩ := moves rfl
  refine (moved.leads leads).ends_sync_itself.mono ?_
  rintro r u ⟨rfl, rfl⟩
  exact ⟨(written.mono (by simp)).trans moved, put _ holds⟩

/-! ## Locks -/

/-- A directory that is prepared is there and has a lock file. -/
theorem ends_prepare (t : Tree) (directory : String) :
    Ends Tree.serve (prepare directory) t fun r u => Leaves [lockRoute t directory] t u ∧
      (r = .ok () → u.Has directory "LOCK" (t.routeOf directory)) := by
  refine (ends_makeDirectories t directory).bind
    (fun _ _ made => ⟨made.1.mono (List.nil_subset _), nofun⟩) fun _ t₁ ⟨made, leads⟩ => ?_
  have leads := leads rfl
  have made := made.mono (List.nil_subset [lockRoute t directory])
  have looked : Ends Tree.serve (ExceptT.lift (strays directory (lockFile directory)) :
      Attempt Bool) t₁ fun r u => u = t₁ ∧ ∃ outside, r = .ok outside := ⟨rfl, _, rfl⟩
  refine looked.bind (fun _ _ failed => nomatch failed.2) fun outside t₂ ⟨same, _⟩ => ?_
  subst same
  cases outside with
  | true => exact ⟨made, nofun⟩
  | false =>
    refine (ends_ensure leads isName_lock).mono fun r u ⟨ensured, has⟩ => ?_
    exact ⟨made.trans ensured, has⟩

/-- Writing into a lock file leaves one there. -/
theorem ends_sign {t : Tree} {directory : String} {home : Route}
    (has : t.Has directory "LOCK" home) :
    Ends Tree.serve (ExceptT.mk (sign (lockFile directory))) t fun _ u =>
      Leaves [home ++ ["LOCK"]] t u ∧ u.Has directory "LOCK" home := by
  let text := Bytes.ofText (Decimal.write t.process ++ "\n")
  have written : Ends Tree.serve (do
      Disk.write (lockFile directory) text
      Disk.sync (lockFile directory)) t fun _ u =>
        Leaves [home ++ ["LOCK"]] t u ∧ u.Has directory "LOCK" home := by
    have kept : ∀ {u : Tree}, Leaves [home ++ ["LOCK"]] t u →
        (t.node? (home ++ ["LOCK"]) ≠ none → u.node? (home ++ ["LOCK"]) ≠ none) →
          u.Has directory "LOCK" home :=
      fun left there => ⟨left.leads has.leads, has.fits, there has.there⟩
    refine (ends_write has.leads isName_lock text).bind
      (fun _ _ ⟨left, there, _⟩ => ⟨left, kept left there⟩) fun _ t₁ ⟨left, there, _⟩ => ?_
    refine (ends_sync (left.leads has.leads) isName_lock).mono ?_
    rintro r u ⟨rfl, -⟩
    exact ⟨left, kept left there⟩
  unfold sign
  refine ends_mk_bind.2 (written.mk_bind fun r u kept => ?_)
  exact kept

/-- Reading a text changes nothing. -/
theorem ends_readText (t : Tree) (path : String) :
    Ends Tree.serve (readText path) t fun _ u => u = t := by
  have reading : Ends Tree.serve (Disk.read path) t fun _ u => u = t := rfl
  refine reading.bind (fun _ _ same => same) ?_
  rintro bytes u rfl
  cases Bytes.toText? bytes <;> exact rfl

/-- Whoever gets the lock holds it; whoever does not leaves the locks as they are.  Only the lock
    file is touched. -/
theorem ends_acquire (t : Tree) (directory : String) (wait : Duration) :
    Ends Tree.serve (ExceptT.mk (acquire directory wait)) t fun r u =>
      match r with
      | .ok () => Keeps [lockRoute t directory] t u ∧
        u.locked = lockRoute t directory :: t.locked ∧
        u.Has directory "LOCK" (t.routeOf directory)
      | .error _ => Leaves [lockRoute t directory] t u := by
  unfold acquire
  refine ends_mk_bind.2 ?_
  split
  · exact .refl _ t
  refine (ends_prepare t directory).mk_bind fun r u ⟨made, has⟩ => ?_
  cases r with
  | error reason => exact made
  | ok _ =>
    have has := has rfl
    have asked : Program.run Tree.serve (Disk.lock (lockFile directory) wait) u = _ :=
      has.serve_lock isName_lock wait
    refine ends_mk_bind.2 ?_
    rw [asked]
    split
    · -- Somebody else holds it, whom the lock file may name.
      refine (ends_readText u (lockFile directory)).mk_bind fun contents v same => ?_
      subst same
      exact made
    · have locked := keeps_locked u (lockRoute t directory :: u.locked)
      have signed := ends_sign (locked.has List.not_mem_nil has)
      refine signed.mk_bind fun r v ⟨left, has⟩ => ?_
      have kept : Keeps [lockRoute t directory] t v :=
        made.toKeeps.trans ((locked.mono (List.nil_subset _)).trans left.toKeeps)
      have held : v.locked = lockRoute t directory :: t.locked :=
        left.locked.trans (congrArg _ made.locked)
      cases r with
      | ok _ => exact ⟨kept, held, has⟩
      | error e =>
        -- The lock is given back.
        have asked : Program.run Tree.serve (Disk.unlock (lockFile directory)) v = _ :=
          has.serve_unlock isName_lock
        refine ends_mk_bind.2 ?_
        rw [asked]
        refine ⟨kept.trans ((keeps_locked v _).mono (List.nil_subset _)), ?_⟩
        show v.locked.erase (lockRoute t directory) = t.locked
        rw [held, List.erase_cons_head]

/-! ## Ledgers -/

/-- The ledger that a data directory holds: the one in the ledger file, or an empty one without a
    file.  There is none if the file cannot be read. -/
def ledger? (t : Tree) (directory : String) : Option (Table Bytes) :=
  match t.node? (ledgerRoute t directory) with
  | none => some Table.empty
  | some node => node.contents.toOption.bind fun bytes => (LedgerFile.decode bytes).toOption

/-- What was read from a file can be written to one. -/
theorem fitsFile_of_ledger? {t : Tree} {directory : String} {table : Table Bytes}
    (h : ledger? t directory = some table) : table.FitsFile := by
  unfold ledger? at h
  split at h
  · obtain rfl := Option.some.inj h
    exact nofun
  · obtain ⟨bytes, -, decoded⟩ := Option.bind_eq_some_iff.1 h
    cases result : LedgerFile.decode bytes with
    | error e => simp [result, Except.toOption] at decoded
    | ok entries =>
      obtain rfl : entries = table := by simpa [result, Except.toOption] using decoded
      exact LedgerFile.fitsFile_of_decode result

/-- What can be read in a directory was there before other things were changed. -/
theorem ledger?_of_keeps {changed : List Route} {t u : Tree} (kept : Keeps changed t u)
    {directory : String} (other : ledgerRoute t directory ∉ changed) {table : Table Bytes}
    (h : ledger? u directory = some table) : ledger? t directory = some table := by
  unfold ledger? ledgerRoute at *
  rw [kept.routeOf] at h
  rcases kept.others _ other with same | ⟨-, blocked⟩
  · rwa [same] at h
  · simp [blocked, Node.contents, Except.toOption] at h

theorem ledger?_of_node {t : Tree} {directory : String} {table : Table Bytes}
    (fits : table.FitsFile)
    (holds : t.node? (ledgerRoute t directory) = some (.file (LedgerFile.encode table))) :
    ledger? t directory = some table := by
  simp [ledger?, holds, Node.contents, Except.toOption, LedgerFile.decode_encode fits]

/-- Opening a store changes nothing; the store that it gives has the ledger of the directory. -/
theorem ends_load {t : Tree} {directory : String}
    (leads : t.Leads directory (t.routeOf directory)) :
    Ends Tree.serve (ExceptT.mk (Store.load directory)) t fun r u => u = t ∧
      ∀ s, r = .ok s → ∃ table, s = ⟨some directory, table⟩ ∧
        ledger? t directory = some table := by
  refine Ends.mk_bind (k := fun reply => .done (Store.ofFile directory reply))
    (ends_read leads isName_ledger) ?_
  rintro reply u ⟨rfl, given⟩
  refine ⟨rfl, fun s opened => ?_⟩
  have opened : Store.ofFile directory reply = .ok s := opened
  unfold ledger? ledgerRoute
  cases fits : tooLong directory "slashing-protection.db" with
  | true =>
    rw [if_pos fits] at given
    rw [given] at opened
    contradiction
  | false =>
    rw [fits, if_neg Bool.false_ne_true] at given
    cases there : u.node? (u.routeOf directory ++ ["slashing-protection.db"]) with
    | none =>
      rw [there] at given
      rw [given] at opened
      exact ⟨_, (Except.ok.inj opened).symm, rfl⟩
    | some node =>
      have given : reply = node.contents := by rw [given, there]
      rw [given] at opened
      cases contents : node.contents with
      | error e =>
        rw [contents] at opened
        cases node with
        | directory =>
          obtain rfl := Except.error.inj contents
          contradiction
        | file _ => contradiction
        | stream => contradiction
      | ok bytes =>
        rw [contents] at opened
        cases decoded : LedgerFile.decode bytes with
        | error e => simp [Store.ofFile, decoded] at opened
        | ok table =>
          refine ⟨table, ?_, ?_⟩
          · simpa [Store.ofFile, decoded] using opened.symm
          · simp [contents, Except.toOption, decoded]

end DataDirectory

end SlashingGuard
