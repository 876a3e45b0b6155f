import SlashingGuard.Proofs.Ledger.Making
import SlashingGuard.Proofs.Store.Exchange

/-! # What a transaction holds back

    A transaction holds its changes back, and reads as if they were made.  This
    is said of changes that are held back directly and by the mutators of a
    ledger, in any order, on any table, legible or not, and whatever calls
    fail.  The table that counts is the table with the changes made one after
    the other in the order in which they were held back, however often they
    overwrite or delete the same key.  All three kinds of reading give what
    that table gives, and a commit leaves it. -/

namespace SlashingGuard

/-! ## Sequences of changes -/

/-- The result of a transaction, be it an error, with what is pending then. -/
def Transaction.attempt {α : Type} (tx : Transaction α) : Transaction (Except LedgerError α) :=
  ExceptT.lift tx.run

/-- A way to make a transaction hold changes back: one of them directly, or by a mutator. -/
inductive Holding where
  | direct (change : Change)
  | mutator (m : Mutation)
  deriving DecidableEq

namespace Holding

def perform : Holding → Transaction Unit
  | .direct (.put key value) => Transaction.put key value
  | .direct (.delete key) => Transaction.delete key
  | .mutator m => m.perform

/-- Holds back in order, and gives the results.  What a mutator that fails has held back stays, and
    the next is taken. -/
def performAll : List Holding → Transaction (List (Except LedgerError Unit))
  | [] => return []
  | h :: rest => do
    let result ← h.perform.attempt
    let results ← performAll rest
    return result :: results

/-- What it holds back where the table is seen and no call fails. -/
def changes (v : Table Bytes) : Holding → List Change
  | .direct c => [c]
  | .mutator m => m.changes v

/-- What a sequence holds back where no call fails: each sees the changes of those before it. -/
def changesAll (v : Table Bytes) : List Holding → List Change
  | [] => []
  | h :: rest => h.changes v ++ changesAll (v.applyBatch (h.changes v)) rest

/-- What a sequence holds back on the table that it sees, with its results: a direct change is held
    back, a mutator that succeeds holds back its changes, and so does one that fails, or the first
    of them if a call failed. -/
inductive Makes (faulty : Prop) :
    Table Bytes → List Holding → List (Except LedgerError Unit) → List Change → Prop
  | nothing (v : Table Bytes) : Makes faulty v [] [] []
  | direct {v : Table Bytes} {c : Change} {rest : List Holding}
      {results : List (Except LedgerError Unit)} {changes : List Change}
      (more : Makes faulty (c.apply v) rest results changes) :
      Makes faulty v (.direct c :: rest) (.ok () :: results) (c :: changes)
  | done {v : Table Bytes} {m : Mutation} {rest : List Holding}
      {results : List (Except LedgerError Unit)} {changes : List Change}
      (more : Makes faulty (v.applyBatch (m.changes v)) rest results changes) :
      Makes faulty v (.mutator m :: rest) (.ok () :: results) (m.changes v ++ changes)
  | failed {v : Table Bytes} {m : Mutation} {e : LedgerError} {made : List Change}
      {rest : List Holding} {results : List (Except LedgerError Unit)} {changes : List Change}
      (cut : Change.Cut faulty (m.changes v) made)
      (more : Makes faulty (v.applyBatch made) rest results changes) :
      Makes faulty v (.mutator m :: rest) (.error e :: results) (made ++ changes)

/-- Where no call fails, there is one list of changes. -/
theorem Makes.eq_changesAll {faulty : Prop} {v : Table Bytes} {holdings : List Holding}
    {results : List (Except LedgerError Unit)} {changes : List Change}
    (h : Makes faulty v holdings results changes) (sound : ¬ faulty) :
    changes = changesAll v holdings := by
  induction h with
  | nothing v => rfl
  | direct more ih =>
    rw [ih]
    rfl
  | done more ih =>
    rw [ih]
    rfl
  | failed cut more ih =>
    rcases cut with rfl | ⟨fails, -⟩
    · rw [ih]
      rfl
    · contradiction

open Transaction

variable {faulty : Prop} {t : Table Bytes}

/-- A transaction that is attempted leaves what it would leave, and is no error. -/
theorem leaves_attempt {α : Type} {tx : Transaction α} {p : Pending}
    {Q : Except LedgerError α → Pending → Prop} {E : LedgerError → Pending → Prop}
    (h : Leaves faulty tx t p (fun a => Q (.ok a)) fun e => Q (.error e)) :
    Leaves faulty tx.attempt t p Q E := by
  show Program.Always faulty (Program.bind (tx.run.run p) _) t _
  rw [Program.always_bind]
  refine Program.Always.mono h ?_
  rintro ⟨r, q⟩ t' ⟨same, post⟩
  refine ⟨same, ?_⟩
  cases r with
  | ok a => exact post
  | error e => exact post

theorem leaves_performAll (holdings : List Holding) (p : Pending) :
    Leaves faulty (performAll holdings) t p
      (fun results q => ∃ changes,
        Makes faulty (t.overlaid p) holdings results changes ∧ q = p.holdAll changes)
      fun _ _ => False := by
  induction holdings generalizing p with
  | nil => exact leaves_pure ⟨[], .nothing _, rfl⟩
  | cons h rest ih =>
    -- The rest sees what was held back before it.
    have goOn : ∀ (result : Except LedgerError Unit) (made : List Change),
        (∀ results changes, Makes faulty ((t.overlaid p).applyBatch made) rest results changes →
          Makes faulty (t.overlaid p) (h :: rest) (result :: results) (made ++ changes)) →
        Leaves faulty (performAll rest >>= fun results => pure (result :: results)) t
          (p.holdAll made)
          (fun results q => ∃ changes,
            Makes faulty (t.overlaid p) (h :: rest) results changes ∧ q = p.holdAll changes)
          fun _ _ => False := by
      intro result made extend
      refine Leaves.bind ((ih (p.holdAll made)).mono ?_ fun _ _ none => none)
      rintro results q ⟨changes, makes, rfl⟩
      rw [Table.overlaid_holdAll] at makes
      exact leaves_pure ⟨made ++ changes, extend results changes makes,
        (Pending.holdAll_append p made changes).symm⟩
    refine (leaves_attempt ?_).bind
    match h with
    | .direct (.put key value) =>
      exact leaves_put (goOn (.ok ()) [.put key value] fun _ _ more => .direct more)
    | .direct (.delete key) =>
      exact leaves_delete (goOn (.ok ()) [.delete key] fun _ _ more => .direct more)
    | .mutator m =>
      refine (m.makes_perform p).mono ?_ ?_
      · rintro _ q rfl
        exact goOn (.ok ()) _ fun _ _ more => .done more
      · rintro e q ⟨made, cut, rfl⟩
        exact goOn (.error e) made fun _ _ more => .failed cut more

end Holding

/-! ## Reading and committing -/

namespace Pending

/-- Through these pending writes a table reads as another one, and no reading writes. -/
structure ReadsAs (p : Pending) (t v : Table Bytes) : Prop where
  get : ∀ key, LedgerWork.onTable (Query.get key p) t = (.ok (v.answer (.get key)), t)
  contains : ∀ key, LedgerWork.onTable (Query.contains key p) t = (.ok (v.answer (.contains key)), t)
  scan : ∀ scope, LedgerWork.onTable (Query.scan scope p) t = (.ok (v.answer (.scan scope)), t)

/-- The one call of a commit and how it ends; a commit of nothing makes no call. -/
structure CommitsAs (p : Pending) (t v : Table Bytes) : Prop where
  nothing : p.isEmpty → v = t ∧ ∀ faults,
    (LedgerWork.commit p).run.exchanges faults t = [] ∧
      (LedgerWork.commit p).run.runFaulty faults t = (.ok (), t)
  done : p.isEmpty = false → ∀ faults, faults.head?.join = none →
    (LedgerWork.commit p).run.exchanges faults t = [⟨.write p.batch, none⟩] ∧
      (LedgerWork.commit p).run.runFaulty faults t = (.ok (), v)
  failed : p.isEmpty = false → ∀ faults fault, faults.head?.join = some fault →
    (LedgerWork.commit p).run.exchanges faults t = [⟨.write p.batch, some fault⟩] ∧
      (LedgerWork.commit p).run.runFaulty faults t = (.error (.store fault), t)

/-- A query gives on a table what it yields on the table seen. -/
theorem onTable_of_yields {α : Type} {q : Query α} {t : Table Bytes} {p : Pending}
    {r : Except LedgerError α} (h : q.Yields (t.overlaid p) r) :
    LedgerWork.onTable (q p) t = (r, t) := by
  let ends (r' : Except LedgerError α) (t' : Table Bytes) := (r', t') = (r, t)
  have always : (q p).run.Always False t ends := h False t p ends rfl rfl nofun
  exact always.run_serve

theorem readsAs_overlaid (t : Table Bytes) (p : Pending) : p.ReadsAs t (t.overlaid p) where
  get key := onTable_of_yields (Query.yields_get key)
  contains key := onTable_of_yields (Query.yields_contains key)
  scan scope := onTable_of_yields (Query.yields_scan scope)

theorem commitsAs_overlaid (t : Table Bytes) (p : Pending) : p.CommitsAs t (t.overlaid p) where
  nothing none := by
    obtain ⟨entries, _⟩ := p
    obtain rfl : entries = [] := by simpa [Table.isEmpty] using none
    exact ⟨rfl, fun _ => ⟨rfl, rfl⟩⟩
  done some faults unfailed := by
    have write : LedgerWork.commit p = LedgerWork.ask (.write p.batch) := by
      simp [LedgerWork.commit, some]
    rw [write]
    obtain _ | ⟨_ | fault, rest⟩ := faults
    · exact ⟨rfl, rfl⟩
    · exact ⟨rfl, rfl⟩
    · contradiction
  failed some faults fault fails := by
    have write : LedgerWork.commit p = LedgerWork.ask (.write p.batch) := by
      simp [LedgerWork.commit, some]
    rw [write]
    obtain _ | ⟨_ | other, rest⟩ := faults
    · contradiction
    · contradiction
    · obtain rfl : other = fault := Option.some.inj fails
      exact ⟨rfl, rfl⟩

end Pending

/-- A transaction reads as if it were committed.  Whatever is held back on whatever table, directly
    and by mutators, and whatever calls fail meanwhile: the table stays as it was.  What is held
    back are the direct changes and those of the mutators, in order, where a mutator that a failing
    call stops has held back the first of its changes; if no call fails, it is one list that
    depends on the table alone.  And with `v` the table with these changes made one after the other,

    * each kind of reading through the transaction gives what `v` gives: the value that the last
      change at a key left, and under a scope exactly the entries of `v`, ascending, each once;
    * something is pending if a change was held back, and only then;
    * a commit leaves `v` after one batch, or fails and leaves the table as it was, and it makes no
      call if nothing is pending. -/
theorem Transaction.reads_as_committed (t : Table Bytes) (holdings : List Holding)
    (faults : Store.FaultSchedule) :
    let run := ((Holding.performAll holdings).run.run Table.empty).runFaulty faults t
    let pending : Pending := run.1.2
    run.2 = t ∧ ∃ results changes, run.1.1 = .ok results ∧
      Holding.Makes (∃ fault, some fault ∈ faults) t holdings results changes ∧
      ((¬ ∃ fault, some fault ∈ faults) → changes = Holding.changesAll t holdings) ∧
      let v := t.applyBatch changes
      pending.ReadsAs t v ∧
        (∀ key, v.get? key = match changes.reverse.find? fun c => c.key = key with
          | some c => c.left
          | none => t.get? key) ∧
        (∀ scope, Entries.Ascending (v.scan scope) ∧ ∀ key value,
          (key, value) ∈ v.scan scope ↔ v.get? key = some value ∧ scope.isPrefixOf key) ∧
        pending.isEmpty = changes.isEmpty ∧ pending.CommitsAs t v := by
  intro run pending
  -- Calls fail as soon as the schedule has a fault, be it one that no call comes to.
  have leaves : Transaction.Leaves (∃ fault, some fault ∈ faults) _ t Table.empty _ _ :=
    Holding.leaves_performAll holdings Table.empty
  have ends := Program.Always.runFaulty_of leaves fun fault (scheduled : some fault ∈ faults) =>
    ⟨fault, scheduled⟩
  obtain ⟨same, outcome⟩ := ends
  cases result : run.1.1 with
  | error e =>
    rw [result] at outcome
    contradiction
  | ok results =>
    rw [result] at outcome
    obtain ⟨changes, makes, isHeld⟩ := outcome
    have isHeld : pending = Pending.holdAll Table.empty changes := isHeld
    -- What the pending writes show is the table with the changes made one after the other.
    have seen : t.overlaid pending = t.applyBatch changes := by
      rw [isHeld]
      exact Table.overlaid_holdAll t Table.empty changes
    refine ⟨same, results, changes, rfl, makes, makes.eq_changesAll, ?_,
      Table.get?_applyBatch t changes, fun scope => ?_, ?_, ?_⟩
    · exact seen ▸ Pending.readsAs_overlaid t pending
    · exact ⟨Table.ascending_scan _ scope, fun key value => Table.mem_scan⟩
    · rw [isHeld]
      exact Pending.isEmpty_holdAll changes
    · exact seen ▸ Pending.commitsAs_overlaid t pending

/-- A ledger with one validator, which has a block at slot 5. -/
def Table.oneBlock : Table Bytes := Table.ofEntries
  [((Place.keyOf ⟨1⟩).bytes, [7]), ((Place.block ⟨1⟩ 5).bytes, [1])]

/-- A block is deleted and makes room for another one at its slot, a value is overwritten, and the
    new block is deleted in its turn as one that lies below a bound. -/
def Holding.overwriting : List Holding :=
  [.direct (.delete (Place.block ⟨1⟩ 5).bytes), .mutator (.insertBlock ⟨1⟩ 5 ⟨[2]⟩),
    .mutator (.insertBlock ⟨1⟩ 6 ⟨[3]⟩), .direct (.put [0] [4]), .direct (.put [0] [5]),
    .mutator (.deleteBlocksBelow ⟨1⟩ 6)]

theorem Holding.changesAll_overwriting :
    changesAll Table.oneBlock overwriting =
      [.delete (Place.block ⟨1⟩ 5).bytes, .put (Place.block ⟨1⟩ 5).bytes [2],
        .put (Place.block ⟨1⟩ 6).bytes [3], .put [0] [4], .put [0] [5],
        .delete (Place.block ⟨1⟩ 5).bytes] := by
  decide +kernel

/-- What is read then is the ledger with the second block alone, and a commit leaves it. -/
theorem Transaction.reads_as_committed_overwriting :
    let run := ((Holding.performAll Holding.overwriting).run.run Table.empty).runFaulty []
      Table.oneBlock
    let v : Table Bytes := Table.ofEntries
      [((Place.keyOf ⟨1⟩).bytes, [7]), ((Place.block ⟨1⟩ 6).bytes, [3]), ([0], [5])]
    run.2 = Table.oneBlock ∧ Pending.ReadsAs run.1.2 Table.oneBlock v ∧
      Pending.CommitsAs run.1.2 Table.oneBlock v := by
  have committed : Table.oneBlock.applyBatch (Holding.changesAll Table.oneBlock
      Holding.overwriting) = Table.ofEntries
        [((Place.keyOf ⟨1⟩).bytes, [7]), ((Place.block ⟨1⟩ 6).bytes, [3]), ([0], [5])] := by
    rw [Holding.changesAll_overwriting]
    exact Table.ext (by decide +kernel)
  obtain ⟨same, _, changes, _, _, all, reads, _, _, _, commits⟩ :=
    Transaction.reads_as_committed Table.oneBlock Holding.overwriting []
  obtain rfl := all (by simp)
  rw [committed] at reads commits
  exact ⟨same, reads, commits⟩

end SlashingGuard
