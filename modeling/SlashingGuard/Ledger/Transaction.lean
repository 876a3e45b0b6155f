import SlashingGuard.Ledger.Error
import SlashingGuard.Program

/-! # Transactions

    A transaction holds back its writes and commits them as one batch.  Until
    then its own reads see them: a key that has a pending write is answered
    from it without a call on the store, and a scan is merged with the pending
    writes under its scope.

    Queries read and never write.  What a transaction has pending survives an
    error of a step, so its owner may still commit it. -/

namespace SlashingGuard

/-- The writes that a transaction holds back, by key: a value, or none for a deletion. -/
abbrev Pending : Type := Table (Option Bytes)

namespace Pending

/-- The change that a pending write makes. -/
def change : Entry (Option Bytes) → Change
  | (key, some value) => .put key value
  | (key, none) => .delete key

/-- The pending writes as a batch, in key order. -/
def batch (p : Pending) : List Change := p.entries.map change

/-- Committed entries under a scope, merged with the pending writes there. -/
def merge (p : Pending) (scope : Bytes) (committed : List (Entry Bytes)) : List (Entry Bytes) :=
  ((Table.ofEntries committed).applyBatch
    (p.batch.filter fun c => scope.isPrefixOf c.key)).entries

end Pending

/-- Work on the ledger: calls on the store that may end in an error. -/
abbrev LedgerWork (α : Type) : Type := ExceptT LedgerError (Program Store.calls) α

/-- Work that reads the ledger through pending writes. -/
abbrev Query (α : Type) : Type := ReaderT Pending (ExceptT LedgerError (Program Store.calls)) α

/-- Work that may add to the pending writes; an error keeps what is pending. -/
abbrev Transaction (α : Type) : Type :=
  ExceptT LedgerError (StateT Pending (Program Store.calls)) α

/-- The answer to a call on the store, or the fault. -/
def LedgerWork.ask (call : Store.Call) : LedgerWork call.Answer :=
  ExceptT.mk (.call call fun reply => .done (reply.mapError LedgerError.store))

namespace Query

/-- A value that reading gave, or its error. -/
def ofExcept {α : Type} (result : Except LedgerError α) : Query α := fun _ => liftM result

/-- The value at a key. -/
def get (key : Bytes) : Query (Option Bytes) := fun p =>
  match p.get? key with
  -- A pending deletion hides what is committed.
  | some pending => pure pending
  | none => LedgerWork.ask (.get key)

/-- Whether a key holds a value. -/
def contains (key : Bytes) : Query Bool := fun p =>
  match p.get? key with
  | some pending => pure pending.isSome
  | none => LedgerWork.ask (.contains key)

/-- The entries under a scope, in key order. -/
def scan (scope : Bytes) : Query (List (Entry Bytes)) := fun p =>
  (p.merge scope) <$> LedgerWork.ask (.scan scope)

/-- The record at a key, read by `read`. -/
def record {α : Type} (key : Bytes) (read : Bytes → Except LedgerError α) :
    Query (Option α) := do
  match ← get key with
  | some bytes => some <$> ofExcept (read bytes)
  | none => return none

end Query

namespace Transaction

/-- A query as a step of a transaction. -/
def query {α : Type} (q : Query α) : Transaction α :=
  ExceptT.mk fun p => do
    let result ← (q p).run
    return (result, p)

instance : MonadLift Query Transaction where
  monadLift := query

/-- A value that reading gave, or its error. -/
def ofExcept {α : Type} (result : Except LedgerError α) : Transaction α :=
  ExceptT.mk fun p => return (result, p)

/-- Holds back a write. -/
def hold (key : Bytes) (value : Option Bytes) : Transaction Unit :=
  ExceptT.mk fun p => return (.ok (), p.insert key value)

def put (key value : Bytes) : Transaction Unit := hold key (some value)

def delete (key : Bytes) : Transaction Unit := hold key none

/-- Runs a transaction with nothing pending: its value, and what is pending then. -/
def start {α : Type} (t : Transaction α) : LedgerWork (α × Pending) :=
  ExceptT.mk do
    let (result, pending) ← t.run.run Table.empty
    return result.map fun value => (value, pending)

end Transaction

namespace LedgerWork

/-- Writes what is pending as one batch; nothing pending takes no call. -/
def commit (p : Pending) : LedgerWork Unit :=
  if p.isEmpty then pure () else ask (.write p.batch)

/-- Runs a transaction and commits it if its value is one to `keep`; otherwise it is dropped. -/
def atomically {α : Type} (t : Transaction α) (keep : α → Bool) : LedgerWork α := do
  let (value, pending) ← t.start
  if keep value then commit pending
  return value

end LedgerWork

end SlashingGuard
