import SlashingGuard.Disk.Call
import SlashingGuard.Store.LedgerFile

/-! # Stores in memory and in a file

    A store answers reads from a table in memory.  One with a data directory
    also keeps the table in the ledger file there: a batch is written to a
    draft beside the file, the draft is made durable and moved over the file,
    and only then is the table in memory replaced.  So a batch that fails is
    not seen by later reads. -/

namespace SlashingGuard

/-! ## Files of a data directory -/

namespace DataDirectory

def ledgerFile (directory : String) : String := joinPath directory "slashing-protection.db"

def draftFile (directory : String) : String := joinPath directory "slashing-protection.tmp"

def lockFile (directory : String) : String := joinPath directory "LOCK"

/-- The path by which a directory itself is opened. -/
def itself (directory : String) : String := if directory = "" then "." else directory

end DataDirectory

/-! ## Stores -/

/-- The table that answers reads, and the data directory behind it, if there is one. -/
structure Store where
  home : Option String
  table : Table Bytes

namespace Store

/-- A new store in memory. -/
def inMemory : Store := ⟨none, Table.empty⟩

/-- Replaces the ledger file of a data directory. -/
def save (directory : String) (t : Table Bytes) : Disk.Attempt Unit := do
  Disk.makeDirectories directory
  Disk.create (DataDirectory.draftFile directory)
  Disk.write (DataDirectory.draftFile directory) (LedgerFile.encode t)
  Disk.sync (DataDirectory.draftFile directory)
  -- Up to here the ledger file is the old one, and from the next step on the new one.
  Disk.rename (DataDirectory.draftFile directory) (DataDirectory.ledgerFile directory)
  Disk.sync (DataDirectory.itself directory)

/-- The store that a reading of the ledger file gives; without a file it is empty. -/
def ofFile (directory : String) : Except IoError Bytes → Except StoreFault Store
  | .ok bytes =>
    match LedgerFile.decode bytes with
    | .ok table => .ok ⟨some directory, table⟩
    | .error e => .error (.corruption e.message)
  | .error .notFound => .ok ⟨some directory, Table.empty⟩
  | .error e => .error (.io e.message)

/-- Opens the store of a data directory.  A file that cannot be read is never taken for an empty
    one. -/
def load (directory : String) : DiskProgram (Except StoreFault Store) :=
  ofFile directory <$> (Disk.read (DataDirectory.ledgerFile directory)).run

/-- Makes a table the contents of a store, on disk before in memory. -/
def replace (t : Table Bytes) : StateT Store DiskProgram (Except StoreFault Unit) := fun s => do
  match s.home with
  | none => return (.ok (), { s with table := t })
  | some directory =>
    match ← (save directory t).run with
    | .ok () => return (.ok (), { s with table := t })
    -- Whatever reached the disk, reads go on with the old table.
    | .error e => return (.error (.io e.message), s)

/-- The reply of a store to a call. -/
def serve : (call : Call) → StateT Store DiskProgram (calls.Reply call)
  | .get key => fun s => return (.ok (s.table.get? key), s)
  | .contains key => fun s => return (.ok (s.table.contains key), s)
  | .scan scope => fun s => return (.ok (s.table.scan scope), s)
  | .write batch => fun s => replace (s.table.applyBatch batch) s

/-- Runs a program against a store. -/
def run {α : Type} (p : StoreProgram α) : StateT Store DiskProgram α :=
  p.perform serve

end Store

end SlashingGuard
