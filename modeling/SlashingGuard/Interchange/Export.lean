import SlashingGuard.Disk.Call
import SlashingGuard.Guard.Basic
import SlashingGuard.Interchange.Document

/-! # Exporting

    The ledger is written to a sink token by token, one validator after the
    other.  The history of a validator is read at one moment, under both of
    its locks, right before it is written.  So an export that fails leaves the
    beginning of a document in the sink. -/

namespace SlashingGuard

/-- Where a document goes: what was accepted, how many bytes there is room for and what is said
    when there is no more, and what is said instead of finishing. -/
structure Sink where
  accepted : String
  room : Option (Nat × IoError)
  flushFault : Option IoError
  deriving DecidableEq, Repr

namespace Sink

/-- A sink that takes everything. -/
def unlimited : Sink := ⟨"", none, none⟩

/-- Writes a token; one for which there is no room is not taken at all. -/
def write (s : Sink) (token : String) : Except IoError Unit × Sink :=
  match s.room with
  | none => (.ok (), { s with accepted := s.accepted ++ token })
  | some (room, fault) =>
    if token.utf8ByteSize ≤ room then
      (.ok (), { s with
        accepted := s.accepted ++ token
        room := some (room - token.utf8ByteSize, fault) })
    else (.error fault, s)

/-- Writes tokens up to the first that is not taken. -/
def writeAll (s : Sink) : List String → Except IoError Unit × Sink
  | [] => (.ok (), s)
  | token :: rest =>
    match s.write token with
    | (.ok (), s) => s.writeAll rest
    | (.error fault, s) => (.error fault, s)

end Sink

/-- Work of a guard that writes to a sink.  An error keeps the sink as it is. -/
abbrev ExportWork (α : Type) : Type :=
  ExceptT GuardError (StateT Sink (StateT Context (Program Store.calls))) α

namespace ExportWork

/-- Work that does not write. -/
def ofGuard {α : Type} (work : GuardWork α) : ExportWork α :=
  ExceptT.mk (StateT.lift work.run)

/-- Writes tokens. -/
def emit (tokens : List String) : ExportWork Unit :=
  ExceptT.mk fun sink =>
    let (result, sink) := sink.writeAll tokens
    return (result.mapError fun fault => .interchange fault.message, sink)

/-- Finishes the sink. -/
def flush : ExportWork Unit := do
  match (← get).flushFault with
  | some fault => throw (.output fault.message)
  | none => return ()

end ExportWork

namespace Interchange

open ExportWork

/-! ## Reading histories -/

/-- The history of a validator as a query. -/
def historyOf (id : ValidatorId) (key : PublicKey) : Query History := do
  let blocks ← Ledger.blocks id
  let attestations ← Ledger.attestations id
  let floors ← Ledger.watermark? id
  return ⟨key, blocks.map BlockRecord.ofBlock, attestations.map AttestationRecord.ofAttestation,
    floors.map FloorRecord.ofWatermark⟩

/-- Runs a query on what is committed. -/
def readNow {α : Type} (q : Query α) : GuardWork α := GuardWork.ledger (q Table.empty)

/-- The history of a validator, read under both of its locks. -/
def loadHistory (id : ValidatorId) (key : PublicKey) : GuardWork History :=
  GuardWork.withBothLocks id (readNow (historyOf id key))

/-! ## Writing a document -/

/-- The tokens of a document before its first history, if there is one. -/
def opening (metadata : Metadata) : List String :=
  "\x7b" :: Json.separator 1 true ++ Json.prettyMember 1 ("metadata", metadata.toJson) ++
    Json.separator 1 false ++ Json.quotedTokens "data" ++ [": ", "["]

/-- The tokens of one history. -/
def entry (first : Bool) (history : History) : List String :=
  Json.separator 2 first ++ Json.prettyTokens 2 history.toJson

/-- The tokens behind the last history. -/
def closing (hasHistories : Bool) : List String :=
  (if hasHistories then Json.lineStart 1 else []) ++ ["]"] ++ Json.lineStart 0 ++ ["\x7d"]

/-- Writes the histories of validators, each read right before it is written. -/
def emitHistories (first : Bool) : List (ValidatorId × PublicKey) → ExportWork Unit
  | [] => return ()
  | (id, key) :: rest => do
    let history ← ofGuard (loadHistory id key)
    emit (entry first history)
    emitHistories false rest

/-- Writes the whole ledger as a document, and finishes the sink. -/
def exportAll : ExportWork Unit := do
  let validators ← ofGuard (readNow Ledger.validators)
  let g ← ofGuard GuardWork.theGuard
  emit (opening (Metadata.current g.config.genesisRoot))
  emitHistories true validators
  -- An empty ledger gives a whole document too.
  emit (closing (!validators.isEmpty))
  flush

end Interchange

end SlashingGuard
