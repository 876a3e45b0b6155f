import SlashingGuard.Duty.Record
import SlashingGuard.Ledger.Registry
import SlashingGuard.Ledger.Value

/-! # The history of a validator

    The blocks and attestations that were permitted.  A validator has at most
    one block a slot and one attestation a target epoch; putting a record in
    again changes nothing, and putting another one in its place is refused. -/

namespace SlashingGuard.Ledger

/-! ## Records by number -/

/-- The entries of a validator in a family, in the order of their numbers. -/
def entriesOf (family : KeyFamily) (id : ValidatorId) : Query (List (Entry Bytes)) :=
  Query.scan (family.scope id)

/-- The largest number of a validator's records in a family. -/
def newest? (family : KeyFamily) (what : RecordKind) (id : ValidatorId) :
    Query (Option UInt64) := do
  match (← entriesOf family id).getLast? with
  | some entry => some <$> Query.ofExcept (LedgerKey.readIndex what entry.1)
  | none => return none

/-- Deletes entries up to the first whose number is not below `bound`, and counts them. -/
def deleteWhileBelow (what : RecordKind) (bound : UInt64) :
    List (Entry Bytes) → Transaction Nat
  | [] => return 0
  | (key, _) :: rest => do
    -- Numbers ascend with the keys, so behind the first that stays all stay.
    if bound ≤ (← Transaction.ofExcept (LedgerKey.readIndex what key)) then return 0
    Transaction.delete key
    return (← deleteWhileBelow what bound rest) + 1

/-- Deletes the records of a validator in a family whose numbers are below `bound`. -/
def deleteBelow (family : KeyFamily) (what : RecordKind) (id : ValidatorId) (bound : UInt64) :
    Transaction Nat := do
  deleteWhileBelow what bound (← entriesOf family id)

/-! ## Blocks -/

/-- The block of a validator at a slot. -/
def blockAt? (id : ValidatorId) (slot : Slot) : Query (Option SignedBlock) :=
  Query.record (LedgerKey.block id slot) fun bytes => .ok ⟨id, slot, ⟨bytes⟩⟩

/-- A block from its entry. -/
def readBlock (id : ValidatorId) (entry : Entry Bytes) : Except LedgerError SignedBlock :=
  (LedgerKey.readIndex .block entry.1).map fun slot => ⟨id, slot, ⟨entry.2⟩⟩

/-- The blocks of a validator, in slot order. -/
def blocks (id : ValidatorId) : Query (List SignedBlock) := do
  Query.ofExcept ((← entriesOf .block id).mapM (readBlock id))

def newestSlot? (id : ValidatorId) : Query (Option Slot) := newest? .block .block id

/-- Records a block. -/
def insertBlock (id : ValidatorId) (slot : Slot) (root : SigningRoot) : Transaction Unit := do
  requireRegistered id
  match ← blockAt? id slot with
  | some existing =>
    if existing.root ≠ root then
      throw (.breach (.takenSlot id slot existing.root root))
  | none => Transaction.put (LedgerKey.block id slot) root.bytes

/-- Deletes the blocks below a slot. -/
def deleteBlocksBelow (id : ValidatorId) (slot : Slot) : Transaction Nat :=
  deleteBelow .block .block id slot

/-! ## Attestations -/

/-- An attestation from its value. -/
def ofValue (id : ValidatorId) (target : Epoch) (bytes : Bytes) :
    Except LedgerError SignedAttestation :=
  (LedgerValue.readAttestation bytes).map fun (source, root) => ⟨id, source, target, root⟩

/-- The attestation of a validator at a target epoch. -/
def attestationAt? (id : ValidatorId) (target : Epoch) : Query (Option SignedAttestation) :=
  Query.record (LedgerKey.attestation id target) (ofValue id target)

/-- An attestation from its entry. -/
def readAttestation (id : ValidatorId) (entry : Entry Bytes) :
    Except LedgerError SignedAttestation := do
  ofValue id (← LedgerKey.readIndex .attestation entry.1) entry.2

/-- The attestations of a validator, in the order of their targets. -/
def attestations (id : ValidatorId) : Query (List SignedAttestation) := do
  Query.ofExcept ((← entriesOf .attestation id).mapM (readAttestation id))

/-- The recorded attestations that surround a vote. -/
def surrounding (id : ValidatorId) (vote : Vote) : Query (List SignedAttestation) := do
  return (← attestations id).filter fun a => a.vote.surrounds vote

/-- The recorded attestations that a vote surrounds. -/
def surrounded (id : ValidatorId) (vote : Vote) : Query (List SignedAttestation) := do
  return (← attestations id).filter fun a => vote.surrounds a.vote

def newestTarget? (id : ValidatorId) : Query (Option Epoch) :=
  newest? .attestation .attestation id

/-- Records an attestation. -/
def insertAttestation (id : ValidatorId) (vote : Vote) (root : SigningRoot) :
    Transaction Unit := do
  requireRegistered id
  if vote.target < vote.source then
    throw (.breach (.sourceAfterTarget vote.source vote.target))
  match ← attestationAt? id vote.target with
  -- Here the source counts too, unlike in a decision.
  | some existing =>
    if existing.root ≠ root ∨ existing.source ≠ vote.source then
      throw (.breach (.takenTarget id vote.target existing.root root))
  | none =>
    Transaction.put (LedgerKey.attestation id vote.target)
      (LedgerValue.writeAttestation vote.source root)

/-- Deletes the attestations below a target epoch. -/
def deleteAttestationsBelow (id : ValidatorId) (target : Epoch) : Transaction Nat :=
  deleteBelow .attestation .attestation id target

end SlashingGuard.Ledger
