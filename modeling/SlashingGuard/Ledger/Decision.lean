import SlashingGuard.Duty.Pruning
import SlashingGuard.Ledger.Floors
import SlashingGuard.Ledger.History

/-! # Decisions and prunes on the ledger

    One request is decided in one transaction: the rules are tried on what the
    ledger holds, and a duty that none of them denies is recorded.  The first
    record of a kind also sets the floors of that kind to zero.

    A prune has two transactions: the floors are raised and committed, then
    what lies below them is deleted.  When the second fails, the floors stand,
    and a later prune deletes the rest. -/

namespace SlashingGuard.Ledger

/-! ## Decisions -/

/-- Records a block that no rule denies. -/
def admitBlock (id : ValidatorId) (slot : Slot) (root : SigningRoot) (hasFloor : Bool) :
    Transaction Decision := do
  insertBlock id slot root
  -- A floor of zero denies nothing; it makes the validator one that prunes reach.
  unless hasFloor do
    let _ ← raiseSlotFloor id 0
  return .permit

/-- Decides a block request. -/
def decideBlock (id : ValidatorId) (slot : Slot) (root : SigningRoot) :
    Transaction Decision := do
  let row ← watermark? id
  match blockFloorDenial row slot with
  | some reason => return .deny reason
  | none =>
    -- Records go only from below the floor, so a slot without one was never signed.
    match ← blockAt? id slot with
    | some existing => return resolveExisting existing.root root .doubleBlockProposal
    | none => admitBlock id slot root (row.bind Watermark.slot).isSome

/-- Records an attestation that no rule denies. -/
def admitAttestation (id : ValidatorId) (vote : Vote) (root : SigningRoot) (hasFloor : Bool) :
    Transaction Decision := do
  insertAttestation id vote root
  unless hasFloor do
    let _ ← raiseEpochFloors id 0 0
  return .permit

/-- Decides an attestation request.  At a target that is taken only the signing roots are
    compared. -/
def decideAttestation (id : ValidatorId) (vote : Vote) (root : SigningRoot) :
    Transaction Decision := do
  let row ← watermark? id
  match voteFloorDenial row vote with
  | some reason => return .deny reason
  | none =>
    -- Two votes with one target never surround each other, so this comes first.
    match ← attestationAt? id vote.target with
    | some existing => return resolveExisting existing.root root .doubleVote
    | none =>
      if (← surrounding id vote).isEmpty = false then return .deny .surroundedVote
      if (← surrounded id vote).isEmpty = false then return .deny .surroundingVote
      admitAttestation id vote root (row.bind Watermark.target).isSome

/-- Decides a block request and commits the record of a permit. -/
def signBlock (id : ValidatorId) (slot : Slot) (root : SigningRoot) : LedgerWork Decision :=
  LedgerWork.atomically (decideBlock id slot root) Decision.isPermitted

/-- Decides an attestation request and commits the record of a permit. -/
def signAttestation (id : ValidatorId) (vote : Vote) (root : SigningRoot) :
    LedgerWork Decision :=
  LedgerWork.atomically (decideAttestation id vote root) Decision.isPermitted

/-! ## Prunes -/

/-- Raises the slot floor to where a prune that keeps `keep` slots leaves it; none if there is
    nothing to prune. -/
def raiseForBlocks (id : ValidatorId) (keep : UInt64) : Transaction (Option Slot) := do
  let floor := (← watermark? id).bind Watermark.slot
  match pruningMark keep (← newestSlot? id) floor with
  | none => return none
  | some mark =>
    let row ← raiseSlotFloor id mark
    return some (row.slot.getD mark)

/-- Raises the epoch floors to where a prune that keeps `keep` epochs leaves them; none if there
    is nothing to prune. -/
def raiseForAttestations (id : ValidatorId) (keep : UInt64) : Transaction (Option Epoch) := do
  let floor := (← watermark? id).bind Watermark.target
  match pruningMark keep (← newestTarget? id) floor with
  | none => return none
  | some mark =>
    let row ← raiseEpochFloors id mark mark
    return some (row.target.getD mark)

/-- Commits a raised floor and then deletes what lies below it: the floor, if there was anything
    to prune, and the number of records removed. -/
def pruneBelow (raise : Transaction (Option UInt64)) (delete : UInt64 → Transaction Nat) :
    LedgerWork (Option UInt64 × Nat) := do
  match ← LedgerWork.atomically raise Option.isSome with
  | none => return (none, 0)
  | some floor =>
    -- The floor is committed: what goes now can no longer be asked for.
    let deleted ← LedgerWork.atomically (delete floor) fun _ => true
    return (some floor, deleted)

/-- The block half of a prune. -/
def pruneBlocks (id : ValidatorId) (keep : UInt64) : LedgerWork (Option Slot × Nat) :=
  pruneBelow (raiseForBlocks id keep) (deleteBlocksBelow id)

/-- The attestation half of a prune. -/
def pruneAttestations (id : ValidatorId) (keep : UInt64) : LedgerWork (Option Epoch × Nat) :=
  pruneBelow (raiseForAttestations id keep) (deleteAttestationsBelow id)

end SlashingGuard.Ledger
