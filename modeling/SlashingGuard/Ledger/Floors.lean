import SlashingGuard.Duty.Watermark
import SlashingGuard.Ledger.Registry
import SlashingGuard.Ledger.Value

/-! # The floors of a validator

    Each duty kind has its floors under a key of its own, so work on one kind
    never writes what belongs to the other.  A floor is only ever raised. -/

namespace SlashingGuard.Ledger

def slotFloor? (id : ValidatorId) : Query (Option Slot) :=
  Query.record (LedgerKey.floor id .block) (LedgerKey.readWord .slotFloor)

/-- The source floor and the target floor. -/
def epochFloors? (id : ValidatorId) : Query (Option (Epoch × Epoch)) :=
  Query.record (LedgerKey.floor id .attestation) LedgerValue.readEpochFloors

/-- The floors of a validator; none if it has none of either kind. -/
def watermark? (id : ValidatorId) : Query (Option Watermark) := do
  let slot ← slotFloor? id
  let epochs ← epochFloors? id
  if slot.isNone && epochs.isNone then return none
  return some ⟨id, slot, epochs.map Prod.fst, epochs.map Prod.snd⟩

/-- The floors of a validator, as a row that may be empty. -/
def watermark (id : ValidatorId) : Query Watermark := do
  return (← watermark? id).getD (Watermark.empty id)

/-- Raises the slot floor to at least `slot`, and gives the row that is stored then. -/
def raiseSlotFloor (id : ValidatorId) (slot : Slot) : Transaction Watermark := do
  requireRegistered id
  let floor ← slotFloor? id
  let (moved, row) := Watermark.raiseSlot { Watermark.empty id with slot := floor } slot
  if moved then
    Transaction.put (LedgerKey.floor id .block) (Bytes.ofWord (row.slot.getD slot))
  watermark id

/-- Raises both epoch floors to at least the given epochs, and gives the row that is stored
    then. -/
def raiseEpochFloors (id : ValidatorId) (source target : Epoch) : Transaction Watermark := do
  requireRegistered id
  let floors ← epochFloors? id
  let (moved, row) := Watermark.raiseEpochs
    { Watermark.empty id with source := floors.map Prod.fst, target := floors.map Prod.snd }
    source target
  if moved then
    Transaction.put (LedgerKey.floor id .attestation)
      (LedgerValue.writeEpochFloors (row.source.getD source) (row.target.getD target))
  watermark id

end SlashingGuard.Ledger
