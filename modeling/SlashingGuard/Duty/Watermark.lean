import SlashingGuard.Duty

/-! # Watermarks

    The floors of a validator.  A duty strictly below a floor is never
    signed again, and a floor, once set, only rises. -/

namespace SlashingGuard

/-- A floor that may not be set yet. -/
abbrev Floor : Type := Option UInt64

namespace Floor

/-- Whether a candidate changes a floor: it is higher, or the first. -/
def moves (floor : Floor) (candidate : UInt64) : Bool :=
  match floor with
  | none => true
  | some current => current < candidate

/-- The floor raised to a candidate; it never falls. -/
def raise (floor : Floor) (candidate : UInt64) : Floor :=
  if floor.moves candidate then some candidate else floor

/-- Whether an index lies strictly below a floor. -/
def isAbove (floor : Floor) (index : UInt64) : Bool :=
  match floor with
  | none => false
  | some current => index < current

end Floor

/-- The floors of one validator, each set or not on its own. -/
structure Watermark where
  validator : ValidatorId
  slot : Floor
  source : Floor
  target : Floor
  deriving DecidableEq, Repr

namespace Watermark

/-- The row with no floor set. -/
def empty (id : ValidatorId) : Watermark :=
  ⟨id, none, none, none⟩

/-- The row with its slot floor raised, and whether that changed it. -/
def raiseSlot (w : Watermark) (slot : Slot) : Bool × Watermark :=
  (Floor.moves w.slot slot, { w with slot := Floor.raise w.slot slot })

/-- The row with both epoch floors raised, and whether that changed either. -/
def raiseEpochs (w : Watermark) (source target : Epoch) : Bool × Watermark :=
  (Floor.moves w.source source || Floor.moves w.target target,
    { w with source := Floor.raise w.source source, target := Floor.raise w.target target })

/-- Whether a block at `slot` lies strictly below the slot floor. -/
def hidesBlock (w : Watermark) (slot : Slot) : Bool :=
  Floor.isAbove w.slot slot

/-- Whether an attestation lies strictly below an epoch floor. -/
def hidesAttestation (w : Watermark) (source target : Epoch) : Bool :=
  Floor.isAbove w.target target || Floor.isAbove w.source source

end Watermark

end SlashingGuard
