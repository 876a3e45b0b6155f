import SlashingGuard.Duty.Watermark
import SlashingGuard.Text.Duration

/-! # Pruning

    How much history is kept, measured back from the newest duty recorded,
    and how far a prune raises a floor.  Without a recorded duty, or without
    a floor, there is nothing to prune. -/

namespace SlashingGuard

/-! ## Settings -/

/-- What a setting must not be. -/
inductive SettingError where
  | noLockTimeout
  | noInterval
  | noEpochs
  | noSlots
  deriving DecidableEq, Repr

def SettingError.message : SettingError → String
  | .noLockTimeout => "lock_timeout must be greater than zero"
  | .noInterval => "pruning interval must be greater than zero"
  | .noEpochs => "epochs_to_keep must be a positive value, but was 0"
  | .noSlots => "slots_per_epoch must be a positive value, but was 0"

/-- How much history is kept, and when it is pruned. -/
structure PruningConfig where
  enabled : Bool
  epochsToKeep : UInt64
  slotsPerEpoch : UInt64
  interval : Duration
  atBoot : Bool
  deriving DecidableEq, Repr

def PruningConfig.standard : PruningConfig where
  enabled := false
  epochsToKeep := 10000
  slotsPerEpoch := 32
  interval := .ofSeconds 86400
  atBoot := false

/-- Both tunables have to be positive. -/
def checkTunables (epochsToKeep slotsPerEpoch : UInt64) : Except SettingError Unit :=
  if epochsToKeep = 0 then .error .noEpochs
  else if slotsPerEpoch = 0 then .error .noSlots
  else .ok ()

def PruningConfig.check (c : PruningConfig) : Except SettingError Unit :=
  if c.interval.isZero then .error .noInterval
  else checkTunables c.epochsToKeep c.slotsPerEpoch

/-! ## Arithmetic -/

/-- The slots that correspond to the epochs kept, at least one. -/
def slotsKept (epochsToKeep slotsPerEpoch : UInt64) : UInt64 :=
  max (epochsToKeep / slotsPerEpoch) 1

/-- The slots that correspond to the epochs kept, unless an epoch has no slots. -/
def slotsKept? (epochsToKeep slotsPerEpoch : UInt64) : Option UInt64 :=
  if slotsPerEpoch = 0 then none else some (slotsKept epochsToKeep slotsPerEpoch)

/-- Where a prune that keeps `keep` indices starts to keep, counted back from the newest. -/
def pruningPoint (keep newest : UInt64) : UInt64 :=
  if newest < keep then 0 else newest - keep + 1

/-- The floor that a prune leaves: the pruning point, but never less than the floor before. -/
def pruningMark (keep : UInt64) (newest : Option UInt64) (floor : Floor) : Option UInt64 :=
  match newest, floor with
  | some newest, some floor => some (max (pruningPoint keep newest) floor)
  | _, _ => none

/-! ## Results -/

/-- What pruning one validator did: the floors it left, where it pruned, and how many records it
    removed. -/
structure PruneOutcome where
  validator : ValidatorId
  slot : Option Slot
  epoch : Option Epoch
  blocks : Nat
  attestations : Nat
  deriving DecidableEq, Repr

/-- Whether neither kind had anything to prune. -/
def PruneOutcome.isNoop (o : PruneOutcome) : Bool :=
  o.slot.isNone && o.epoch.isNone

/-- What pruning several validators did. -/
structure PruneSummary where
  validators : Nat
  blocks : Nat
  attestations : Nat
  deriving DecidableEq, Repr

namespace PruneSummary

def empty : PruneSummary := ⟨0, 0, 0⟩

/-- The summary with one more outcome. -/
def record (s : PruneSummary) (o : PruneOutcome) : PruneSummary where
  validators := s.validators + if o.isNoop then 0 else 1
  blocks := s.blocks + o.blocks
  attestations := s.attestations + o.attestations

end PruneSummary

end SlashingGuard
