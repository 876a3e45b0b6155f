import SlashingGuard.Duty.Decision

/-! # Records

    What the ledger keeps of a duty that was permitted. -/

namespace SlashingGuard

/-- A permitted block: one signing root a slot. -/
structure SignedBlock where
  validator : ValidatorId
  slot : Slot
  root : SigningRoot
  deriving DecidableEq, Repr

/-- A permitted attestation: one vote and one signing root a target epoch. -/
structure SignedAttestation where
  validator : ValidatorId
  source : Epoch
  target : Epoch
  root : SigningRoot
  deriving DecidableEq, Repr

/-- The epochs that an attestation links. -/
def SignedAttestation.vote (a : SignedAttestation) : Vote := ⟨a.source, a.target⟩

end SlashingGuard
