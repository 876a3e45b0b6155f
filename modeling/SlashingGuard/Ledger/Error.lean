import SlashingGuard.Duty
import SlashingGuard.Store.Call
import SlashingGuard.Text.Duration

/-! # Errors of the ledger

    Five ways in which work on the ledger fails, and three classes of them: a
    transient one may be tried again, a breach means that two records of the
    history contradict each other, and a corrupt ledger holds what cannot be
    read back. -/

namespace SlashingGuard

/-- The kinds of record, as messages name them. -/
inductive RecordKind where
  | block
  | attestation
  | validator
  | nextId
  | slotFloor
  | epochFloors
  | floors
  deriving DecidableEq, Repr

def RecordKind.label : RecordKind → String
  | .block => "block"
  | .attestation => "attestation"
  | .validator => "validator"
  | .nextId => "validator id counter"
  | .slotFloor => "slot watermark"
  | .epochFloors => "epoch watermark"
  | .floors => "watermark"

/-- A rule on histories that a write would break. -/
inductive Breach where
  | unregistered (id : ValidatorId)
  | takenSlot (id : ValidatorId) (slot : Slot) (existing refused : SigningRoot)
  | takenTarget (id : ValidatorId) (target : Epoch) (existing refused : SigningRoot)
  | sourceAfterTarget (source target : Epoch)
  | reported (message : String)
  deriving DecidableEq, Repr

def Breach.message : Breach → String
  | .unregistered id => "validator " ++ id.display ++ " is not registered"
  | .takenSlot id slot existing refused =>
    "validator " ++ id.display ++ " already has block " ++ existing.write ++ " at slot " ++
      Decimal.write slot.toNat ++ ", refusing " ++ refused.write
  | .takenTarget id target existing refused =>
    "validator " ++ id.display ++ " already has attestation " ++ existing.write ++
      " for target " ++ Decimal.write target.toNat ++ ", refusing " ++ refused.write
  | .sourceAfterTarget source target =>
    "attestation source " ++ Decimal.write source.toNat ++ " is after target " ++
      Decimal.write target.toNat
  | .reported message => message

/-- What is wrong with bytes that should hold a record. -/
inductive Damage where
  | wrongLength (actual : Nat)
  | shortKey
  | strangeKey
  | truncated
  | reported (message : String)
  deriving DecidableEq, Repr

def Damage.message : Damage → String
  | .wrongLength actual => "expected 8 bytes, got " ++ Decimal.write actual
  | .shortKey => "key too short"
  | .strangeKey => "unexpected key length"
  | .truncated => "io error: unexpected end of file"
  | .reported message => message

/-- Why work on the ledger failed. -/
inductive LedgerError where
  | store (fault : StoreFault)
  | breach (rule : Breach)
  | corrupt (what : RecordKind) (damage : Damage)
  | unencodable (what : RecordKind) (reason : String)
  | lockTimeout (id : ValidatorId) (kind : DutyKind) (waited : Duration)
  deriving DecidableEq, Repr

/-- What a failure means for the one who asked. -/
inductive FailureClass where
  | transient
  | breach
  | corrupt
  deriving DecidableEq, Repr

namespace LedgerError

def message : LedgerError → String
  | .store fault => fault.message
  | .breach rule => "Constraint violation: " ++ rule.message
  | .corrupt what damage => "Corrupt " ++ what.label ++ " record: " ++ damage.message
  | .unencodable what reason => "Failed to encode " ++ what.label ++ " record: " ++ reason
  | .lockTimeout id kind waited =>
    "Timed out after " ++ waited.display ++ " waiting for " ++ kind.label ++
      " lock of validator " ++ id.display

def failureClass : LedgerError → FailureClass
  | .store (.io _) => .transient
  | .store (.corruption _) => .corrupt
  | .breach _ => .breach
  | .corrupt _ _ => .corrupt
  | .unencodable _ _ => .breach
  | .lockTimeout _ _ _ => .transient

end LedgerError

end SlashingGuard
