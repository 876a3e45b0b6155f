import SlashingGuard.Duty.Pruning
import SlashingGuard.Ledger.Error

/-! # Errors of a guard

    What a guard answers when it can neither permit nor deny.  Only a
    transient failure of the ledger may be tried again; none of them is a
    permit. -/

namespace SlashingGuard

inductive GuardError where
  | configuration (setting : SettingError)
  | ledger (error : LedgerError)
  | unknownKey (key : PublicKey)
  | wrongKeyLength (key : PublicKey)
  | importUnsupported
  /-- The document could not be written on. -/
  | interchange (reason : String)
  /-- The document was written and could not be finished. -/
  | output (reason : String)
  deriving DecidableEq, Repr

namespace GuardError

/-- The text of a failure of the ledger, under the name of its class. -/
def ledgerMessage (e : LedgerError) : String :=
  match e.failureClass, e with
  | .transient, e => "Storage fault: " ++ e.message
  | .corrupt, e => "Corrupt ledger: " ++ e.message
  | .breach, .breach rule => "Invariant violation: " ++ rule.message
  | .breach, e => "Invariant violation: " ++ e.message

def message : GuardError → String
  | .configuration setting => "Invalid configuration: " ++ setting.message
  | .ledger e => ledgerMessage e
  | .unknownKey key => "Validator " ++ key.write ++ " is not registered"
  | .wrongKeyLength key =>
    "Public key " ++ key.write ++ " has " ++ Decimal.write key.bytes.length ++
      " bytes, expected " ++ Decimal.write PublicKey.blsLength
  | .importUnsupported => "Importing interchange data is not supported"
  | .interchange reason => "Interchange export failed: " ++ reason
  | .output reason => "Failed to write interchange output: " ++ reason

/-- Whether the same request may succeed later. -/
def isRetryable : GuardError → Bool
  | .ledger e => e.failureClass = .transient
  | _ => false

end GuardError

end SlashingGuard
