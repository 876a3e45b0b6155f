import SlashingGuard.Ledger.Key

/-! # Values of the ledger

    Numbers of validators and slot floors take eight bytes, most significant
    first.  An attestation holds its source epoch and then its signing root
    behind the root's length, and the epoch floors hold source and target;
    their numbers take eight bytes, least significant first, and bytes behind
    them do not count. -/

namespace SlashingGuard.LedgerValue

/-- Eight bytes as a number, least significant first, and the bytes behind them. -/
def takeWord (what : RecordKind) (bytes : Bytes) : Except LedgerError (UInt64 × Bytes) :=
  if bytes.length < 8 then .error (.corrupt what .truncated)
  else .ok (UInt64.ofNat (Bytes.ofLittleEndian (bytes.take 8)), bytes.drop 8)

/-- What an attestation adds to its key: the source epoch and the signing root. -/
def writeAttestation (source : Epoch) (root : SigningRoot) : Bytes :=
  Bytes.ofWordReversed source ++ Bytes.littleEndian 8 root.bytes.length ++ root.bytes

def readAttestation (bytes : Bytes) : Except LedgerError (Epoch × SigningRoot) := do
  let (source, rest) ← takeWord .attestation bytes
  let (length, body) ← takeWord .attestation rest
  if body.length < length.toNat then throw (.corrupt .attestation .truncated)
  else return (source, ⟨body.take length.toNat⟩)

/-- Both epoch floors. -/
def writeEpochFloors (source target : Epoch) : Bytes :=
  Bytes.ofWordReversed source ++ Bytes.ofWordReversed target

def readEpochFloors (bytes : Bytes) : Except LedgerError (Epoch × Epoch) := do
  let (source, rest) ← takeWord .epochFloors bytes
  let (target, _) ← takeWord .epochFloors rest
  return (source, target)

end SlashingGuard.LedgerValue
