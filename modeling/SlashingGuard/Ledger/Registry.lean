import SlashingGuard.Ledger.Key
import SlashingGuard.Ledger.Transaction

/-! # The registry of validators

    Every public key that was ever registered has a number of its own, from
    one on, in the order of first registration.  The number of a key and the
    key of a number are kept side by side, with the number that comes next. -/

namespace SlashingGuard.Ledger

/-- The number of a key. -/
def idOf? (key : PublicKey) : Query (Option ValidatorId) :=
  Query.record (LedgerKey.idOf key) fun bytes =>
    (LedgerKey.readWord .validator bytes).map ValidatorId.mk

/-- The key of a number. -/
def keyOf? (id : ValidatorId) : Query (Option PublicKey) :=
  Query.record (LedgerKey.keyOf id) fun bytes => .ok ⟨bytes⟩

def isRegistered (id : ValidatorId) : Query Bool :=
  Query.contains (LedgerKey.keyOf id)

/-- The number that the next new key gets. -/
def nextId : Query UInt64 := do
  let stored ← Query.record LedgerKey.nextId (LedgerKey.readWord .nextId)
  return stored.getD 1

/-- Fails unless a validator is registered. -/
def requireRegistered (id : ValidatorId) : Query Unit := do
  unless ← isRegistered id do
    throw (.breach (.unregistered id))

/-- A validator from its entry in the registry. -/
def readValidator (entry : Entry Bytes) : Except LedgerError (ValidatorId × PublicKey) :=
  (LedgerKey.readId entry.1).map fun id => (id, ⟨entry.2⟩)

/-- All validators, in the order of their numbers. -/
def validators : Query (List (ValidatorId × PublicKey)) := do
  Query.ofExcept ((← Query.scan KeyFamily.keyById.tag).mapM readValidator)

/-- Gives each key its number, new keys from `next` on; the number that comes next is left. -/
def registerFrom (next : UInt64) : List PublicKey → Transaction (List ValidatorId × UInt64)
  | [] => return ([], next)
  | key :: rest => do
    match ← idOf? key with
    | some id =>
      let (ids, after) ← registerFrom next rest
      return (id :: ids, after)
    | none =>
      let id : ValidatorId := ⟨next⟩
      Transaction.put (LedgerKey.idOf key) (Bytes.ofWord next)
      Transaction.put (LedgerKey.keyOf id) key.bytes
      let (ids, after) ← registerFrom (next + 1) rest
      return (id :: ids, after)

/-- Registers keys and gives their numbers, in order; a key that is there keeps its number. -/
def register (keys : List PublicKey) : Transaction (List ValidatorId) := do
  let (ids, next) ← registerFrom (← nextId) keys
  Transaction.put LedgerKey.nextId (Bytes.ofWord next)
  return ids

/-- Registers keys in a transaction of its own.  The number that comes next is read before and
    after, as a check that it can be. -/
def registerAll (keys : List PublicKey) : LedgerWork (List ValidatorId) :=
  LedgerWork.atomically (do
    let _ ← nextId
    let ids ← register keys
    let _ ← nextId
    return ids) fun _ => true

end SlashingGuard.Ledger
