import SlashingGuard.Ledger.Error

/-! # Keys of the ledger

    Six families of keys, each behind a tag of two bytes:

    * `v:` and a public key — the number of the validator;
    * `i:` and a validator — its public key;
    * `m:next_validator_id` — the number that the next validator gets;
    * `b:`, a validator and a slot — the signing root of a block;
    * `a:`, a validator and a target epoch — an attestation;
    * `w:`, a validator and `b` or `a` — the floors of a duty kind.

    Numbers take eight bytes, most significant first, so that the keys of one
    validator in one family stand together, in the order of their numbers. -/

namespace SlashingGuard

/-- The families of keys. -/
inductive KeyFamily where
  | idByKey
  | keyById
  | metadata
  | block
  | attestation
  | floor
  deriving DecidableEq, Repr

/-- The byte of an ASCII letter. -/
def asciiByte (c : Char) : UInt8 := UInt8.ofNat c.toNat

namespace KeyFamily

def letter : KeyFamily → Char
  | .idByKey => 'v'
  | .keyById => 'i'
  | .metadata => 'm'
  | .block => 'b'
  | .attestation => 'a'
  | .floor => 'w'

/-- The bytes that every key of a family begins with. -/
def tag (family : KeyFamily) : Bytes :=
  [asciiByte family.letter, asciiByte ':']

/-- What every key of one validator in a family begins with. -/
def scope (family : KeyFamily) (id : ValidatorId) : Bytes :=
  family.tag ++ Bytes.ofWord id.number

/-- The key of one validator in a family at a number. -/
def indexed (family : KeyFamily) (id : ValidatorId) (index : UInt64) : Bytes :=
  family.scope id ++ Bytes.ofWord index

end KeyFamily

namespace LedgerKey

/-! ## The keys -/

def nextId : Bytes := KeyFamily.metadata.tag ++ Bytes.ofAscii "next_validator_id"

def idOf (key : PublicKey) : Bytes := KeyFamily.idByKey.tag ++ key.bytes

def keyOf (id : ValidatorId) : Bytes := KeyFamily.keyById.scope id

def block (id : ValidatorId) (slot : Slot) : Bytes := KeyFamily.block.indexed id slot

def attestation (id : ValidatorId) (target : Epoch) : Bytes :=
  KeyFamily.attestation.indexed id target

/-- The letter that a duty kind has in keys. -/
def kindLetter : DutyKind → Char
  | .block => 'b'
  | .attestation => 'a'

def floor (id : ValidatorId) (kind : DutyKind) : Bytes :=
  KeyFamily.floor.scope id ++ [asciiByte (kindLetter kind)]

/-! ## Reading them back -/

/-- A number in eight bytes, most significant first. -/
def readWord (what : RecordKind) (bytes : Bytes) : Except LedgerError UInt64 :=
  if bytes.length = 8 then .ok (UInt64.ofNat (Bytes.ofBigEndian bytes))
  else .error (.corrupt what (.wrongLength bytes.length))

/-- The number at the end of a key. -/
def readIndex (what : RecordKind) (key : Bytes) : Except LedgerError UInt64 :=
  if key.length < 8 then .error (.corrupt what .shortKey)
  else readWord what (key.drop (key.length - 8))

/-- The validator of a key that holds nothing else. -/
def readId (key : Bytes) : Except LedgerError ValidatorId :=
  if key.length = KeyFamily.keyById.tag.length + 8 then
    (readWord .validator (key.drop KeyFamily.keyById.tag.length)).map ValidatorId.mk
  else .error (.corrupt .validator .strangeKey)

end LedgerKey

end SlashingGuard
