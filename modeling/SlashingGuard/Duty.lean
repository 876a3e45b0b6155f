import SlashingGuard.Text.Decimal
import SlashingGuard.Text.Hex

/-! # Duties

    Who signs what: validators with their public keys and their ledger
    numbers, the two kinds of duty that can be slashed, and the signing root
    that stands for what is signed. -/

namespace SlashingGuard

/-! ## Time -/

/-- A slot number. -/
abbrev Slot : Type := UInt64

/-- An epoch number. -/
abbrev Epoch : Type := UInt64

/-! ## Validators -/

/-- The number that the ledger gives a validator at its first registration. -/
structure ValidatorId where
  number : UInt64
  deriving DecidableEq, Repr

def ValidatorId.display (id : ValidatorId) : String :=
  Decimal.write id.number.toNat

/-- The public key by which a validator is known to the outside. -/
structure PublicKey where
  bytes : Bytes
  deriving DecidableEq, Repr

namespace PublicKey

/-- The length of a compressed BLS12-381 public key. -/
def blsLength : Nat := 48

def read (text : String) : Except Hex.Invalid PublicKey :=
  (Hex.read text).map PublicKey.mk

def write (key : PublicKey) : String :=
  Hex.write key.bytes

/-- Whether the key has the length of a compressed BLS public key. -/
def isBls (key : PublicKey) : Bool :=
  key.bytes.length == blsLength

/-- The form for messages to people: of a key of more than eight bytes the first eight. -/
def brief (key : PublicKey) : String :=
  if key.bytes.length ≤ 8 then key.write else Hex.write (key.bytes.take 8) ++ "…"

/-- The brief form under the name of the type. -/
def describe (key : PublicKey) : String :=
  "ValidatorPublicKey(" ++ key.brief ++ ")"

end PublicKey

/-! ## What is signed -/

/-- The bytes that a validator's key would sign for a duty. -/
structure SigningRoot where
  bytes : Bytes
  deriving DecidableEq, Repr

namespace SigningRoot

def read (text : String) : Except Hex.Invalid SigningRoot :=
  (Hex.read text).map SigningRoot.mk

def write (root : SigningRoot) : String :=
  Hex.write root.bytes

/-- The written form under the name of the type. -/
def describe (root : SigningRoot) : String :=
  "SigningRoot(" ++ root.write ++ ")"

end SigningRoot

/-- The kinds of duty that can be slashed. -/
inductive DutyKind where
  | block
  | attestation
  deriving DecidableEq, Repr

namespace DutyKind

/-- The word for a kind in messages and counters. -/
def label : DutyKind → String
  | .block => "block"
  | .attestation => "attestation"

/-- The name of a kind where it stands for itself. -/
def name : DutyKind → String
  | .block => "Block"
  | .attestation => "Attestation"

def all : List DutyKind := [.block, .attestation]

/-- The kinds under their names. -/
def named : List (String × DutyKind) :=
  all.map fun kind => (kind.name, kind)

end DutyKind

end SlashingGuard
