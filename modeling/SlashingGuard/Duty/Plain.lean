import SlashingGuard.Duty.Watermark
import SlashingGuard.Json.Basic
import SlashingGuard.Json.Record

/-! # Duties in plain JSON

    The form in which values are kept beside interchange documents: numbers
    are numbers, byte strings are arrays of numbers, and what is absent is
    null. -/

namespace SlashingGuard

namespace Json

/-- A byte string as an array of numbers. -/
def ofBytes (bytes : Bytes) : Json := .array (bytes.map fun b => .number b.toNat)

def ofWord (n : UInt64) : Json := .number n.toNat

end Json

def PublicKey.toJson (key : PublicKey) : Json := .ofBytes key.bytes

def PublicKey.fromJson : Json.Reader PublicKey := fun input =>
  (Json.readList Json.readByte input).map fun (bytes, rest) => (⟨bytes⟩, rest)

def SigningRoot.toJson (root : SigningRoot) : Json := .ofBytes root.bytes

def SigningRoot.fromJson : Json.Reader SigningRoot := fun input =>
  (Json.readList Json.readByte input).map fun (bytes, rest) => (⟨bytes⟩, rest)

def ValidatorId.toJson (id : ValidatorId) : Json := .ofWord id.number

def ValidatorId.fromJson : Json.Reader ValidatorId := fun input =>
  (Json.readWordNumber input).map fun (n, rest) => (⟨n⟩, rest)

def DutyKind.toJson (kind : DutyKind) : Json := .text kind.name

def DutyKind.fromJson : Json.Reader DutyKind := Json.readEnum DutyKind.named

namespace Watermark

def toJson (w : Watermark) : Json :=
  .object [
    ("validator_id", w.validator.toJson),
    ("slot", Json.orNull Json.ofWord w.slot),
    ("source_epoch", Json.orNull Json.ofWord w.source),
    ("target_epoch", Json.orNull Json.ofWord w.target)]

def record : Json.Record Watermark where
  name := "SigningWatermark"
  members := [
    .of "validator_id" .everywhere ValidatorId.fromJson fun id w => { w with validator := id },
    .of "slot" .inArrays (Json.readOptional Json.readWordNumber) fun n w => { w with slot := n },
    .of "source_epoch" .inArrays (Json.readOptional Json.readWordNumber) fun n w =>
      { w with source := n },
    .of "target_epoch" .inArrays (Json.readOptional Json.readWordNumber) fun n w =>
      { w with target := n }]
  draft := .empty ⟨0⟩

end Watermark

end SlashingGuard
