import SlashingGuard.Duty.Record
import SlashingGuard.Json.Basic
import SlashingGuard.Json.Record

/-! # Interchange documents

    The history of validators as one JSON document: its version, the root
    that names the chain, and for each validator its blocks, its attestations
    and its floors.  Numbers are decimal text and byte strings are hexadecimal
    text.  A floor that is not set is left out, and so are all of them when
    none is set. -/

namespace SlashingGuard.Interchange

/-! ## Documents -/

/-- A block in a document. -/
structure BlockRecord where
  slot : Slot
  root : SigningRoot
  deriving DecidableEq, Repr

/-- An attestation in a document. -/
structure AttestationRecord where
  source : Epoch
  target : Epoch
  root : SigningRoot
  deriving DecidableEq, Repr

/-- The floors of a validator in a document. -/
structure FloorRecord where
  slot : Floor
  source : Floor
  target : Floor
  deriving DecidableEq, Repr

/-- The history of one validator. -/
structure History where
  key : PublicKey
  blocks : List BlockRecord
  attestations : List AttestationRecord
  floors : Option FloorRecord
  deriving DecidableEq, Repr

/-- What a document says about itself. -/
structure Metadata where
  version : String
  genesisRoot : SigningRoot
  deriving DecidableEq, Repr

structure Document where
  metadata : Metadata
  histories : List History
  deriving DecidableEq, Repr

/-- The version of the format that is written. -/
def formatVersion : String := "5"

namespace BlockRecord

def ofBlock (b : SignedBlock) : BlockRecord := ⟨b.slot, b.root⟩

end BlockRecord

namespace AttestationRecord

def ofAttestation (a : SignedAttestation) : AttestationRecord := ⟨a.source, a.target, a.root⟩

end AttestationRecord

namespace FloorRecord

def ofWatermark (w : Watermark) : FloorRecord := ⟨w.slot, w.source, w.target⟩

end FloorRecord

/-! ## Values -/

/-- A number as decimal text. -/
def wordText (n : UInt64) : Json := .text (Decimal.write n.toNat)

def readWordText : Json.Reader UInt64 := Json.readParsed Decimal.read Decimal.Trouble.message

def rootText (root : SigningRoot) : Json := .text root.write

def readRootText : Json.Reader SigningRoot :=
  Json.readParsed SigningRoot.read Hex.Invalid.message

def keyText (key : PublicKey) : Json := .text key.write

def readKeyText : Json.Reader PublicKey := Json.readParsed PublicKey.read Hex.Invalid.message

/-! ## Records -/

namespace BlockRecord

def toJson (b : BlockRecord) : Json :=
  .object [("slot", wordText b.slot), ("signing_root", rootText b.root)]

def record : Json.Record BlockRecord where
  name := "SignedBlockRecord"
  members := [
    .of "slot" .everywhere readWordText fun n b => { b with slot := n },
    .of "signing_root" .everywhere readRootText fun r b => { b with root := r }]
  draft := ⟨0, ⟨[]⟩⟩

end BlockRecord

namespace AttestationRecord

def toJson (a : AttestationRecord) : Json :=
  .object [("source_epoch", wordText a.source), ("target_epoch", wordText a.target),
    ("signing_root", rootText a.root)]

def record : Json.Record AttestationRecord where
  name := "SignedAttestationRecord"
  members := [
    .of "source_epoch" .everywhere readWordText fun n a => { a with source := n },
    .of "target_epoch" .everywhere readWordText fun n a => { a with target := n },
    .of "signing_root" .everywhere readRootText fun r a => { a with root := r }]
  draft := ⟨0, 0, ⟨[]⟩⟩

end AttestationRecord

namespace FloorRecord

def toJson (f : FloorRecord) : Json :=
  .object (Json.optionalMember "slot" wordText f.slot ++
    Json.optionalMember "source_epoch" wordText f.source ++
    Json.optionalMember "target_epoch" wordText f.target)

def record : Json.Record FloorRecord where
  name := "WatermarkRecord"
  members := [
    .of "slot" .nowhere (Json.readOptional readWordText) fun n f => { f with slot := n },
    .of "source_epoch" .nowhere (Json.readOptional readWordText) fun n f =>
      { f with source := n },
    .of "target_epoch" .nowhere (Json.readOptional readWordText) fun n f =>
      { f with target := n }]
  draft := ⟨none, none, none⟩

end FloorRecord

namespace History

def toJson (h : History) : Json :=
  .object ([
    ("pubkey", keyText h.key),
    ("signed_blocks", .array (h.blocks.map BlockRecord.toJson)),
    ("signed_attestations", .array (h.attestations.map AttestationRecord.toJson))] ++
    Json.optionalMember "watermark" FloorRecord.toJson h.floors)

def record : Json.Record History where
  name := "ValidatorHistory"
  members := [
    .of "pubkey" .everywhere readKeyText fun k h => { h with key := k },
    .of "signed_blocks" .everywhere (Json.readList BlockRecord.record.read) fun bs h =>
      { h with blocks := bs },
    .of "signed_attestations" .everywhere (Json.readList AttestationRecord.record.read)
      fun as h => { h with attestations := as },
    .of "watermark" .inArrays (Json.readOptional FloorRecord.record.read) fun f h =>
      { h with floors := f }]
  draft := ⟨⟨[]⟩, [], [], none⟩

end History

namespace Metadata

/-- The metadata of documents written for a chain. -/
def current (genesisRoot : SigningRoot) : Metadata := ⟨formatVersion, genesisRoot⟩

def toJson (m : Metadata) : Json :=
  .object [("interchange_format_version", .text m.version),
    ("genesis_validators_root", rootText m.genesisRoot)]

def record : Json.Record Metadata where
  name := "InterchangeMetadata"
  members := [
    .of "interchange_format_version" .everywhere Json.readText fun v m => { m with version := v },
    .of "genesis_validators_root" .everywhere readRootText fun r m =>
      { m with genesisRoot := r }]
  draft := ⟨"", ⟨[]⟩⟩

end Metadata

namespace Document

def toJson (d : Document) : Json :=
  .object [("metadata", d.metadata.toJson), ("data", .array (d.histories.map History.toJson))]

def record : Json.Record Document where
  name := "InterchangeDocument"
  members := [
    .of "metadata" .everywhere Metadata.record.read fun m d => { d with metadata := m },
    .of "data" .everywhere (Json.readList History.record.read) fun hs d =>
      { d with histories := hs }]
  draft := ⟨Metadata.current ⟨[]⟩, []⟩

/-- The document that a JSON text holds. -/
def ofText (text : String) : Except Json.Error Document :=
  Json.readWhole record.read text

end Document

end SlashingGuard.Interchange
