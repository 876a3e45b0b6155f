import Mathlib.Data.List.Sort
import SlashingGuard.Proofs.Ledger.Queries

/-! # What a ledger lists

    Three scans list what a ledger holds: its validators, and the blocks and
    the attestations of one of them.  On a legible ledger a list has exactly
    the members that the registry or an account has, each of them once, and
    stands in the order of numbers, slots or targets.  Membership and order
    fix a list, so nothing else need be known of a scan. -/

namespace SlashingGuard

/-- Lists with the same members are the same, if both ascend. -/
theorem eq_of_ascending {α : Type} {number : α → UInt64} {l l' : List α}
    (h : l.Pairwise fun a b => number a < number b)
    (h' : l'.Pairwise fun a b => number a < number b) (same : ∀ a, a ∈ l ↔ a ∈ l') : l = l' := by
  have irrefl : Std.Irrefl fun a b => number a < number b := ⟨fun a => UInt64.lt_irrefl (number a)⟩
  have antisymm : Std.Antisymm fun a b => number a < number b :=
    ⟨fun _ _ lt gt => absurd gt (UInt64.lt_asymm lt)⟩
  exact h.eq_of_mem_iff h' same

namespace Place

/-- The places whose keys begin with the tag of the numbers are those of numbers. -/
theorem keyOf_tag_isPrefixOf {place : Place} :
    KeyFamily.keyById.tag.isPrefixOf place.bytes ↔ ∃ id, place = .keyOf id := by
  rw [tag_isPrefixOf]
  cases place <;> simp [family]

end Place

namespace Ledger

/-- The entry of a number is read as a validator. -/
theorem readValidator_keyOf (id : ValidatorId) (value : Bytes) :
    readValidator ((Place.keyOf id).bytes, value) = .ok (id, ⟨value⟩) := by
  rw [readValidator, LedgerKey.readId_keyOf]
  rfl

/-- The entry of a block is read as the block. -/
theorem readBlock_block (id : ValidatorId) (slot : Slot) (value : Bytes) :
    readBlock id ((Place.block id slot).bytes, value) = .ok ⟨id, slot, ⟨value⟩⟩ := by
  rw [readBlock]
  show (LedgerKey.readIndex .block (KeyFamily.block.indexed id slot)).map _ = _
  rw [LedgerKey.readIndex_indexed]
  rfl

end Ledger

namespace Table

variable {t : Table Bytes}

/-! ## Lists -/

/-- The validators of a ledger. -/
def validators (t : Table Bytes) : List (ValidatorId × PublicKey) :=
  (t.scan KeyFamily.keyById.tag).filterMap fun entry => (Ledger.readValidator entry).toOption

/-- The blocks of a validator. -/
def blocks (t : Table Bytes) (id : ValidatorId) : List SignedBlock :=
  (t.scan (KeyFamily.block.scope id)).filterMap fun entry => (Ledger.readBlock id entry).toOption

/-! ## Entries behind a list -/

namespace Legible

theorem exists_of_mem_scan_keyOf (legible : t.Legible) {entry : Entry Bytes}
    (member : entry ∈ t.scan KeyFamily.keyById.tag) :
    ∃ id value, entry = ((Place.keyOf id).bytes, value) := by
  obtain ⟨key, value⟩ := entry
  obtain ⟨found, scope⟩ := mem_scan.1 member
  obtain ⟨place, rfl, -⟩ := legible.documented _ _ found
  obtain ⟨id, rfl⟩ := Place.keyOf_tag_isPrefixOf.1 scope
  exact ⟨id, value, rfl⟩

theorem exists_of_mem_scan_block (legible : t.Legible) {id : ValidatorId} {entry : Entry Bytes}
    (member : entry ∈ t.scan (KeyFamily.block.scope id)) :
    ∃ slot value, entry = ((Place.block id slot).bytes, value) := by
  obtain ⟨slot, key⟩ := legible.indexed_records .block id entry member
  exact ⟨slot, entry.2, Prod.ext key rfl⟩

theorem exists_of_mem_scan_attestation (legible : t.Legible) {id : ValidatorId}
    {entry : Entry Bytes} (member : entry ∈ t.scan (KeyFamily.attestation.scope id)) :
    ∃ target value source root, entry = ((Place.attestation id target).bytes, value) ∧
      LedgerValue.readAttestation value = .ok (source, root) := by
  obtain ⟨key, value⟩ := entry
  obtain ⟨target, rfl⟩ := legible.indexed_records .attestation id _ member
  obtain ⟨source, root, read⟩ := legible.reads (.attestation id target) (mem_scan.1 member).1
  exact ⟨target, value, source, root, rfl, read⟩

end Legible

/-! ## Members -/

theorem mem_validators (legible : t.Legible) {id : ValidatorId} {key : PublicKey} :
    (id, key) ∈ t.validators ↔ t.registry.keyOf id = some key := by
  rw [validators, List.mem_filterMap]
  constructor
  · rintro ⟨entry, member, read⟩
    obtain ⟨id', value, rfl⟩ := legible.exists_of_mem_scan_keyOf member
    rw [Ledger.readValidator_keyOf] at read
    obtain ⟨rfl, rfl⟩ := Prod.ext_iff.1 (Option.some.inj read)
    have found := (mem_scan.1 member).1
    exact Option.bind_eq_some_iff.2 ⟨value, found, rfl⟩
  · intro known
    obtain ⟨value, found, read⟩ := Option.bind_eq_some_iff.1 known
    obtain rfl := Option.some.inj read
    refine ⟨_, mem_scan.2 ⟨found, Place.keyOf_tag_isPrefixOf.2 ⟨id, rfl⟩⟩, ?_⟩
    rw [Ledger.readValidator_keyOf]
    rfl

theorem mem_blocks (legible : t.Legible) {id : ValidatorId} {b : SignedBlock} :
    b ∈ t.blocks id ↔ b.validator = id ∧ (t.account id).block b.slot = some b.root := by
  rw [blocks, List.mem_filterMap]
  constructor
  · rintro ⟨entry, member, read⟩
    obtain ⟨slot, value, rfl⟩ := legible.exists_of_mem_scan_block member
    rw [Ledger.readBlock_block] at read
    obtain rfl := Option.some.inj read
    have found := (mem_scan.1 member).1
    exact ⟨rfl, Option.bind_eq_some_iff.2 ⟨value, found, rfl⟩⟩
  · obtain ⟨validator, slot, root⟩ := b
    rintro ⟨rfl, stored⟩
    obtain ⟨value, found, read⟩ := Option.bind_eq_some_iff.1 stored
    obtain rfl := Option.some.inj read
    refine ⟨_, mem_scan.2 ⟨found, (@Place.record_scope_isPrefixOf .block _ _).2 ⟨slot, rfl⟩⟩, ?_⟩
    rw [Ledger.readBlock_block]
    rfl

/-! ## Order -/

/-- What is read from a scan stands in the order of the keys. -/
theorem pairwise_filterMap_scan {α : Type} {scope : Bytes} {read : Entry Bytes → Option α}
    {key : α → Bytes}
    (h : ∀ entry ∈ t.scan scope, ∀ a, read entry = some a → entry.1 = key a) :
    ((t.scan scope).filterMap read).Pairwise fun a b => key a < key b := by
  rw [List.pairwise_filterMap]
  -- A scan ascends by its keys, and what is read from an entry names the key again.
  refine (t.ascending_scan scope).imp_of_mem ?_
  intro entry entry' member member' lt a found a' found'
  rwa [← h entry member a found, ← h entry' member' a' found']

theorem ascending_validators (legible : t.Legible) :
    t.validators.Pairwise fun v w => v.1.number < w.1.number := by
  have keys : t.validators.Pairwise fun v w => (Place.keyOf v.1).bytes < (Place.keyOf w.1).bytes := by
    refine pairwise_filterMap_scan fun entry member v read => ?_
    obtain ⟨id, value, rfl⟩ := legible.exists_of_mem_scan_keyOf member
    rw [Ledger.readValidator_keyOf] at read
    obtain rfl := Option.some.inj read
    rfl
  exact keys.imp LedgerKey.keyOf_lt_keyOf.1

theorem ascending_blocks (legible : t.Legible) (id : ValidatorId) :
    (t.blocks id).Pairwise fun a b => a.slot < b.slot := by
  have keys : (t.blocks id).Pairwise fun a b =>
      (Place.block id a.slot).bytes < (Place.block id b.slot).bytes := by
    refine pairwise_filterMap_scan fun entry member b read => ?_
    obtain ⟨slot, value, rfl⟩ := legible.exists_of_mem_scan_block member
    rw [Ledger.readBlock_block] at read
    obtain rfl := Option.some.inj read
    rfl
  exact keys.imp LedgerKey.indexed_lt_indexed.1

theorem ascending_votes (legible : t.Legible) (id : ValidatorId) :
    (t.votes id).Pairwise fun a b => a.target < b.target := by
  have keys : (t.votes id).Pairwise fun a b =>
      (Place.attestation id a.target).bytes < (Place.attestation id b.target).bytes := by
    refine pairwise_filterMap_scan fun entry member a read => ?_
    obtain ⟨target, value, source, root, rfl, hv⟩ := legible.exists_of_mem_scan_attestation member
    rw [Ledger.readAttestation_eq hv] at read
    obtain rfl := Option.some.inj read
    rfl
  exact keys.imp LedgerKey.indexed_lt_indexed.1

end Table

/-! ## Listing -/

namespace Ledger

variable {t : Table Bytes}

theorem yields_validators (legible : t.Legible) : validators.Yields t (.ok t.validators) := by
  refine (Query.yields_scan _).bind ?_
  have read : ∀ entry ∈ t.scan KeyFamily.keyById.tag, ∃ v, readValidator entry = .ok v := by
    intro entry member
    obtain ⟨id, value, rfl⟩ := legible.exists_of_mem_scan_keyOf member
    exact ⟨_, readValidator_keyOf id value⟩
  rw [mapM_eq_filterMap read]
  exact Query.yields_ofExcept _

theorem yields_blocks (legible : t.Legible) (id : ValidatorId) :
    (blocks id).Yields t (.ok (t.blocks id)) := by
  refine (Query.yields_scan _).bind ?_
  have read : ∀ entry ∈ t.scan (KeyFamily.block.scope id), ∃ b, readBlock id entry = .ok b := by
    intro entry member
    obtain ⟨slot, value, rfl⟩ := legible.exists_of_mem_scan_block member
    exact ⟨_, readBlock_block id slot value⟩
  rw [mapM_eq_filterMap read]
  exact Query.yields_ofExcept _

end Ledger

end SlashingGuard
