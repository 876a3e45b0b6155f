import SlashingGuard.Proofs.Ledger.View

/-! # Well-formed ledgers

    A ledger is well formed if each of its keys is the key of a place, each
    value can be read there, and records and floors belong to registered
    validators.  Nothing is said about how records and floors relate.  The
    empty ledger is well formed, and the changes that work on the ledger makes
    keep it so.

    Two weaker conditions are kept apart, since queries and prunes ask for no
    more: a ledger is legible if it can be read, and regular if the owners are
    registered too.  What they leave open is the order of the epochs of a
    vote. -/

namespace SlashingGuard

/-! ## Places and their values -/

namespace Place

/-- Whether a value can be read at a place.  A vote has its source no later than its target. -/
def Accepts : Place → Bytes → Prop
  | .idOf _, value => ∃ n, LedgerKey.readWord .validator value = .ok n
  | .nextId, value => ∃ n, LedgerKey.readWord .nextId value = .ok n
  | .keyOf _, _ => True
  | .block _ _, _ => True
  | .attestation _ target, value =>
    ∃ source root, LedgerValue.readAttestation value = .ok (source, root) ∧ source ≤ target
  | .floor _ .block, value => ∃ n, LedgerKey.readWord .slotFloor value = .ok n
  | .floor _ .attestation, value => ∃ floors, LedgerValue.readEpochFloors value = .ok floors

/-- Whether a value can be read at a place, whatever the order of the epochs that it gives. -/
def Reads : Place → Bytes → Prop
  | .attestation _ _, value =>
    ∃ source root, LedgerValue.readAttestation value = .ok (source, root)
  | place, value => place.Accepts value

theorem Accepts.reads {place : Place} {value : Bytes} (h : place.Accepts value) :
    place.Reads value := by
  cases place with
  | attestation id target =>
    obtain ⟨source, root, read, -⟩ := h
    exact ⟨source, root, read⟩
  | _ => exact h

/-- The validator whose record or floor stands at a place. -/
def owner? : Place → Option ValidatorId
  | .block id _ => some id
  | .attestation id _ => some id
  | .floor id _ => some id
  | _ => none

end Place

/-! ## Ledgers -/

namespace Table

/-- Every key is the key of a place where its value can be read. -/
structure Legible (t : Table Bytes) : Prop where
  documented : ∀ key value, t.get? key = some value →
    ∃ place : Place, key = place.bytes ∧ place.Reads value

/-- A legible ledger where whoever has records or floors is registered. -/
structure Regular (t : Table Bytes) : Prop extends Legible t where
  owned : ∀ (place : Place) (id : ValidatorId), place.owner? = some id →
    (t.get? place.bytes).isSome → t.isRegistered id

/-- Every key is the key of a place that accepts its value, and whoever has records or floors is
    registered. -/
structure WellFormed (t : Table Bytes) : Prop where
  accepted : ∀ key value, t.get? key = some value →
    ∃ place : Place, key = place.bytes ∧ place.Accepts value
  owned : ∀ (place : Place) (id : ValidatorId), place.owner? = some id →
    (t.get? place.bytes).isSome → t.isRegistered id

theorem isRegistered_eq_contains (t : Table Bytes) (id : ValidatorId) :
    t.isRegistered id = t.contains (Place.keyOf id).bytes := by
  simp only [isRegistered, registry, readAt, contains]
  cases t.get? (Place.keyOf id).bytes <;> rfl

/-- No write takes a validator out of the registry. -/
theorem isRegistered_insert {t : Table Bytes} {id : ValidatorId} (h : t.isRegistered id)
    (place : Place) (value : Bytes) : (t.insert place.bytes value).isRegistered id := by
  rw [isRegistered_eq_contains, contains] at h ⊢
  rw [get?_insert]
  split
  · rfl
  · exact h

/-! ### Legible and regular ledgers -/

namespace Legible

variable {t : Table Bytes} {id : ValidatorId}

theorem reads (legible : t.Legible) (place : Place) {value : Bytes}
    (h : t.get? place.bytes = some value) : place.Reads value := by
  obtain ⟨place', same, reads⟩ := legible.documented _ _ h
  rwa [Place.bytes_inj.1 same]

theorem insert (legible : t.Legible) {place : Place} {value : Bytes} (reads : place.Reads value) :
    (t.insert place.bytes value).Legible where
  documented key value' h := by
    rw [get?_insert] at h
    split at h
    · next same => exact ⟨place, same.symm, Option.some.inj h ▸ reads⟩
    · exact legible.documented key value' h

/-- Taking keys out leaves the rest as it was. -/
theorem of_sublist {t' : Table Bytes} (legible : t.Legible)
    (kept : ∀ key value, t'.get? key = some value → t.get? key = some value) : t'.Legible where
  documented key value h := legible.documented key value (kept key value h)

theorem raiseSlot (legible : t.Legible) (id : ValidatorId) (slot : Slot) :
    (t.raiseSlot id slot).Legible := by
  unfold Table.raiseSlot
  split
  · exact legible.insert ⟨_, LedgerKey.readWord_ofWord _ _⟩
  · exact legible

theorem raiseEpochs (legible : t.Legible) (id : ValidatorId) (source target : Epoch) :
    (t.raiseEpochs id source target).Legible := by
  unfold Table.raiseEpochs
  split
  · exact legible.insert ⟨_, LedgerValue.readEpochFloors_writeEpochFloors _ _⟩
  · exact legible

theorem dropBelow (legible : t.Legible) (family : KeyFamily) (id : ValidatorId)
    (bound : UInt64) : (t.dropBelow family id bound).Legible := by
  refine legible.of_sublist fun key value h => ?_
  rw [get?_dropBelow] at h
  split at h
  · contradiction
  · exact h

end Legible

namespace Regular

variable {t : Table Bytes} {id : ValidatorId}

/-- Whoever has something at a place is registered. -/
theorem registered_of_readAt {α : Type} (regular : t.Regular) (place : Place)
    {read : Bytes → Except LedgerError α} {a : α} (owner : place.owner? = some id)
    (h : t.readAt place read = some a) : t.isRegistered id := by
  obtain ⟨value, found, -⟩ := Option.bind_eq_some_iff.1 h
  exact regular.owned place id owner (by rw [found]; rfl)

theorem registered_of_slotFloor (regular : t.Regular) {floor : Slot}
    (h : (t.account id).slotFloor = some floor) : t.isRegistered id :=
  regular.registered_of_readAt _ rfl h

theorem registered_of_targetFloor (regular : t.Regular) {floor : Epoch}
    (h : (t.account id).targetFloor = some floor) : t.isRegistered id := by
  obtain ⟨floors, hf, -⟩ := Option.map_eq_some_iff.1 h
  exact regular.registered_of_readAt _ rfl hf

theorem insert (regular : t.Regular) {place : Place} {value : Bytes} (reads : place.Reads value)
    (owned : ∀ id, place.owner? = some id → t.isRegistered id) :
    (t.insert place.bytes value).Regular where
  toLegible := regular.toLegible.insert reads
  owned place' id' owner h := by
    apply isRegistered_insert
    rw [get?_insert] at h
    split at h
    · next same => exact owned id' (Place.bytes_inj.1 same ▸ owner)
    · exact regular.owned place' id' owner h

theorem dropBelow (regular : t.Regular) {family : KeyFamily} {bound : UInt64}
    (same : (t.dropBelow family id bound).registry = t.registry) :
    (t.dropBelow family id bound).Regular where
  toLegible := regular.toLegible.dropBelow family id bound
  owned place id' owner h := by
    rw [isRegistered, same]
    rw [get?_dropBelow] at h
    split at h
    · contradiction
    · exact regular.owned place id' owner h

end Regular

/-! ### Well-formed ledgers -/

namespace WellFormed

theorem empty : (Table.empty : Table Bytes).WellFormed where
  accepted _ _ h := by contradiction
  owned _ _ _ h := by contradiction

variable {t : Table Bytes} {id : ValidatorId}

theorem accepts (wf : t.WellFormed) (place : Place) {value : Bytes}
    (h : t.get? place.bytes = some value) : place.Accepts value := by
  obtain ⟨place', same, accepts⟩ := wf.accepted _ _ h
  rwa [Place.bytes_inj.1 same]

theorem ordered (wf : t.WellFormed) (id : ValidatorId) : (t.account id).Ordered := by
  intro target source root h
  obtain ⟨value, hv, read⟩ := Option.bind_eq_some_iff.1 h
  obtain ⟨source', root', read', le⟩ := wf.accepts _ hv
  rw [read'] at read
  obtain ⟨rfl, rfl⟩ : source' = source ∧ root' = root := by simpa [Except.toOption] using read
  exact le

theorem regular (wf : t.WellFormed) : t.Regular where
  documented key value h := by
    obtain ⟨place, same, accepts⟩ := wf.accepted key value h
    exact ⟨place, same, accepts.reads⟩
  owned := wf.owned

theorem legible (wf : t.WellFormed) : t.Legible := wf.regular.toLegible

/-! ### Changes keep a ledger well formed -/

theorem insert (wf : t.WellFormed) {place : Place} {value : Bytes} (accepts : place.Accepts value)
    (owned : ∀ id, place.owner? = some id → t.isRegistered id) :
    (t.insert place.bytes value).WellFormed where
  accepted key value' h := by
    rw [get?_insert] at h
    split at h
    · next same => exact ⟨place, same.symm, Option.some.inj h ▸ accepts⟩
    · exact wf.accepted key value' h
  owned place' id' owner h := by
    apply isRegistered_insert
    rw [get?_insert] at h
    split at h
    · next same => exact owned id' (Place.bytes_inj.1 same ▸ owner)
    · exact wf.owned place' id' owner h

theorem putBlock (wf : t.WellFormed) (registered : t.isRegistered id) (slot : Slot)
    (root : SigningRoot) : (t.putBlock id slot root).WellFormed :=
  wf.insert trivial fun _ h => Option.some.inj h ▸ registered

theorem putVote (wf : t.WellFormed) (registered : t.isRegistered id) {vote : Vote}
    (ordered : vote.source ≤ vote.target) (root : SigningRoot) :
    (t.putVote id vote root).WellFormed :=
  wf.insert ⟨_, _, LedgerValue.readAttestation_writeAttestation _ _, ordered⟩
    fun _ h => Option.some.inj h ▸ registered

theorem raiseSlot (wf : t.WellFormed) (registered : t.isRegistered id) (slot : Slot) :
    (t.raiseSlot id slot).WellFormed := by
  unfold Table.raiseSlot
  split
  · exact wf.insert ⟨_, LedgerKey.readWord_ofWord _ _⟩ fun _ h => Option.some.inj h ▸ registered
  · exact wf

theorem raiseEpochs (wf : t.WellFormed) (registered : t.isRegistered id)
    (source target : Epoch) : (t.raiseEpochs id source target).WellFormed := by
  unfold Table.raiseEpochs
  split
  · exact wf.insert ⟨_, LedgerValue.readEpochFloors_writeEpochFloors _ _⟩
      fun _ h => Option.some.inj h ▸ registered
  · exact wf

/-- Taking records out leaves the rest as it was. -/
theorem dropBelow (wf : t.WellFormed) {family : KeyFamily} {bound : UInt64}
    (same : (t.dropBelow family id bound).registry = t.registry) :
    (t.dropBelow family id bound).WellFormed where
  accepted key value h := by
    rw [get?_dropBelow] at h
    split at h
    · contradiction
    · exact wf.accepted key value h
  owned place id' owner h := by
    rw [isRegistered, same]
    rw [get?_dropBelow] at h
    split at h
    · contradiction
    · exact wf.owned place id' owner h

theorem dropBlocks (wf : t.WellFormed) (bound : Slot) : (t.dropBlocks id bound).WellFormed :=
  wf.dropBelow (registry_dropBlocks t id bound)

theorem dropVotes (wf : t.WellFormed) (bound : Epoch) : (t.dropVotes id bound).WellFormed :=
  wf.dropBelow (registry_dropVotes t id bound)

theorem enroll (wf : t.WellFormed) (key : PublicKey) (number : UInt64) :
    (t.enroll key number).WellFormed := by
  -- Neither place has an owner, so nobody has to be registered for it.
  have numbered : (t.insert (Place.idOf key).bytes (Bytes.ofWord number)).WellFormed :=
    wf.insert ⟨number, LedgerKey.readWord_ofWord _ _⟩ (by simp [Place.owner?])
  exact numbered.insert trivial (by simp [Place.owner?])

theorem setNext (wf : t.WellFormed) (number : UInt64) : (t.setNext number).WellFormed :=
  wf.insert ⟨number, LedgerKey.readWord_ofWord _ _⟩ (by simp [Place.owner?])

end WellFormed

end Table

end SlashingGuard
