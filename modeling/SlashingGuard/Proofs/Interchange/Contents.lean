import Mathlib.Data.List.Forall2
import SlashingGuard.Interchange.Document
import SlashingGuard.Proofs.Ledger.Listing

/-! # What a document tells of a ledger

    A document tells what a ledger holds if it names every validator of the
    registry once, in the order of their numbers, with all records of its
    account in their order and the floors that are set, and if it has nothing
    else.  There is one such document for a legible ledger and a chain, and no
    other. -/

namespace SlashingGuard.Interchange

variable {t : Table Bytes} {id : ValidatorId}

/-- A history tells exactly what a ledger holds of a validator.  Floors are there if one is set,
    and then those that are set are. -/
structure History.Tells (t : Table Bytes) (id : ValidatorId) (h : History) : Prop where
  key : t.registry.keyOf id = some h.key
  mem_blocks : ∀ b, b ∈ h.blocks ↔ (t.account id).block b.slot = some b.root
  blocks_ascend : h.blocks.Pairwise fun a b => a.slot < b.slot
  mem_attestations : ∀ a,
    a ∈ h.attestations ↔ (t.account id).vote a.target = some (a.source, a.root)
  attestations_ascend : h.attestations.Pairwise fun a b => a.target < b.target
  has_floors : h.floors.isSome ↔
    (t.account id).slotFloor.isSome ∨ (t.account id).epochFloors.isSome
  floors : ∀ f, h.floors = some f →
    f = ⟨(t.account id).slotFloor, (t.account id).sourceFloor, (t.account id).targetFloor⟩

/-- A document tells exactly what a ledger holds, and names the chain. -/
structure Document.Tells (t : Table Bytes) (genesisRoot : SigningRoot) (d : Document) : Prop where
  metadata : d.metadata = ⟨"5", genesisRoot⟩
  histories : ∃ ids : List ValidatorId, ids.Pairwise (fun a b => a.number < b.number) ∧
    (∀ id, id ∈ ids ↔ t.isRegistered id) ∧ List.Forall₂ (History.Tells t) ids d.histories

/-! ## No other document -/

theorem History.Tells.eq {h h' : History} (tells : h.Tells t id) (tells' : h'.Tells t id) :
    h = h' := by
  have key : h.key = h'.key := Option.some.inj (tells.key.symm.trans tells'.key)
  have blocks : h.blocks = h'.blocks :=
    eq_of_ascending tells.blocks_ascend tells'.blocks_ascend fun b =>
      (tells.mem_blocks b).trans (tells'.mem_blocks b).symm
  have attestations : h.attestations = h'.attestations :=
    eq_of_ascending tells.attestations_ascend tells'.attestations_ascend fun a =>
      (tells.mem_attestations a).trans (tells'.mem_attestations a).symm
  -- Both have floors or neither has, and floors that are there are those of the account.
  have floors : h.floors = h'.floors := by
    have same := tells.has_floors.trans tells'.has_floors.symm
    cases hf : h.floors with
    | none =>
      cases hf' : h'.floors with
      | none => rfl
      | some f' => simp [hf, hf'] at same
    | some f =>
      cases hf' : h'.floors with
      | none => simp [hf, hf'] at same
      | some f' => rw [tells.floors f hf, tells'.floors f' hf']
  obtain ⟨_, _, _, _⟩ := h
  obtain ⟨_, _, _, _⟩ := h'
  exact (History.mk.injEq ..).mpr ⟨key, blocks, attestations, floors⟩

theorem Document.Tells.eq {genesisRoot : SigningRoot} {d d' : Document}
    (tells : d.Tells t genesisRoot) (tells' : d'.Tells t genesisRoot) : d = d' := by
  obtain ⟨ids, ascend, mem, histories⟩ := tells.histories
  obtain ⟨ids', ascend', mem', histories'⟩ := tells'.histories
  obtain rfl : ids = ids' :=
    eq_of_ascending ascend ascend' fun id => (mem id).trans (mem' id).symm
  have metadata : d.metadata = d'.metadata := tells.metadata.trans tells'.metadata.symm
  have histories : d.histories = d'.histories :=
    List.right_unique_forall₂' (fun _ _ _ tells tells' => tells.eq tells') histories histories'
  obtain ⟨_, _⟩ := d
  obtain ⟨_, _⟩ := d'
  exact (Document.mk.injEq ..).mpr ⟨metadata, histories⟩

/-! ## The document of a ledger -/

/-- The history of a validator, from what the ledger lists. -/
def historyIn (t : Table Bytes) (id : ValidatorId) (key : PublicKey) : History :=
  ⟨key, (t.blocks id).map BlockRecord.ofBlock,
    (t.votes id).map AttestationRecord.ofAttestation,
    ((t.account id).row? id).map FloorRecord.ofWatermark⟩

/-- The document of a ledger: the histories of the validators that it lists. -/
def documentOf (t : Table Bytes) (genesisRoot : SigningRoot) : Document :=
  ⟨Metadata.current genesisRoot, t.validators.map fun v => historyIn t v.1 v.2⟩

/-- A row is there if one of the floors is set. -/
theorem isSome_row? {a : Account} :
    (a.row? id).isSome ↔ a.slotFloor.isSome ∨ a.epochFloors.isSome := by
  obtain ⟨block, vote, slotFloor, epochFloors⟩ := a
  cases slotFloor <;> cases epochFloors <;> simp [Account.row?]

theorem mem_blocks_historyIn (legible : t.Legible) {key : PublicKey} {b : BlockRecord} :
    b ∈ (historyIn t id key).blocks ↔ (t.account id).block b.slot = some b.root := by
  simp only [historyIn, List.mem_map, Table.mem_blocks legible]
  constructor
  · rintro ⟨block, ⟨-, stored⟩, rfl⟩
    exact stored
  · intro stored
    exact ⟨⟨id, b.slot, b.root⟩, ⟨rfl, stored⟩, rfl⟩

theorem mem_attestations_historyIn (legible : t.Legible) {key : PublicKey}
    {a : AttestationRecord} : a ∈ (historyIn t id key).attestations ↔
      (t.account id).vote a.target = some (a.source, a.root) := by
  simp only [historyIn, List.mem_map, Ledger.mem_votes legible]
  constructor
  · rintro ⟨-, ⟨target, source, root, stored, rfl⟩, rfl⟩
    exact stored
  · intro stored
    exact ⟨_, ⟨a.target, a.source, a.root, stored, rfl⟩, rfl⟩

theorem tells_historyIn (legible : t.Legible) {key : PublicKey}
    (known : t.registry.keyOf id = some key) : (historyIn t id key).Tells t id where
  key := known
  mem_blocks _ := mem_blocks_historyIn legible
  blocks_ascend := (Table.ascending_blocks legible id).map _ fun _ _ lt => lt
  mem_attestations _ := mem_attestations_historyIn legible
  attestations_ascend := (Table.ascending_votes legible id).map _ fun _ _ lt => lt
  has_floors := by
    rw [historyIn, Option.isSome_map]
    exact isSome_row?
  floors f h := by
    -- The row of an account has the floors as they are, if there is a row.
    obtain ⟨w, row, rfl⟩ := Option.map_eq_some_iff.1 h
    rw [Account.row?] at row
    split at row
    · contradiction
    · obtain rfl := Option.some.inj row
      rfl

theorem tells_documentOf (legible : t.Legible) (genesisRoot : SigningRoot) :
    (documentOf t genesisRoot).Tells t genesisRoot where
  metadata := rfl
  histories := by
    refine ⟨t.validators.map Prod.fst, ?_, ?_, ?_⟩
    · exact (Table.ascending_validators legible).map _ fun _ _ lt => lt
    · intro id
      rw [Table.isRegistered, Option.isSome_iff_exists, List.mem_map]
      constructor
      · rintro ⟨v, member, rfl⟩
        exact ⟨v.2, (Table.mem_validators legible).1 member⟩
      · rintro ⟨key, known⟩
        exact ⟨(id, key), (Table.mem_validators legible).2 known, rfl⟩
    · -- Both lists are made from the validators that the ledger lists.
      rw [documentOf, List.forall₂_map_left_iff, List.forall₂_map_right_iff]
      exact List.forall₂_same.2 fun v member =>
        tells_historyIn legible ((Table.mem_validators legible).1 member)

end SlashingGuard.Interchange
