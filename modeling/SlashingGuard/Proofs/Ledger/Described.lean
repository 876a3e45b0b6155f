import SlashingGuard.Proofs.Ledger.Archive
import SlashingGuard.Proofs.Ledger.Listing
import SlashingGuard.Proofs.Ledger.Trimming

/-! # Ledgers described by archives

    An archive describes a ledger if it has the same validators and the same
    records.  Every legible ledger is described by one, and the changes that
    put records in and delete them keep it so.  What a scan lists of a
    validator is a listing of the archive: the byte order of the keys is the
    order of the numbers, and no scan sees the records of another validator. -/

namespace SlashingGuard

/-! ## Looking up -/

namespace Table

/-- The block that a ledger has of a validator at a slot. -/
def blockAt (v : Table Bytes) (id : ValidatorId) (slot : Slot) : Option SignedBlock :=
  ((v.account id).block slot).map fun root => ⟨id, slot, root⟩

/-- The attestation that a ledger has of a validator at a target. -/
def attestationAt (v : Table Bytes) (id : ValidatorId) (target : Epoch) :
    Option SignedAttestation :=
  ((v.account id).vote target).map fun vote => ⟨id, vote.1, target, vote.2⟩

/-! ### Behind a change -/

section Changes

variable (v : Table Bytes) (id : ValidatorId)

theorem filed_blockAt : Records.Filed v.blockAt := by
  intro id n b there
  obtain ⟨root, -, rfl⟩ := Option.map_eq_some_iff.1 there
  exact ⟨rfl, rfl⟩

theorem filed_attestationAt : Records.Filed v.attestationAt := by
  intro id n a there
  obtain ⟨vote, -, rfl⟩ := Option.map_eq_some_iff.1 there
  exact ⟨rfl, rfl⟩

theorem blockAt_eq_some {b : SignedBlock} :
    v.blockAt b.validator b.slot = some b ↔
      (v.account b.validator).block b.slot = some b.root := by
  obtain ⟨validator, slot, root⟩ := b
  simp [blockAt]

theorem attestationAt_eq_some {a : SignedAttestation} :
    v.attestationAt a.validator a.target = some a ↔
      (v.account a.validator).vote a.target = some (a.source, a.root) := by
  obtain ⟨validator, source, target, root⟩ := a
  simp [attestationAt]

theorem blockAt_putBlock (slot : Slot) (root : SigningRoot) :
    (v.putBlock id slot root).blockAt = fun i n =>
      if i = id ∧ n = slot then some ⟨id, slot, root⟩ else v.blockAt i n := by
  funext i n
  by_cases owner : i = id
  · by_cases same : n = slot <;> simp [blockAt, owner, same]
  · simp [blockAt, owner]

theorem attestationAt_putVote (vote : Vote) (root : SigningRoot) :
    (v.putVote id vote root).attestationAt = fun i n =>
      if i = id ∧ n = vote.target then some ⟨id, vote.source, vote.target, root.stored⟩
      else v.attestationAt i n := by
  funext i n
  by_cases owner : i = id
  · by_cases same : n = vote.target <;> simp [attestationAt, owner, same]
  · simp [attestationAt, owner]

theorem blockAt_dropBlocks (bound : Slot) :
    (v.dropBlocks id bound).blockAt = fun i n =>
      if i = id ∧ n < bound then none else v.blockAt i n := by
  funext i n
  by_cases owner : i = id
  · by_cases below : n < bound <;> simp [blockAt, owner, below]
  · simp [blockAt, owner]

theorem attestationAt_dropVotes (bound : Epoch) :
    (v.dropVotes id bound).attestationAt = fun i n =>
      if i = id ∧ n < bound then none else v.attestationAt i n := by
  funext i n
  by_cases owner : i = id
  · by_cases below : n < bound <;> simp [attestationAt, owner, below]
  · simp [attestationAt, owner]

theorem attestationAt_putBlock (slot : Slot) (root : SigningRoot) :
    (v.putBlock id slot root).attestationAt = v.attestationAt := by
  funext i n
  by_cases owner : i = id <;> simp [attestationAt, owner]

theorem blockAt_putVote (vote : Vote) (root : SigningRoot) :
    (v.putVote id vote root).blockAt = v.blockAt := by
  funext i n
  by_cases owner : i = id <;> simp [blockAt, owner]

theorem attestationAt_dropBlocks (bound : Slot) :
    (v.dropBlocks id bound).attestationAt = v.attestationAt := by
  funext i n
  by_cases owner : i = id <;> simp [attestationAt, owner]

theorem blockAt_dropVotes (bound : Epoch) : (v.dropVotes id bound).blockAt = v.blockAt := by
  funext i n
  by_cases owner : i = id <;> simp [blockAt, owner]

end Changes

/-- Where no record lies below the bound, a deletion changes nothing. -/
theorem dropBelow_eq_self {v : Table Bytes} (legible : v.Legible) (kind : DutyKind)
    {id : ValidatorId} {bound : UInt64} (none : ∀ n < bound, n ∉ (v.account id).recorded kind) :
    v.dropBelow kind.family id bound = v := by
  refine ext_get? fun key => ?_
  rw [get?_dropBelow]
  split
  · next below =>
    cases found : v.get? key with
    | none => rfl
    | some value =>
      obtain ⟨place, rfl, -⟩ := legible.documented key value found
      obtain ⟨n, lt, rfl⟩ := isBelow_record_iff.1 below
      exact absurd ((mem_recorded_iff legible).2 (by rw [found]; rfl)) (none n lt)
  · rfl

end Table

/-! ## Listings -/

/-- As many elements are picked out as readings of them. -/
theorem length_filter_filterMap {α β : Type} {read : α → Option β} {p : α → Bool} {q : β → Bool}
    {l : List α} (h : ∀ a ∈ l, ∃ b, read a = some b ∧ q b = p a) :
    ((l.filterMap read).filter q).length = (l.filter p).length := by
  induction l with
  | nil => rfl
  | cons a l ih =>
    obtain ⟨⟨b, reads, same⟩, rest⟩ := List.forall_mem_cons.1 h
    rw [List.filterMap_cons, reads]
    cases picked : p a with
    | true =>
      rw [List.filter_cons_of_pos picked, List.filter_cons_of_pos (same.trans picked),
        List.length_cons, List.length_cons, ih rest]
    | false =>
      rw [List.filter_cons_of_neg (by simp [same, picked]),
        List.filter_cons_of_neg (by simp [picked]), ih rest]

namespace Table

section Listings

variable {v : Table Bytes} (legible : v.Legible) (id : ValidatorId)
include legible

theorem mem_blocks_iff (b : SignedBlock) :
    b ∈ v.blocks id ↔ b.validator = id ∧ v.blockAt id b.slot = some b := by
  rw [mem_blocks legible]
  constructor <;> rintro ⟨rfl, there⟩
  · exact ⟨rfl, v.blockAt_eq_some.2 there⟩
  · exact ⟨rfl, v.blockAt_eq_some.1 there⟩

theorem mem_votes_iff (a : SignedAttestation) :
    a ∈ v.votes id ↔ a.validator = id ∧ v.attestationAt id a.target = some a := by
  rw [Ledger.mem_votes legible]
  constructor
  · rintro ⟨target, source, root, there, rfl⟩
    exact ⟨rfl, (v.attestationAt_eq_some (a := ⟨id, source, target, root⟩)).2 there⟩
  · rintro ⟨rfl, there⟩
    exact ⟨a.target, a.source, a.root, v.attestationAt_eq_some.1 there, rfl⟩

/-- The keys below a bound are those of the blocks below it. -/
theorem length_blocks_below (bound : Slot) :
    ((v.blocks id).filter fun b => b.slot < bound).length =
      ((v.scan (KeyFamily.block.scope id)).filter fun entry =>
        entry.1 < KeyFamily.block.indexed id bound).length := by
  refine length_filter_filterMap fun entry member => ?_
  obtain ⟨slot, value, rfl⟩ := legible.exists_of_mem_scan_block member
  refine ⟨_, by rw [Ledger.readBlock_block]; rfl, ?_⟩
  exact decide_eq_decide.2 LedgerKey.indexed_lt_indexed.symm

theorem length_votes_below (bound : Epoch) :
    ((v.votes id).filter fun a => a.target < bound).length =
      ((v.scan (KeyFamily.attestation.scope id)).filter fun entry =>
        entry.1 < KeyFamily.attestation.indexed id bound).length := by
  refine length_filter_filterMap fun entry member => ?_
  obtain ⟨target, value, source, root, rfl, read⟩ := legible.exists_of_mem_scan_attestation member
  refine ⟨_, by rw [Ledger.readAttestation_eq read]; rfl, ?_⟩
  exact decide_eq_decide.2 LedgerKey.indexed_lt_indexed.symm

end Listings

end Table

/-! ## Descriptions -/

namespace Archive

/-- An archive has the validators and the records of a ledger. -/
structure Describes (m : Archive) (v : Table Bytes) : Prop where
  validators : ∀ id, id ∈ m.validators ↔ v.isRegistered id
  blocks : Records.Lists m.blocks v.blockAt
  attestations : Records.Lists m.attestations v.attestationAt

end Archive

/-- Records under different keys are held at finitely many places: a table has finitely many
    keys. -/
theorem Table.finite_held {R : Type} {v : Table Bytes} {held : ValidatorId → UInt64 → Option R}
    (kind : DutyKind)
    (stored : ∀ id n, (held id n).isSome → (v.get? (Place.record kind id n).bytes).isSome) :
    {place : ValidatorId × UInt64 | (held place.1 place.2).isSome}.Finite := by
  refine Set.Finite.of_injOn (f := fun place => (Place.record kind place.1 place.2).bytes)
    (t := {key | key ∈ v.entries.map Prod.fst}) (fun place there => ?_)
    (fun place _ place' _ same => ?_) (List.finite_toSet _)
  · obtain ⟨value, found⟩ := Option.isSome_iff_exists.1 (stored _ _ there)
    exact List.mem_map.2 ⟨_, Table.get?_eq_some_iff.1 found, rfl⟩
  · have := Place.bytes_injective same
    cases kind <;> simpa [Place.record, Prod.ext_iff] using this

/-- Every legible ledger is described by an archive. -/
theorem Table.Legible.exists_describes {v : Table Bytes} (legible : v.Legible) :
    ∃ m : Archive, m.Describes v := by
  obtain ⟨blocks, listsBlocks⟩ : ∃ l, Records.Lists l v.blockAt :=
    Records.exists_lists (Table.finite_held .block fun id n there =>
      (Table.mem_recorded_iff legible).1 (by simpa [Table.blockAt] using there))
  obtain ⟨attestations, listsAttestations⟩ : ∃ l, Records.Lists l v.attestationAt :=
    Records.exists_lists (Table.finite_held .attestation fun id n there =>
      (Table.mem_recorded_iff legible).1 (by simpa [Table.attestationAt] using there))
  refine ⟨⟨v.validators.map Prod.fst, blocks, attestations⟩, fun id => ?_, listsBlocks,
    listsAttestations⟩
  rw [Table.isRegistered, Option.isSome_iff_exists, List.mem_map]
  constructor
  · rintro ⟨⟨id, key⟩, member, rfl⟩
    exact ⟨key, (Table.mem_validators legible).1 member⟩
  · rintro ⟨key, known⟩
    exact ⟨(id, key), (Table.mem_validators legible).2 known, rfl⟩

namespace Archive.Describes

variable {m : Archive} {v : Table Bytes}

theorem listing_blocks (h : m.Describes v) (legible : v.Legible) (id : ValidatorId) :
    Records.Listing m.blocks id (v.blocks id) :=
  h.blocks.listing (Table.ascending_blocks legible id) (Table.mem_blocks_iff legible id)

theorem listing_votes (h : m.Describes v) (legible : v.Legible) (id : ValidatorId) :
    Records.Listing m.attestations id (v.votes id) :=
  h.attestations.listing (Table.ascending_votes legible id) (Table.mem_votes_iff legible id)

/-! ### Behind a change -/

theorem putBlock (h : m.Describes v) {id : ValidatorId} {slot : Slot} {root : SigningRoot}
    (free : (v.account id).block slot = none) :
    { m with blocks := ⟨id, slot, root⟩ :: m.blocks : Archive}.Describes
      (v.putBlock id slot root) where
  validators i := by
    rw [Table.isRegistered, Table.registry_putBlock]
    exact h.validators i
  blocks := by
    rw [Table.blockAt_putBlock]
    exact h.blocks.cons (by simp [Table.blockAt, Numbered.validator, Numbered.number, free])
  attestations := by
    rw [Table.attestationAt_putBlock]
    exact h.attestations

theorem putVote (h : m.Describes v) {id : ValidatorId} {vote : Vote} {root : SigningRoot}
    (short : root.bytes.length < 2 ^ 64) (free : (v.account id).vote vote.target = none) :
    { m with
      attestations := ⟨id, vote.source, vote.target, root⟩ :: m.attestations : Archive}.Describes
      (v.putVote id vote root) where
  validators i := by
    rw [Table.isRegistered, Table.registry_putVote]
    exact h.validators i
  blocks := by
    rw [Table.blockAt_putVote]
    exact h.blocks
  attestations := by
    rw [Table.attestationAt_putVote, SigningRoot.stored_eq short]
    exact h.attestations.cons
      (by simp [Table.attestationAt, Numbered.validator, Numbered.number, free])

theorem dropBlocks (h : m.Describes v) (id : ValidatorId) (bound : Slot) :
    { m with blocks := (Records.deleteBelow m.blocks id bound).2 : Archive}.Describes
      (v.dropBlocks id bound) where
  validators i := by
    rw [Table.isRegistered, Table.registry_dropBlocks]
    exact h.validators i
  blocks := by
    rw [Table.blockAt_dropBlocks]
    exact h.blocks.deleteBelow id bound
  attestations := by
    rw [Table.attestationAt_dropBlocks]
    exact h.attestations

theorem dropVotes (h : m.Describes v) (id : ValidatorId) (bound : Epoch) :
    { m with attestations := (Records.deleteBelow m.attestations id bound).2 : Archive}.Describes
      (v.dropVotes id bound) where
  validators i := by
    rw [Table.isRegistered, Table.registry_dropVotes]
    exact h.validators i
  blocks := by
    rw [Table.blockAt_dropVotes]
    exact h.blocks
  attestations := by
    rw [Table.attestationAt_dropVotes]
    exact h.attestations.deleteBelow id bound

end Archive.Describes

end SlashingGuard
