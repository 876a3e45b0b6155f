import SlashingGuard.Ledger.Floors
import SlashingGuard.Ledger.History
import SlashingGuard.Proofs.Ledger.Transaction
import SlashingGuard.Proofs.Ledger.WellFormed

/-! # What queries yield

    On a legible ledger every query succeeds, unless a call on the store
    fails, and yields what the registry or an account says.  Scans yield the
    records of one validator and nothing else, whatever other keys there are. -/

namespace SlashingGuard

/-! ## Numbers of a family -/

/-- Whether all keys are keys of one validator in a family. -/
def Entries.Indexed (family : KeyFamily) (id : ValidatorId) (entries : List (Entry Bytes)) :
    Prop :=
  ∀ entry ∈ entries, ∃ n, entry.1 = family.indexed id n

namespace Table

/-- The numbers at the end of a validator's keys in a family, in the order of the keys. -/
def numbers (t : Table Bytes) (family : KeyFamily) (id : ValidatorId) : List UInt64 :=
  (t.scan (family.scope id)).filterMap fun entry =>
    (LedgerKey.readIndex .block entry.1).toOption

/-- The attestations of a validator, in the order of their keys. -/
def votes (t : Table Bytes) (id : ValidatorId) : List SignedAttestation :=
  (t.scan (KeyFamily.attestation.scope id)).filterMap fun entry =>
    (Ledger.readAttestation id entry).toOption

namespace Legible

variable {t : Table Bytes}

theorem indexed_records (legible : t.Legible) (kind : DutyKind) (id : ValidatorId) :
    Entries.Indexed kind.family id (t.scan (kind.family.scope id)) := by
  intro entry h
  obtain ⟨found, scope⟩ := mem_scan.1 h
  obtain ⟨place, key, -⟩ := legible.documented _ _ found
  rw [key, Place.record_scope_isPrefixOf] at scope
  obtain ⟨n, rfl⟩ := scope
  exact ⟨n, key.trans (Place.bytes_record kind id n)⟩

end Legible

end Table

namespace Ledger

variable {t : Table Bytes}

/-! ## Records at a place -/

/-- A record whose value can be read, if there is one. -/
theorem yields_record {α : Type} (place : Place) (read : Bytes → Except LedgerError α)
    (h : ∀ value, t.get? place.bytes = some value → ∃ a, read value = .ok a) :
    (Query.record place.bytes read).Yields t (.ok (t.readAt place read)) := by
  have yields := Query.yields_record (v := t) place.bytes read
  rw [Table.readAt]
  cases found : t.get? place.bytes with
  | none => rwa [found] at yields
  | some value =>
    obtain ⟨a, ha⟩ := h value found
    rw [found] at yields
    simpa only [Option.bind_some, ha, Except.toOption, Except.map] using yields

/-! ## Registry -/

theorem yields_idOf? (legible : t.Legible) (key : PublicKey) :
    (idOf? key).Yields t (.ok (t.registry.idOf key)) := by
  refine yields_record (.idOf key) _ fun value found => ?_
  obtain ⟨n, read⟩ := legible.reads _ found
  exact ⟨⟨n⟩, by rw [read]; rfl⟩

theorem yields_isRegistered (t : Table Bytes) (id : ValidatorId) :
    (isRegistered id).Yields t (.ok (t.isRegistered id)) := by
  rw [Table.isRegistered_eq_contains]
  exact Query.yields_contains _

theorem yields_nextId (legible : t.Legible) : nextId.Yields t (.ok t.registry.next) := by
  have stored : (Query.record LedgerKey.nextId (LedgerKey.readWord .nextId)).Yields t
      (.ok (t.readAt .nextId (LedgerKey.readWord .nextId))) :=
    yields_record .nextId _ fun value found => legible.reads _ found
  exact stored.map fun stored => stored.getD 1

/-- Whoever is registered passes. -/
theorem yields_requireRegistered {id : ValidatorId} (h : t.isRegistered id) :
    (requireRegistered id).Yields t (.ok ()) := by
  refine (yields_isRegistered t id).bind ?_
  rw [h]
  exact Query.yields_pure ()

theorem yields_requireRegistered_error {id : ValidatorId} (h : t.isRegistered id = false) :
    (requireRegistered id).Yields t (.error (.breach (.unregistered id))) := by
  refine (yields_isRegistered t id).bind ?_
  rw [h]
  exact Query.yields_throw _

/-! ## Floors -/

theorem yields_slotFloor? (legible : t.Legible) (id : ValidatorId) :
    (slotFloor? id).Yields t (.ok (t.account id).slotFloor) :=
  yields_record (.floor id .block) _ fun _ found => legible.reads _ found

theorem yields_epochFloors? (legible : t.Legible) (id : ValidatorId) :
    (epochFloors? id).Yields t (.ok (t.account id).epochFloors) :=
  yields_record (.floor id .attestation) _ fun _ found => legible.reads _ found

end Ledger

/-- The floors of an account as a row; none if it has none of either kind. -/
def Account.row? (a : Account) (id : ValidatorId) : Option Watermark :=
  if a.slotFloor.isNone && a.epochFloors.isNone then none
  else some ⟨id, a.slotFloor, a.sourceFloor, a.targetFloor⟩

namespace Ledger

variable {t : Table Bytes}

theorem yields_watermark? (legible : t.Legible) (id : ValidatorId) :
    (watermark? id).Yields t (.ok ((t.account id).row? id)) := by
  refine (yields_slotFloor? legible id).bind ((yields_epochFloors? legible id).bind ?_)
  rw [Account.row?]
  split
  · exact Query.yields_pure _
  · exact Query.yields_pure _

theorem yields_watermark (legible : t.Legible) (id : ValidatorId) :
    (watermark id).Yields t (.ok ⟨id, (t.account id).slotFloor, (t.account id).sourceFloor,
      (t.account id).targetFloor⟩) := by
  have yields := (yields_watermark? legible id).map fun row => row.getD (Watermark.empty id)
  have row : ((t.account id).row? id).getD (Watermark.empty id) = ⟨id, (t.account id).slotFloor,
      (t.account id).sourceFloor, (t.account id).targetFloor⟩ := by
    obtain ⟨block, vote, slotFloor, epochFloors⟩ := t.account id
    cases slotFloor <;> cases epochFloors <;> rfl
  rwa [← row]

/-! ## Blocks -/

theorem yields_blockAt? (t : Table Bytes) (id : ValidatorId) (slot : Slot) :
    (blockAt? id slot).Yields t
      (.ok (((t.account id).block slot).map fun root => ⟨id, slot, root⟩)) := by
  have yields := yields_record (t := t) (.block id slot)
    (fun bytes => .ok (⟨id, slot, ⟨bytes⟩⟩ : SignedBlock)) fun _ _ => ⟨_, rfl⟩
  have record : t.readAt (.block id slot) (fun bytes => .ok (⟨id, slot, ⟨bytes⟩⟩ : SignedBlock)) =
      ((t.account id).block slot).map fun root => ⟨id, slot, root⟩ := by
    simp only [Table.account, Table.readAt]
    cases t.get? (Place.block id slot).bytes <;> rfl
  rwa [← record]

/-- The largest number is that of the last key. -/
theorem yields_newest? {family : KeyFamily} {id : ValidatorId}
    (h : Entries.Indexed family id (t.scan (family.scope id))) (what : RecordKind) :
    (newest? family what id).Yields t (.ok (t.numbers family id).getLast?) := by
  refine (Query.yields_scan _).bind ?_
  cases last : (t.scan (family.scope id)).getLast? with
  | none =>
    rw [List.getLast?_eq_none_iff] at last
    rw [Table.numbers, last]
    exact Query.yields_pure none
  | some entry =>
    obtain ⟨front, split⟩ := List.getLast?_eq_some_iff.1 last
    obtain ⟨n, key⟩ := h entry (List.mem_of_getLast? last)
    -- What the number is read for matters for the text of an error alone.
    have read : ∀ what, LedgerKey.readIndex what entry.1 = .ok n := fun what => by
      rw [key, LedgerKey.readIndex_indexed]
    have newest : (t.numbers family id).getLast? = some n := by
      rw [Table.numbers, split, List.filterMap_append, List.getLast?_append]
      simp [read, Except.toOption]
    rw [newest]
    show (some <$> Query.ofExcept (LedgerKey.readIndex what entry.1)).Yields t _
    rw [read]
    exact (Query.yields_ofExcept (.ok n)).map some

theorem yields_newestSlot? (legible : t.Legible) (id : ValidatorId) :
    (newestSlot? id).Yields t (.ok (t.numbers .block id).getLast?) :=
  yields_newest? (legible.indexed_records .block id) .block

theorem yields_newestTarget? (legible : t.Legible) (id : ValidatorId) :
    (newestTarget? id).Yields t (.ok (t.numbers .attestation id).getLast?) :=
  yields_newest? (legible.indexed_records .attestation id) .attestation

/-! ## Attestations -/

theorem yields_attestationAt? (legible : t.Legible) (id : ValidatorId) (target : Epoch) :
    (attestationAt? id target).Yields t
      (.ok (((t.account id).vote target).map fun vote => ⟨id, vote.1, target, vote.2⟩)) := by
  have yields := yields_record (t := t) (.attestation id target) (ofValue id target)
    fun value found => by
      obtain ⟨source, root, read⟩ := legible.reads _ found
      exact ⟨_, by rw [ofValue, read]; rfl⟩
  have record : t.readAt (.attestation id target) (ofValue id target) =
      ((t.account id).vote target).map fun vote => ⟨id, vote.1, target, vote.2⟩ := by
    simp only [Table.account, Table.readAt]
    cases t.get? (Place.attestation id target).bytes with
    | none => rfl
    | some value =>
      simp only [Option.bind_some, ofValue]
      cases LedgerValue.readAttestation value <;> rfl
  rwa [← record]

/-- Where every element can be read, the readings are those of the elements. -/
theorem mapM_eq_filterMap {α β ε : Type} {read : α → Except ε β} {l : List α}
    (h : ∀ a ∈ l, ∃ b, read a = .ok b) :
    l.mapM read = .ok (l.filterMap fun a => (read a).toOption) := by
  induction l with
  | nil => rfl
  | cons a l ih =>
    obtain ⟨⟨b, hb⟩, rest⟩ := List.forall_mem_cons.1 h
    rw [List.mapM_cons, ih rest, List.filterMap_cons, hb]
    rfl

/-- An attestation is read from its entry. -/
theorem readAttestation_eq {id : ValidatorId} {target source : Epoch} {root : SigningRoot}
    {value : Bytes} (h : LedgerValue.readAttestation value = .ok (source, root)) :
    readAttestation id ((Place.attestation id target).bytes, value) =
      .ok ⟨id, source, target, root⟩ := by
  simp only [readAttestation, LedgerKey.readIndex_attestation, ofValue, h, bind, Except.bind,
    Except.map]

/-- The scan of a validator's attestations gives the votes of its account. -/
theorem mem_votes (legible : t.Legible) {id : ValidatorId} {a : SignedAttestation} :
    a ∈ t.votes id ↔ ∃ target source root,
      (t.account id).vote target = some (source, root) ∧ a = ⟨id, source, target, root⟩ := by
  rw [Table.votes, List.mem_filterMap]
  constructor
  · rintro ⟨⟨key, value⟩, member, read⟩
    obtain ⟨target, rfl⟩ : ∃ target, key = (Place.attestation id target).bytes :=
      legible.indexed_records .attestation id _ member
    have found := (Table.mem_scan.1 member).1
    obtain ⟨source, root, hv⟩ := legible.reads _ found
    rw [readAttestation_eq hv] at read
    exact ⟨target, source, root, Option.bind_eq_some_iff.2 ⟨value, found, by rw [hv]; rfl⟩,
      (Option.some.inj read).symm⟩
  · rintro ⟨target, source, root, vote, rfl⟩
    obtain ⟨value, found, read⟩ := Option.bind_eq_some_iff.1 vote
    obtain ⟨source', root', hv⟩ := legible.reads _ found
    obtain ⟨rfl, rfl⟩ : source' = source ∧ root' = root := by
      rw [hv] at read
      simpa [Except.toOption] using read
    refine ⟨_, Table.mem_scan.2 ⟨found, ?_⟩, by rw [readAttestation_eq hv]; rfl⟩
    exact (@Place.record_scope_isPrefixOf .attestation _ _).2 ⟨target, rfl⟩

theorem yields_attestations (legible : t.Legible) (id : ValidatorId) :
    (attestations id).Yields t (.ok (t.votes id)) := by
  refine (Query.yields_scan _).bind ?_
  have read : ∀ entry ∈ t.scan (KeyFamily.attestation.scope id),
      ∃ a, readAttestation id entry = .ok a := by
    rintro ⟨key, value⟩ member
    obtain ⟨target, rfl⟩ : ∃ target, key = (Place.attestation id target).bytes :=
      legible.indexed_records .attestation id _ member
    obtain ⟨source, root, hv⟩ := legible.reads _ (Table.mem_scan.1 member).1
    exact ⟨_, readAttestation_eq hv⟩
  rw [mapM_eq_filterMap read]
  exact Query.yields_ofExcept _

theorem yields_surrounding (legible : t.Legible) (id : ValidatorId) (vote : Vote) :
    (surrounding id vote).Yields t
      (.ok ((t.votes id).filter fun a => a.vote.surrounds vote)) :=
  (yields_attestations legible id).map _

theorem yields_surrounded (legible : t.Legible) (id : ValidatorId) (vote : Vote) :
    (surrounded id vote).Yields t
      (.ok ((t.votes id).filter fun a => vote.surrounds a.vote)) :=
  (yields_attestations legible id).map _

/-- Whether some attestation is picked out depends on the account alone. -/
theorem filter_votes_isEmpty_iff (legible : t.Legible) {id : ValidatorId} {p : Vote → Bool} :
    ((t.votes id).filter fun a => p a.vote).isEmpty = false ↔ ∃ source target root,
      (t.account id).vote target = some (source, root) ∧ p ⟨source, target⟩ := by
  simp only [List.isEmpty_eq_false_iff_exists_mem, List.mem_filter, mem_votes legible]
  constructor
  · rintro ⟨_, ⟨target, source, root, found, rfl⟩, picked⟩
    exact ⟨source, target, root, found, picked⟩
  · rintro ⟨source, target, root, found, picked⟩
    exact ⟨_, ⟨target, source, root, found, rfl⟩, picked⟩

theorem surrounding_isEmpty_iff (legible : t.Legible) {id : ValidatorId} {vote : Vote} :
    ((t.votes id).filter fun a => a.vote.surrounds vote).isEmpty = false ↔
      (t.account id).Surrounds vote := by
  refine (filter_votes_isEmpty_iff legible (p := fun v => v.surrounds vote)).trans ?_
  simp only [Vote.surrounds_iff, Account.Surrounds]

theorem surrounded_isEmpty_iff (legible : t.Legible) {id : ValidatorId} {vote : Vote} :
    ((t.votes id).filter fun a => vote.surrounds a.vote).isEmpty = false ↔
      (t.account id).IsSurrounded vote := by
  refine (filter_votes_isEmpty_iff legible (p := fun v => vote.surrounds v)).trans ?_
  simp only [Vote.surrounds_iff, Account.IsSurrounded]

end Ledger

end SlashingGuard
