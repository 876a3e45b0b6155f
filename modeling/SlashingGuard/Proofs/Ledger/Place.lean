import SlashingGuard.Ledger.Value
import SlashingGuard.Proofs.Bytes
import SlashingGuard.Proofs.Store.Table

/-! # Places of the ledger

    What a key of the ledger stands for is a place.  Different places have
    different keys, the keys of one validator in one family are exactly those
    under its scope, and within a scope their order is the order of their
    numbers.  What is written at a place can be read back. -/

namespace SlashingGuard

/-! ## Places and their keys -/

/-- What a key of the ledger stands for. -/
inductive Place where
  | idOf (key : PublicKey)
  | keyOf (id : ValidatorId)
  | nextId
  | block (id : ValidatorId) (slot : Slot)
  | attestation (id : ValidatorId) (target : Epoch)
  | floor (id : ValidatorId) (kind : DutyKind)
  deriving DecidableEq

theorem KeyFamily.tag_injective {f g : KeyFamily} (h : f.tag = g.tag) : f = g := by
  cases f <;> cases g <;> first | rfl | exact absurd h (by decide)

@[simp] theorem KeyFamily.length_tag (family : KeyFamily) : family.tag.length = 2 := rfl

@[simp] theorem ValidatorId.number_inj {a b : ValidatorId} : a.number = b.number ↔ a = b := by
  cases a; cases b; simp

namespace Place

/-- The key of a place. -/
def bytes : Place → Bytes
  | .idOf key => LedgerKey.idOf key
  | .keyOf id => LedgerKey.keyOf id
  | .nextId => LedgerKey.nextId
  | .block id slot => LedgerKey.block id slot
  | .attestation id target => LedgerKey.attestation id target
  | .floor id kind => LedgerKey.floor id kind

def family : Place → KeyFamily
  | .idOf _ => .idByKey
  | .keyOf _ => .keyById
  | .nextId => .metadata
  | .block _ _ => .block
  | .attestation _ _ => .attestation
  | .floor _ _ => .floor

/-- What the key of a place has behind the tag of its family. -/
def suffix : Place → Bytes
  | .idOf key => key.bytes
  | .keyOf id => Bytes.ofWord id.number
  | .nextId => Bytes.ofAscii "next_validator_id"
  | .block id slot => Bytes.ofWord id.number ++ Bytes.ofWord slot
  | .attestation id target => Bytes.ofWord id.number ++ Bytes.ofWord target
  | .floor id kind => Bytes.ofWord id.number ++ [asciiByte (LedgerKey.kindLetter kind)]

theorem bytes_eq (place : Place) : place.bytes = place.family.tag ++ place.suffix := by
  cases place <;>
    simp [bytes, family, suffix, LedgerKey.idOf, LedgerKey.keyOf, LedgerKey.nextId,
      LedgerKey.block, LedgerKey.attestation, LedgerKey.floor, KeyFamily.indexed, KeyFamily.scope]

theorem kindLetter_injective {k l : DutyKind}
    (h : asciiByte (LedgerKey.kindLetter k) = asciiByte (LedgerKey.kindLetter l)) : k = l := by
  cases k <;> cases l <;> first | rfl | exact absurd h (by decide)

/-- Different places have different keys. -/
theorem bytes_injective {p q : Place} (h : p.bytes = q.bytes) : p = q := by
  rw [bytes_eq, bytes_eq] at h
  -- The tags have one length, so they agree, and so does what follows them.
  obtain ⟨tags, suffixes⟩ := List.append_inj h (by simp)
  have families := KeyFamily.tag_injective tags
  cases p <;> cases q <;> simp only [family, reduceCtorEq] at families
  case idOf.idOf k l =>
    cases k; cases l
    exact congrArg (fun bytes => Place.idOf ⟨bytes⟩) suffixes
  case keyOf.keyOf => simpa [suffix] using suffixes
  case nextId.nextId => rfl
  case block.block =>
    obtain ⟨ids, slots⟩ := List.append_inj suffixes (by simp)
    simpa using And.intro ids slots
  case attestation.attestation =>
    obtain ⟨ids, targets⟩ := List.append_inj suffixes (by simp)
    simpa using And.intro ids targets
  case floor.floor =>
    obtain ⟨ids, kinds⟩ := List.append_inj suffixes (by simp)
    have kind := kindLetter_injective (by simpa using kinds)
    simpa using And.intro ids kind

@[simp] theorem bytes_inj {p q : Place} : p.bytes = q.bytes ↔ p = q :=
  ⟨bytes_injective, fun h => h ▸ rfl⟩

/-! ## Scopes -/

theorem isPrefixOf_tag_append {family : KeyFamily} {rest : Bytes} {place : Place} :
    (family.tag ++ rest).isPrefixOf place.bytes ↔
      place.family = family ∧ rest.isPrefixOf place.suffix := by
  rw [bytes_eq, List.isPrefixOf_iff_prefix, List.isPrefixOf_iff_prefix]
  constructor
  · rintro ⟨more, h⟩
    rw [List.append_assoc] at h
    obtain ⟨tags, suffixes⟩ := List.append_inj h (by simp)
    exact ⟨KeyFamily.tag_injective tags.symm, more, suffixes⟩
  · rintro ⟨rfl, more, h⟩
    exact ⟨more, by rw [List.append_assoc, h]⟩

/-- The places whose keys begin with the tag of a family are those of the family. -/
theorem tag_isPrefixOf {family : KeyFamily} {place : Place} :
    family.tag.isPrefixOf place.bytes ↔ place.family = family := by
  have h := @isPrefixOf_tag_append family [] place
  rw [List.append_nil] at h
  rw [h]
  simp

/-- The validator whose number a key has behind its tag. -/
def validator? : Place → Option ValidatorId
  | .keyOf id => some id
  | .block id _ => some id
  | .attestation id _ => some id
  | .floor id _ => some id
  | .idOf _ => none
  | .nextId => none

theorem exists_suffix_eq {place : Place} {id : ValidatorId} (h : place.validator? = some id) :
    ∃ rest, place.suffix = Bytes.ofWord id.number ++ rest := by
  cases place with
  | idOf key => contradiction
  | nextId => contradiction
  | keyOf id' =>
    obtain rfl := Option.some.inj h
    exact ⟨[], (List.append_nil _).symm⟩
  | block id' slot =>
    obtain rfl := Option.some.inj h
    exact ⟨Bytes.ofWord slot, rfl⟩
  | attestation id' target =>
    obtain rfl := Option.some.inj h
    exact ⟨Bytes.ofWord target, rfl⟩
  | floor id' kind =>
    obtain rfl := Option.some.inj h
    exact ⟨[asciiByte (LedgerKey.kindLetter kind)], rfl⟩

/-- The places under the scope of a validator in a family are its places in the family.  Two
    families have no scopes, since what their keys have behind the tag is not a number. -/
theorem scope_isPrefixOf {family : KeyFamily} {id : ValidatorId} {place : Place}
    (keys : family ≠ .idByKey) (metadata : family ≠ .metadata) :
    (family.scope id).isPrefixOf place.bytes ↔
      place.family = family ∧ place.validator? = some id := by
  rw [KeyFamily.scope, isPrefixOf_tag_append, List.isPrefixOf_iff_prefix]
  refine and_congr_right ?_
  rintro rfl
  cases owner : place.validator? with
  | none => cases place <;> contradiction
  | some id' =>
    obtain ⟨rest, suffix⟩ := exists_suffix_eq owner
    rw [suffix, Bytes.ofWord_prefix_append_iff, ValidatorId.number_inj, Option.some_inj, eq_comm]

/-- A public key may begin like the number of a validator. -/
example : (KeyFamily.idByKey.scope ⟨1⟩).isPrefixOf
    (Place.idOf ⟨[0, 0, 0, 0, 0, 0, 0, 1, 9]⟩).bytes := by decide

end Place

/-! ## Records of a duty kind -/

/-- The family of the records of a duty kind. -/
def DutyKind.family : DutyKind → KeyFamily
  | .block => .block
  | .attestation => .attestation

namespace Place

/-- The place of the record of a duty kind at a slot or target. -/
def record : DutyKind → ValidatorId → UInt64 → Place
  | .block, id, slot => .block id slot
  | .attestation, id, target => .attestation id target

theorem bytes_record (kind : DutyKind) (id : ValidatorId) (n : UInt64) :
    (record kind id n).bytes = kind.family.indexed id n := by
  cases kind <;> rfl

/-- The places under a validator's scope in such a family are its records of that kind. -/
theorem record_scope_isPrefixOf {kind : DutyKind} {id : ValidatorId} {place : Place} :
    (kind.family.scope id).isPrefixOf place.bytes ↔ ∃ n, place = .record kind id n := by
  have keys : kind.family ≠ .idByKey := by cases kind <;> nofun
  have metadata : kind.family ≠ .metadata := by cases kind <;> nofun
  rw [scope_isPrefixOf keys metadata]
  cases kind <;> cases place <;> simp [family, validator?, DutyKind.family, record]

end Place

/-! ## Numbers of keys -/

namespace LedgerKey

theorem readWord_eq_ok_iff {what : RecordKind} {bytes : Bytes} {n : UInt64} :
    readWord what bytes = .ok n ↔ bytes = Bytes.ofWord n := by
  unfold readWord
  constructor
  · intro h
    split at h
    · next length =>
      obtain rfl := Except.ok.inj h
      exact (Bytes.ofWord_ofBigEndian length).symm
    · contradiction
  · rintro rfl
    simp

theorem readWord_eq_error_iff {what : RecordKind} {bytes : Bytes} {e : LedgerError} :
    readWord what bytes = .error e ↔
      bytes.length ≠ 8 ∧ e = .corrupt what (.wrongLength bytes.length) := by
  unfold readWord
  by_cases length : bytes.length = 8
  · simp [length]
  · simp [length, eq_comm]

@[simp] theorem readWord_ofWord (what : RecordKind) (n : UInt64) :
    readWord what (Bytes.ofWord n) = .ok n :=
  readWord_eq_ok_iff.2 rfl

/-- The number at the end of a key is read back. -/
theorem readIndex_indexed (what : RecordKind) (family : KeyFamily) (id : ValidatorId)
    (index : UInt64) : readIndex what (family.indexed id index) = .ok index := by
  have length : (family.scope id).length = 10 := by simp [KeyFamily.scope]
  simp [readIndex, KeyFamily.indexed, length]

@[simp] theorem readIndex_attestation (what : RecordKind) (id : ValidatorId) (target : Epoch) :
    readIndex what (Place.attestation id target).bytes = .ok target :=
  readIndex_indexed what .attestation id target

/-- The number of a validator is read back from the key that holds nothing else. -/
theorem readId_keyOf (id : ValidatorId) : readId (Place.keyOf id).bytes = .ok id := by
  have length : (KeyFamily.keyById.scope id).length = KeyFamily.keyById.tag.length + 8 := by
    simp [KeyFamily.scope]
  have rest : (KeyFamily.keyById.scope id).drop KeyFamily.keyById.tag.length =
      Bytes.ofWord id.number := List.drop_left
  rw [Place.bytes, keyOf, readId, if_pos length, rest, readWord_ofWord]
  rfl

/-- Within a scope the order of keys is the order of numbers. -/
theorem indexed_lt_indexed {family : KeyFamily} {id : ValidatorId} {m n : UInt64} :
    family.indexed id m < family.indexed id n ↔ m < n :=
  Bytes.append_ofWord_lt

/-- So is that of the keys that hold a number alone. -/
theorem keyOf_lt_keyOf {id id' : ValidatorId} :
    (Place.keyOf id).bytes < (Place.keyOf id').bytes ↔ id.number < id'.number :=
  Bytes.append_ofWord_lt

/-! ## The layout of keys -/

/-- What the layout of keys is for. -/
structure FaithfulLayout : Prop where
  /-- Different places have different keys, whatever bytes a public key has. -/
  distinct : ∀ place place' : Place, place.bytes = place'.bytes ↔ place = place'
  /-- The records of one validator stand in the order of their slots or targets. -/
  ordered : ∀ kind id m n, (Place.record kind id m).bytes < (Place.record kind id n).bytes ↔ m < n
  /-- The public keys of the validators stand in the order of their numbers. -/
  numbered : ∀ id id', (Place.keyOf id).bytes < (Place.keyOf id').bytes ↔ id.number < id'.number
  /-- Under a scope there are the keys of its validator in its family, and no others. -/
  underScope : ∀ family id, family ≠ .idByKey → family ≠ .metadata → ∀ place : Place,
    family.scope id <+: place.bytes ↔ place.family = family ∧ place.validator? = some id
  /-- Under a tag there are the keys of its family, and no others. -/
  underTag : ∀ (family : KeyFamily) (place : Place),
    family.tag <+: place.bytes ↔ place.family = family
  /-- The number at the end of the key of a record is read back. -/
  indexed : ∀ what kind id n, readIndex what (Place.record kind id n).bytes = .ok n
  /-- So is the number of a validator. -/
  identified : ∀ id, readId (Place.keyOf id).bytes = .ok id

theorem faithful_layout : FaithfulLayout where
  distinct place place' := Place.bytes_inj
  ordered kind id m n := by
    rw [Place.bytes_record, Place.bytes_record]
    exact indexed_lt_indexed
  numbered id id' := keyOf_lt_keyOf
  underScope family id keys metadata place := by
    rw [← List.isPrefixOf_iff_prefix]
    exact Place.scope_isPrefixOf keys metadata
  underTag family place := by
    rw [← List.isPrefixOf_iff_prefix]
    exact Place.tag_isPrefixOf
  indexed what kind id n := by
    rw [Place.bytes_record]
    exact readIndex_indexed what kind.family id n
  identified id := readId_keyOf id

/-- Slot 256 stands behind slot 17, although it ends in a smaller byte; validators 1 and 256, whose
    numbers are the same bytes in another order, share no scope. -/
theorem faithful_layout_sharedBytes :
    (Place.record .block ⟨7⟩ 17).bytes < (Place.record .block ⟨7⟩ 256).bytes ∧
      ¬ KeyFamily.block.scope ⟨1⟩ <+: (Place.block ⟨256⟩ 1).bytes ∧
      KeyFamily.floor.scope ⟨256⟩ <+: (Place.floor ⟨256⟩ .attestation).bytes := by
  refine ⟨(faithful_layout.ordered .block ⟨7⟩ 17 256).2 (by decide), ?_, ?_⟩
  · intro under
    obtain ⟨-, owner⟩ := (faithful_layout.underScope .block ⟨1⟩ nofun nofun _).1 under
    exact absurd owner (by decide)
  · exact (faithful_layout.underScope .floor ⟨256⟩ nofun nofun _).2 ⟨rfl, rfl⟩

end LedgerKey

/-! ## Values -/

/-- What an attestation keeps of its root, whose length it holds in eight bytes. -/
def SigningRoot.stored (root : SigningRoot) : SigningRoot :=
  ⟨root.bytes.take (root.bytes.length % 2 ^ 64)⟩

/-- A root that fits into memory is kept whole. -/
theorem SigningRoot.stored_eq {root : SigningRoot} (h : root.bytes.length < 2 ^ 64) :
    root.stored = root := by
  rw [stored, Nat.mod_eq_of_lt h, List.take_length]

namespace LedgerValue

theorem takeWord_ofWordReversed (what : RecordKind) (n : UInt64) (rest : Bytes) :
    takeWord what (Bytes.ofWordReversed n ++ rest) = .ok (n, rest) := by
  simp [takeWord]

theorem writeAttestation_eq (source : Epoch) (root : SigningRoot) :
    writeAttestation source root = Bytes.ofWordReversed source ++
      (Bytes.ofWordReversed (UInt64.ofNat root.bytes.length) ++ root.bytes) := by
  rw [writeAttestation, Bytes.littleEndian_eq_ofWordReversed, List.append_assoc]

/-- Whatever bytes follow an attestation, it is read back. -/
theorem readAttestation_append (source : Epoch) (root : SigningRoot) (rest : Bytes) :
    readAttestation (writeAttestation source root ++ rest) = .ok (source, root.stored) := by
  have length : (UInt64.ofNat root.bytes.length).toNat = root.bytes.length % 2 ^ 64 :=
    UInt64.toNat_ofNat'
  have within : root.bytes.length % 2 ^ 64 ≤ root.bytes.length := Nat.mod_le _ _
  have whole : ¬ (root.bytes ++ rest).length < root.bytes.length % 2 ^ 64 := by
    rw [List.length_append]
    omega
  simp only [readAttestation, writeAttestation_eq, List.append_assoc, takeWord_ofWordReversed,
    length, whole, SigningRoot.stored, List.take_append_of_le_length within, bind, Except.bind,
    pure, Except.pure, if_false]

@[simp] theorem readAttestation_writeAttestation (source : Epoch) (root : SigningRoot) :
    readAttestation (writeAttestation source root) = .ok (source, root.stored) := by
  have read := readAttestation_append source root []
  rwa [List.append_nil] at read

theorem readEpochFloors_append (source target : Epoch) (rest : Bytes) :
    readEpochFloors (writeEpochFloors source target ++ rest) = .ok (source, target) := by
  simp only [readEpochFloors, writeEpochFloors, List.append_assoc, takeWord_ofWordReversed, bind,
    Except.bind, pure, Except.pure]

@[simp] theorem readEpochFloors_writeEpochFloors (source target : Epoch) :
    readEpochFloors (writeEpochFloors source target) = .ok (source, target) := by
  have read := readEpochFloors_append source target []
  rwa [List.append_nil] at read

end LedgerValue

end SlashingGuard
