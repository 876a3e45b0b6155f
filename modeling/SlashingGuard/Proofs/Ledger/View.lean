import SlashingGuard.Proofs.Ledger.Account
import SlashingGuard.Proofs.Ledger.Place

/-! # What a ledger holds

    A ledger is one flat table of bytes.  Here it is read as a registry and an
    account for each validator.  The changes that work on the ledger makes are
    functions on tables, and each is described by what it does to the registry
    and to the accounts, so that no later proof opens a key or a value. -/

namespace SlashingGuard

/-- Which numbers and keys belong together, and the number that comes next. -/
@[ext] structure Registry where
  idOf : PublicKey → Option ValidatorId
  keyOf : ValidatorId → Option PublicKey
  next : UInt64

/-- The registry with a number for a key. -/
@[simps] def Registry.enroll (r : Registry) (key : PublicKey) (id : ValidatorId) : Registry where
  idOf k := if k = key then some id else r.idOf k
  keyOf i := if i = id then some key else r.keyOf i
  next := r.next

namespace Table

/-! ## Registry and accounts -/

/-- The value at a place, as `read` reads it; none if there is none or it cannot be read. -/
def readAt {α : Type} (t : Table Bytes) (place : Place) (read : Bytes → Except LedgerError α) :
    Option α :=
  (t.get? place.bytes).bind fun value => (read value).toOption

/-- The registry that a ledger holds; the first number is one. -/
def registry (t : Table Bytes) : Registry where
  idOf key := t.readAt (.idOf key) fun bytes =>
    (LedgerKey.readWord .validator bytes).map ValidatorId.mk
  keyOf id := t.readAt (.keyOf id) fun bytes => .ok ⟨bytes⟩
  next := (t.readAt .nextId (LedgerKey.readWord .nextId)).getD 1

/-- What a ledger holds of one validator. -/
def account (t : Table Bytes) (id : ValidatorId) : Account where
  block slot := t.readAt (.block id slot) fun bytes => .ok ⟨bytes⟩
  vote target := t.readAt (.attestation id target) LedgerValue.readAttestation
  slotFloor := t.readAt (.floor id .block) (LedgerKey.readWord .slotFloor)
  epochFloors := t.readAt (.floor id .attestation) LedgerValue.readEpochFloors

/-- Whether a number belongs to a validator. -/
def isRegistered (t : Table Bytes) (id : ValidatorId) : Bool := (t.registry.keyOf id).isSome

@[simp] theorem readAt_insert {α : Type} (t : Table Bytes) (place : Place) (value : Bytes)
    (place' : Place) (read : Bytes → Except LedgerError α) :
    (t.insert place.bytes value).readAt place' read =
      if place = place' then (read value).toOption else t.readAt place' read := by
  by_cases h : place = place' <;> simp [readAt, h]

/-! ## Changes -/

/-- The ledger with a block put in. -/
def putBlock (t : Table Bytes) (id : ValidatorId) (slot : Slot) (root : SigningRoot) :
    Table Bytes :=
  t.insert (Place.block id slot).bytes root.bytes

/-- The ledger with a vote put in. -/
def putVote (t : Table Bytes) (id : ValidatorId) (vote : Vote) (root : SigningRoot) :
    Table Bytes :=
  t.insert (Place.attestation id vote.target).bytes
    (LedgerValue.writeAttestation vote.source root)

/-- The ledger with a slot floor raised; a floor that is high enough is not written. -/
def raiseSlot (t : Table Bytes) (id : ValidatorId) (slot : Slot) : Table Bytes :=
  if Floor.moves (t.account id).slotFloor slot then
    t.insert (Place.floor id .block).bytes
      (Bytes.ofWord (Floor.raised (t.account id).slotFloor slot))
  else t

/-- The ledger with both epoch floors raised. -/
def raiseEpochs (t : Table Bytes) (id : ValidatorId) (source target : Epoch) : Table Bytes :=
  if Floor.moves (t.account id).sourceFloor source ||
      Floor.moves (t.account id).targetFloor target then
    t.insert (Place.floor id .attestation).bytes
      (LedgerValue.writeEpochFloors (Floor.raised (t.account id).sourceFloor source)
        (Floor.raised (t.account id).targetFloor target))
  else t

/-- Whether a key is one of a validator in a family with a number below a bound. -/
def isBelow (family : KeyFamily) (id : ValidatorId) (bound : UInt64) (key : Bytes) : Bool :=
  (family.scope id).isPrefixOf key && key < family.indexed id bound

/-- The table without the keys of one validator in a family whose numbers are below a bound. -/
def dropBelow (t : Table Bytes) (family : KeyFamily) (id : ValidatorId) (bound : UInt64) :
    Table Bytes :=
  ⟨t.entries.filter fun entry => !isBelow family id bound entry.1, t.ascending.filter _⟩

/-- The ledger without the blocks below a slot. -/
def dropBlocks (t : Table Bytes) (id : ValidatorId) (bound : Slot) : Table Bytes :=
  t.dropBelow .block id bound

/-- The ledger without the votes below a target. -/
def dropVotes (t : Table Bytes) (id : ValidatorId) (bound : Epoch) : Table Bytes :=
  t.dropBelow .attestation id bound

/-- The ledger with a key under the number that comes next; the counter is left. -/
def enroll (t : Table Bytes) (key : PublicKey) (number : UInt64) : Table Bytes :=
  (t.insert (Place.idOf key).bytes (Bytes.ofWord number)).insert (Place.keyOf ⟨number⟩).bytes
    key.bytes

/-- The ledger with its counter set. -/
def setNext (t : Table Bytes) (number : UInt64) : Table Bytes :=
  t.insert Place.nextId.bytes (Bytes.ofWord number)

/-! ## What the changes do -/

theorem get?_dropBelow (t : Table Bytes) (family : KeyFamily) (id : ValidatorId)
    (bound : UInt64) (key : Bytes) :
    (t.dropBelow family id bound).get? key =
      if isBelow family id bound key then none else t.get? key := by
  have h := Entries.find?_filter (fun key => !isBelow family id bound key) t.entries key
  change (t.dropBelow family id bound).get? key = if _ then t.get? key else none at h
  rw [h]
  cases isBelow family id bound key <;> rfl

theorem readAt_dropBelow {α : Type} (t : Table Bytes) (family : KeyFamily) (id : ValidatorId)
    (bound : UInt64) (place : Place) (read : Bytes → Except LedgerError α) :
    (t.dropBelow family id bound).readAt place read =
      if isBelow family id bound place.bytes then none else t.readAt place read := by
  rw [readAt, get?_dropBelow]
  split <;> rfl

/-- The places below a bound in the family of a duty kind are the records with smaller numbers. -/
theorem isBelow_record_iff {kind : DutyKind} {id : ValidatorId} {bound : UInt64} {place : Place} :
    isBelow kind.family id bound place.bytes ↔ ∃ n < bound, place = .record kind id n := by
  rw [isBelow, Bool.and_eq_true, decide_eq_true_eq, Place.record_scope_isPrefixOf]
  constructor
  · rintro ⟨⟨n, rfl⟩, lt⟩
    rw [Place.bytes_record, LedgerKey.indexed_lt_indexed] at lt
    exact ⟨n, lt, rfl⟩
  · rintro ⟨n, lt, rfl⟩
    rw [Place.bytes_record, LedgerKey.indexed_lt_indexed]
    exact ⟨⟨n, rfl⟩, lt⟩

section Changes

variable (t : Table Bytes) (id id' : ValidatorId)

@[simp] theorem registry_putBlock (slot : Slot) (root : SigningRoot) :
    (t.putBlock id slot root).registry = t.registry := by
  simp [registry, putBlock]

@[simp] theorem registry_putVote (vote : Vote) (root : SigningRoot) :
    (t.putVote id vote root).registry = t.registry := by
  simp [registry, putVote]

@[simp] theorem registry_raiseSlot (slot : Slot) :
    (t.raiseSlot id slot).registry = t.registry := by
  unfold raiseSlot
  split <;> simp [registry]

@[simp] theorem registry_raiseEpochs (source target : Epoch) :
    (t.raiseEpochs id source target).registry = t.registry := by
  unfold raiseEpochs
  split <;> simp [registry]

theorem registry_dropBelow (kind : DutyKind) (bound : UInt64) :
    (t.dropBelow kind.family id bound).registry = t.registry := by
  cases kind <;> simp [registry, readAt_dropBelow, isBelow_record_iff, Place.record]

@[simp] theorem registry_dropBlocks (bound : Slot) :
    (t.dropBlocks id bound).registry = t.registry := registry_dropBelow t id .block bound

@[simp] theorem registry_dropVotes (bound : Epoch) :
    (t.dropVotes id bound).registry = t.registry := registry_dropBelow t id .attestation bound

@[simp] theorem account_putBlock (slot : Slot) (root : SigningRoot) :
    (t.putBlock id slot root).account id' =
      if id' = id then (t.account id).putBlock slot root else t.account id' := by
  by_cases h : id' = id
  · subst h
    simp [account, putBlock, Account.putBlock, Except.toOption, eq_comm]
  · simp [account, putBlock, Ne.symm h, h]

@[simp] theorem account_putVote (vote : Vote) (root : SigningRoot) :
    (t.putVote id vote root).account id' =
      if id' = id then (t.account id).putVote vote root.stored else t.account id' := by
  by_cases h : id' = id
  · subst h
    simp [account, putVote, Account.putVote, Except.toOption, eq_comm]
  · simp [account, putVote, Ne.symm h, h]

@[simp] theorem account_raiseSlot (slot : Slot) :
    (t.raiseSlot id slot).account id' =
      if id' = id then (t.account id).raiseSlot slot else t.account id' := by
  unfold raiseSlot
  split
  · by_cases h : id' = id
    · subst h
      simp [account, Account.raiseSlot, Except.toOption]
    · simp [account, Ne.symm h, h]
  · next still =>
    rw [Account.raiseSlot_eq_self (by simpa using still)]
    split
    · next h => rw [h]
    · rfl

@[simp] theorem account_raiseEpochs (source target : Epoch) :
    (t.raiseEpochs id source target).account id' =
      if id' = id then (t.account id).raiseEpochs source target else t.account id' := by
  unfold raiseEpochs
  split
  · by_cases h : id' = id
    · subst h
      simp [account, Account.raiseEpochs, Except.toOption]
    · simp [account, Ne.symm h, h]
  · next still =>
    rw [Account.raiseEpochs_eq_self (by simpa using still)]
    split
    · next h => rw [h]
    · rfl

@[simp] theorem account_dropBlocks (bound : Slot) :
    (t.dropBlocks id bound).account id' =
      if id' = id then (t.account id).dropBlocks bound else t.account id' := by
  have family : t.dropBlocks id bound = t.dropBelow DutyKind.block.family id bound := rfl
  by_cases h : id' = id
  · subst h
    simp [account, family, readAt_dropBelow, isBelow_record_iff, Place.record, Account.dropBlocks]
  · simp [account, family, readAt_dropBelow, isBelow_record_iff, Place.record, h]

@[simp] theorem account_dropVotes (bound : Epoch) :
    (t.dropVotes id bound).account id' =
      if id' = id then (t.account id).dropVotes bound else t.account id' := by
  have family : t.dropVotes id bound = t.dropBelow DutyKind.attestation.family id bound := rfl
  by_cases h : id' = id
  · subst h
    simp [account, family, readAt_dropBelow, isBelow_record_iff, Place.record, Account.dropVotes]
  · simp [account, family, readAt_dropBelow, isBelow_record_iff, Place.record, h]

@[simp] theorem account_enroll (key : PublicKey) (number : UInt64) :
    (t.enroll key number).account id = t.account id := by
  simp [account, enroll]

@[simp] theorem account_setNext (number : UInt64) :
    (t.setNext number).account id = t.account id := by
  simp [account, setNext]

@[simp] theorem registry_enroll (key : PublicKey) (number : UInt64) :
    (t.enroll key number).registry = t.registry.enroll key ⟨number⟩ := by
  simp [registry, enroll, Registry.enroll, Except.toOption, Except.map, eq_comm]

@[simp] theorem registry_setNext (number : UInt64) :
    (t.setNext number).registry = { t.registry with next := number } := by
  simp [registry, setNext, Except.toOption]

end Changes

end Table

end SlashingGuard
