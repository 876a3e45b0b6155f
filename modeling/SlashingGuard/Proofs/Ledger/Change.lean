import Mathlib.Logic.Relation
import SlashingGuard.Proofs.Ledger.WellFormed
import SlashingGuard.Proofs.Store.LedgerFile

/-! # Changes of a ledger

    The eight changes that any work on a ledger is made of, each with the
    condition under which it is made.  What one change keeps, every sequence
    of changes keeps: the ledger stays well formed, a key keeps its number, a
    validator stays registered, and the ledger file can be read back as long
    as no byte string that came from outside is too long for it. -/

namespace SlashingGuard

namespace Table

variable {allowed : Bytes → Prop} {t t' : Table Bytes}

/-- One change of a ledger.  Roots and keys are byte strings from outside, which `allowed` may
    restrict. -/
inductive Changed (allowed : Bytes → Prop) : Table Bytes → Table Bytes → Prop where
  | block {t : Table Bytes} {id : ValidatorId} (slot : Slot) {root : SigningRoot} :
    t.isRegistered id → allowed root.bytes → Changed allowed t (t.putBlock id slot root)
  | vote {t : Table Bytes} {id : ValidatorId} {vote : Vote} {root : SigningRoot} :
    t.isRegistered id → vote.source ≤ vote.target → allowed root.bytes →
      Changed allowed t (t.putVote id vote root)
  | slotFloor {t : Table Bytes} {id : ValidatorId} (slot : Slot) :
    t.isRegistered id → Changed allowed t (t.raiseSlot id slot)
  | epochFloors {t : Table Bytes} {id : ValidatorId} (source target : Epoch) :
    t.isRegistered id → Changed allowed t (t.raiseEpochs id source target)
  | dropBlocks (t : Table Bytes) (id : ValidatorId) (bound : Slot) :
    Changed allowed t (t.dropBlocks id bound)
  | dropVotes (t : Table Bytes) (id : ValidatorId) (bound : Epoch) :
    Changed allowed t (t.dropVotes id bound)
  | enroll {t : Table Bytes} {key : PublicKey} (number : UInt64) :
    t.registry.idOf key = none → allowed key.bytes → Changed allowed t (t.enroll key number)
  | setNext (t : Table Bytes) (number : UInt64) : Changed allowed t (t.setNext number)

/-- Some changes, one after the other. -/
abbrev Reaches (allowed : Bytes → Prop) : Table Bytes → Table Bytes → Prop :=
  Relation.ReflTransGen (Changed allowed)

/-! ## The ledger stays well formed -/

theorem Changed.wellFormed (h : Changed allowed t t') (wf : t.WellFormed) : t'.WellFormed := by
  cases h with
  | block slot registered _ => exact wf.putBlock registered slot _
  | vote registered ordered _ => exact wf.putVote registered ordered _
  | slotFloor slot registered => exact wf.raiseSlot registered slot
  | epochFloors source target registered => exact wf.raiseEpochs registered source target
  | dropBlocks id bound => exact wf.dropBlocks bound
  | dropVotes id bound => exact wf.dropVotes bound
  | enroll number _ _ => exact wf.enroll _ number
  | setNext number => exact wf.setNext number

theorem Reaches.wellFormed (h : Reaches allowed t t') (wf : t.WellFormed) : t'.WellFormed := by
  induction h with
  | refl => exact wf
  | tail _ change ih => exact change.wellFormed ih

/-! ## Registrations stay -/

/-- The number of every key belongs to a registered validator. -/
def Linked (t : Table Bytes) : Prop :=
  ∀ key id, t.registry.idOf key = some id → t.isRegistered id

/-- What the registry of one ledger says, that of another says too. -/
structure Remembers (t t' : Table Bytes) : Prop where
  idOf : ∀ key id, t.registry.idOf key = some id → t'.registry.idOf key = some id
  registered : ∀ id, t.isRegistered id → t'.isRegistered id

theorem Remembers.of_registry_eq (h : t'.registry = t.registry) : t.Remembers t' where
  idOf key id hk := by rwa [h]
  registered id hr := by rwa [isRegistered, h]

theorem Remembers.trans {t'' : Table Bytes} (h : t.Remembers t') (h' : t'.Remembers t'') :
    t.Remembers t'' where
  idOf key id hk := h'.idOf key id (h.idOf key id hk)
  registered id hr := h'.registered id (h.registered id hr)

theorem isRegistered_enroll (t : Table Bytes) (key : PublicKey) (number : UInt64) :
    (t.enroll key number).isRegistered ⟨number⟩ := by
  simp [isRegistered]

theorem remembers_enroll {key : PublicKey} (fresh : t.registry.idOf key = none)
    (number : UInt64) : t.Remembers (t.enroll key number) where
  idOf k id h := by
    have other : k ≠ key := by
      rintro rfl
      rw [fresh] at h
      contradiction
    simpa [other] using h
  registered id h := by
    rw [isRegistered, registry_enroll, Registry.enroll_keyOf]
    split
    · rfl
    · exact h

theorem remembers_setNext (t : Table Bytes) (number : UInt64) :
    t.Remembers (t.setNext number) where
  idOf k id h := by simpa using h
  registered id h := by simpa [isRegistered] using h

theorem Changed.remembers (h : Changed allowed t t') : t.Remembers t' := by
  cases h with
  | block slot _ _ => exact .of_registry_eq (registry_putBlock ..)
  | vote _ _ _ => exact .of_registry_eq (registry_putVote ..)
  | slotFloor slot _ => exact .of_registry_eq (registry_raiseSlot ..)
  | epochFloors source target _ => exact .of_registry_eq (registry_raiseEpochs ..)
  | dropBlocks id bound => exact .of_registry_eq (registry_dropBlocks ..)
  | dropVotes id bound => exact .of_registry_eq (registry_dropVotes ..)
  | enroll number fresh _ => exact remembers_enroll fresh number
  | setNext number => exact remembers_setNext t number

theorem Reaches.remembers (h : Reaches allowed t t') : t.Remembers t' := by
  induction h with
  | refl => exact .of_registry_eq rfl
  | tail _ change ih => exact ih.trans change.remembers

theorem Changed.linked (h : Changed allowed t t') (linked : t.Linked) : t'.Linked := by
  intro key id hk
  have kept : t.registry.idOf key = some id → t'.isRegistered id :=
    fun hk => h.remembers.registered id (linked key id hk)
  cases h with
  | block slot _ _ => exact kept (by simpa using hk)
  | vote _ _ _ => exact kept (by simpa using hk)
  | slotFloor slot _ => exact kept (by simpa using hk)
  | epochFloors source target _ => exact kept (by simpa using hk)
  | dropBlocks id bound => exact kept (by simpa using hk)
  | dropVotes id bound => exact kept (by simpa using hk)
  | setNext number => exact kept (by simpa using hk)
  | enroll number fresh _ =>
    rw [registry_enroll, Registry.enroll_idOf] at hk
    split at hk
    · obtain rfl := Option.some.inj hk
      exact isRegistered_enroll t _ number
    · exact kept hk

theorem Reaches.linked (h : Reaches allowed t t') (linked : t.Linked) : t'.Linked := by
  induction h with
  | refl => exact linked
  | tail _ change ih => exact change.linked ih

/-! ## The ledger still fits its file -/

/-- What comes from outside is short enough for a ledger file. -/
def Storable (bytes : Bytes) : Prop := bytes.length + 16 < 2 ^ 32

theorem length_placeBytes {place : Place}
    (h : ∀ key, place = .idOf key → Storable key.bytes) : place.bytes.length < 2 ^ 32 := by
  rw [Place.bytes_eq, List.length_append, KeyFamily.length_tag]
  cases place with
  | idOf key =>
    have short := h key rfl
    simp only [Storable] at short
    simp only [Place.suffix]
    omega
  | nextId => decide
  | _ => simp [Place.suffix]

theorem FitsFile.insert (fits : t.FitsFile) (place : Place) (value : Bytes)
    (hk : ∀ key, place = .idOf key → Storable key.bytes) (hv : value.length < 2 ^ 32) :
    (t.insert place.bytes value).FitsFile := by
  rintro ⟨key', value'⟩ member
  rw [← get?_eq_some_iff, get?_insert] at member
  split at member
  · next same =>
    obtain rfl := Option.some.inj member
    exact ⟨same ▸ length_placeBytes hk, hv⟩
  · exact fits _ (get?_eq_some_iff.1 member)

theorem FitsFile.dropBelow (fits : t.FitsFile) (family : KeyFamily) (id : ValidatorId)
    (bound : UInt64) : (t.dropBelow family id bound).FitsFile :=
  fun entry member => fits entry (List.mem_filter.1 member).1

theorem FitsFile.raiseSlot (fits : t.FitsFile) (id : ValidatorId) (slot : Slot) :
    (t.raiseSlot id slot).FitsFile := by
  unfold Table.raiseSlot
  split
  · exact fits.insert _ _ (by simp) (by simp)
  · exact fits

theorem FitsFile.raiseEpochs (fits : t.FitsFile) (id : ValidatorId) (source target : Epoch) :
    (t.raiseEpochs id source target).FitsFile := by
  unfold Table.raiseEpochs
  split
  · exact fits.insert _ _ (by simp) (by simp [LedgerValue.writeEpochFloors, Bytes.ofWordReversed])
  · exact fits

theorem Changed.fitsFile (h : Changed allowed t t')
    (short : ∀ bytes, allowed bytes → Storable bytes) (fits : t.FitsFile) : t'.FitsFile := by
  cases h with
  | block slot _ admitted =>
    have short := short _ admitted
    simp only [Storable] at short
    exact fits.insert _ _ (by simp) (by omega)
  | vote _ _ admitted =>
    have short := short _ admitted
    simp only [Storable] at short
    refine fits.insert _ _ (by simp) ?_
    simp only [LedgerValue.writeAttestation, List.length_append, Bytes.ofWordReversed,
      Bytes.length_littleEndian]
    omega
  | slotFloor slot _ => exact fits.raiseSlot _ slot
  | epochFloors source target _ => exact fits.raiseEpochs _ source target
  | dropBlocks id bound => exact fits.dropBelow _ _ _
  | dropVotes id bound => exact fits.dropBelow _ _ _
  | enroll number fresh admitted =>
    have short := short _ admitted
    have numbered := fits.insert (.idOf _) (Bytes.ofWord number) (by simpa using short)
      (by simp)
    simp only [Storable] at short
    exact numbered.insert _ _ (by simp) (by omega)
  | setNext number => exact fits.insert _ _ (by simp) (by simp)

theorem Reaches.fitsFile (h : Reaches allowed t t')
    (short : ∀ bytes, allowed bytes → Storable bytes) (fits : t.FitsFile) : t'.FitsFile := by
  induction h with
  | refl => exact fits
  | tail _ change ih => exact change.fitsFile short ih

end Table

end SlashingGuard
