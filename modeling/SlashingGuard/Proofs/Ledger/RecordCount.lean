import Mathlib.Data.Finset.Card
import SlashingGuard.Proofs.Ledger.PruneAlgebra
import SlashingGuard.Proofs.Ledger.Registration

/-! # Counts of records

    A ledger has as many records of a kind as it has keys in the family of the
    kind.  A record that is put where there was none counts once more, and half
    a prune takes away exactly as many as it reports.  Floors and the registry
    have keys of other families and do not count. -/

namespace SlashingGuard

namespace Table

variable {t : Table Bytes} {id : ValidatorId} {kind kind' : DutyKind} {scope : Bytes}
  {bound : UInt64}

/-! ## Keys under a scope -/

/-- The keys that begin with a scope. -/
def keysUnder (t : Table Bytes) (scope : Bytes) : Finset Bytes :=
  ((t.scan scope).map Prod.fst).toFinset

theorem mem_keysUnder {key : Bytes} :
    key ∈ t.keysUnder scope ↔ (t.get? key).isSome ∧ scope.isPrefixOf key := by
  rw [keysUnder, List.mem_toFinset, List.mem_map]
  constructor
  · rintro ⟨⟨key, value⟩, member, rfl⟩
    obtain ⟨found, inside⟩ := mem_scan.1 member
    exact ⟨Option.isSome_of_eq_some found, inside⟩
  · rintro ⟨there, inside⟩
    obtain ⟨value, found⟩ := Option.isSome_iff_exists.1 there
    exact ⟨(key, value), mem_scan.2 ⟨found, inside⟩, rfl⟩

theorem card_keysUnder (t : Table Bytes) (scope : Bytes) :
    (t.keysUnder scope).card = (t.scan scope).length := by
  rw [keysUnder, List.toFinset_card_of_nodup (Entries.nodup_keys (ascending_scan t scope)),
    List.length_map]

/-! ### What changes do to them -/

theorem keysUnder_insert {key : Bytes} (inside : scope.isPrefixOf key) (value : Bytes) :
    (t.insert key value).keysUnder scope = Insert.insert key (t.keysUnder scope) := by
  ext key'
  rw [Finset.mem_insert, mem_keysUnder, mem_keysUnder, get?_insert]
  by_cases same : key = key'
  · subst same
    simp [inside]
  · rw [if_neg same, or_iff_right (Ne.symm same)]

/-- A value at a new key adds one to the scan. -/
theorem length_scan_insert {key : Bytes} (new : t.get? key = none)
    (inside : scope.isPrefixOf key) (value : Bytes) :
    ((t.insert key value).scan scope).length = (t.scan scope).length + 1 := by
  have absent : key ∉ t.keysUnder scope := by simp [mem_keysUnder, new]
  rw [← card_keysUnder, ← card_keysUnder, keysUnder_insert inside,
    Finset.card_insert_of_notMem absent]

/-- A value at a key outside of a scope is not seen by the scan. -/
theorem scan_insert_of_not {key : Bytes} (outside : ¬ scope.isPrefixOf key) (value : Bytes) :
    (t.insert key value).scan scope = t.scan scope := by
  apply scan_congr
  intro key' inside
  have other : key ≠ key' := fun same => outside (same ▸ inside)
  rw [get?_insert, if_neg other]

/-- Keys that go from under one scope are counted there, and also under every wider scope. -/
theorem length_scan_dropBelow (family : KeyFamily) (id : ValidatorId) (bound : UInt64)
    (wider : scope <+: family.scope id) :
    ((t.dropBelow family id bound).scan scope).length + t.countBelow family id bound =
      (t.scan scope).length := by
  have within : ∀ key, (family.scope id).isPrefixOf key → scope.isPrefixOf key :=
    fun key inside => List.isPrefixOf_iff_prefix.2
      (wider.trans (List.isPrefixOf_iff_prefix.1 inside))
  have kept : (t.dropBelow family id bound).keysUnder scope =
      (t.keysUnder scope).filter fun key => ¬ isBelow family id bound key := by
    ext key
    rw [Finset.mem_filter, mem_keysUnder, mem_keysUnder, get?_dropBelow]
    by_cases below : isBelow family id bound key <;> simp [below]
  have gone : t.countBelow family id bound =
      ((t.keysUnder scope).filter fun key => isBelow family id bound key).card := by
    have ascending := (ascending_scan t (family.scope id)).filter
      fun entry => entry.1 < family.indexed id bound
    rw [countBelow, ← List.length_map Prod.fst,
      ← List.toFinset_card_of_nodup (Entries.nodup_keys ascending)]
    congr 1
    ext key
    simp only [List.mem_toFinset, List.mem_map, List.mem_filter, Finset.mem_filter, mem_keysUnder]
    constructor
    · rintro ⟨⟨key, value⟩, ⟨member, below⟩, rfl⟩
      obtain ⟨found, inside⟩ := mem_scan.1 member
      exact ⟨⟨Option.isSome_of_eq_some found, within key inside⟩, by simpa [isBelow, inside]
        using below⟩
    · rintro ⟨⟨there, -⟩, below⟩
      obtain ⟨value, found⟩ := Option.isSome_iff_exists.1 there
      obtain ⟨inside, below⟩ := by simpa [isBelow] using below
      exact ⟨(key, value), ⟨mem_scan.2 ⟨found, List.isPrefixOf_iff_prefix.2 inside⟩,
        by simpa using below⟩, rfl⟩
  rw [← card_keysUnder, ← card_keysUnder, kept, gone, Nat.add_comm]
  exact Finset.card_filter_add_card_filter_not _

/-! ## Records -/

/-- How many records of a kind a ledger has. -/
def recordCount (t : Table Bytes) (kind : DutyKind) : Nat := (t.scan kind.family.tag).length

/-- How many of them are of one validator. -/
def recordsOf (t : Table Bytes) (kind : DutyKind) (id : ValidatorId) : Nat :=
  (t.scan (kind.family.scope id)).length

theorem family_record (kind : DutyKind) (id : ValidatorId) (n : UInt64) :
    (Place.record kind id n).family = kind.family := by
  cases kind <;> rfl

/-- What is put in another family does not count. -/
theorem recordCount_insert_of_ne {place : Place} (other : place.family ≠ kind.family)
    (value : Bytes) : (t.insert place.bytes value).recordCount kind = t.recordCount kind := by
  have outside : ¬ kind.family.tag.isPrefixOf place.bytes := fun inside =>
    other (Place.tag_isPrefixOf.1 inside)
  rw [recordCount, scan_insert_of_not outside, recordCount]

/-- A record that is put where there was none counts once more. -/
theorem recordCount_insert_record {n : UInt64}
    (free : t.get? (Place.record kind id n).bytes = none) (value : Bytes) :
    (t.insert (Place.record kind id n).bytes value).recordCount kind = t.recordCount kind + 1 :=
  length_scan_insert free (Place.tag_isPrefixOf.2 (family_record kind id n)) value

theorem family_injective (h : kind.family = kind'.family) : kind = kind' := by
  cases kind <;> cases kind' <;> first | rfl | contradiction

/-! ### Floors and the registry -/

/-- Scopes of records do not see floors. -/
theorem scan_raiseFloor (t : Table Bytes) (id : ValidatorId) (kind kind' : DutyKind) (m : UInt64)
    (rest : Bytes) :
    (t.raiseFloor id kind' m).scan (kind.family.tag ++ rest) = t.scan (kind.family.tag ++ rest) := by
  have outside : ¬ (kind.family.tag ++ rest).isPrefixOf (Place.floor id kind').bytes := by
    rw [Place.isPrefixOf_tag_append]
    rintro ⟨same, -⟩
    cases kind <;> contradiction
  unfold raiseFloor
  split
  · exact scan_insert_of_not outside _
  · rfl

@[simp] theorem recordCount_raiseFloor (t : Table Bytes) (id : ValidatorId)
    (kind kind' : DutyKind) (m : UInt64) :
    (t.raiseFloor id kind' m).recordCount kind = t.recordCount kind := by
  have same := scan_raiseFloor t id kind kind' m []
  rw [List.append_nil] at same
  rw [recordCount, same, recordCount]

@[simp] theorem countBelow_raiseFloor (t : Table Bytes) (id id' : ValidatorId)
    (kind kind' : DutyKind) (m bound : UInt64) :
    (t.raiseFloor id' kind' m).countBelow kind.family id bound =
      t.countBelow kind.family id bound := by
  rw [countBelow, KeyFamily.scope, scan_raiseFloor, countBelow, KeyFamily.scope]

theorem recordCount_enroll (t : Table Bytes) (key : PublicKey) (number : UInt64)
    (kind : DutyKind) : (t.enroll key number).recordCount kind = t.recordCount kind := by
  have idOf : (Place.idOf key).family ≠ kind.family := by cases kind <;> nofun
  have keyOf : (Place.keyOf ⟨number⟩).family ≠ kind.family := by cases kind <;> nofun
  rw [enroll, recordCount_insert_of_ne keyOf, recordCount_insert_of_ne idOf]

theorem recordCount_setNext (t : Table Bytes) (number : UInt64) (kind : DutyKind) :
    (t.setNext number).recordCount kind = t.recordCount kind := by
  have counter : Place.nextId.family ≠ kind.family := by cases kind <;> nofun
  exact recordCount_insert_of_ne counter _

theorem recordCount_enrollFrom (t : Table Bytes) (next : UInt64) (keys : List PublicKey)
    (kind : DutyKind) : (t.enrollFrom next keys).1.recordCount kind = t.recordCount kind := by
  induction keys generalizing t next with
  | nil => rfl
  | cons key rest ih =>
    cases known : t.registry.idOf key with
    | some id => rw [enrollFrom_cons_known known, ih]
    | none => rw [enrollFrom_cons_new known, ih, recordCount_enroll]

/-- Registering keys adds no record. -/
theorem recordCount_registerKeys (t : Table Bytes) (keys : List PublicKey) (kind : DutyKind) :
    (t.registerKeys keys).1.recordCount kind = t.recordCount kind := by
  rw [registerKeys, recordCount_setNext, recordCount_enrollFrom]

/-! ### Permits -/

theorem get?_record_eq_none (legible : t.Legible) {n : UInt64}
    (unrecorded : n ∉ (t.account id).recorded kind) :
    t.get? (Place.record kind id n).bytes = none := by
  simpa using fun there => unrecorded ((mem_recorded_iff legible).2 there)

/-- A permitted block is one record more. -/
theorem recordCount_recordBlock (legible : t.Legible) {slot : Slot}
    (free : slot ∉ (t.account id).recorded .block) (root : SigningRoot) (kind : DutyKind) :
    (t.recordBlock id slot root).recordCount kind =
      t.recordCount kind + if kind = .block then 1 else 0 := by
  rw [recordBlock, ← raiseFloor_block, recordCount_raiseFloor, putBlock]
  cases kind with
  | block => exact recordCount_insert_record (get?_record_eq_none legible free) root.bytes
  | attestation =>
    have other : (Place.block id slot).family ≠ DutyKind.attestation.family := by
      intro same
      contradiction
    exact recordCount_insert_of_ne other root.bytes

/-- So is a permitted vote. -/
theorem recordCount_recordVote (legible : t.Legible) {vote : Vote}
    (free : vote.target ∉ (t.account id).recorded .attestation) (root : SigningRoot)
    (kind : DutyKind) :
    (t.recordVote id vote root).recordCount kind =
      t.recordCount kind + if kind = .attestation then 1 else 0 := by
  rw [recordVote, ← raiseFloor_attestation, recordCount_raiseFloor, putVote]
  cases kind with
  | block =>
    have other : (Place.attestation id vote.target).family ≠ DutyKind.block.family := by
      intro same
      contradiction
    exact recordCount_insert_of_ne other _
  | attestation => exact recordCount_insert_record (get?_record_eq_none legible free) _

/-! ## Prunes -/

/-- How many records half a prune removes. -/
def removed (t : Table Bytes) (id : ValidatorId) (kind : DutyKind) (keep : UInt64) : Nat :=
  match t.mark id kind keep with
  | none => 0
  | some m => t.countBelow kind.family id m

variable {keep : UInt64} {rest : Bytes}

/-- What half a prune removes is missing under every scope that holds the records of the
    validator. -/
theorem length_scan_pruneHalf (t : Table Bytes) (kind : DutyKind) (keep : UInt64)
    (wider : rest <+: Bytes.ofWord id.number) :
    ((t.pruneHalf id kind keep).scan (kind.family.tag ++ rest)).length + t.removed id kind keep =
      (t.scan (kind.family.tag ++ rest)).length := by
  cases marked : t.mark id kind keep with
  | none =>
    have nothing : t.removed id kind keep = 0 := by rw [removed, marked]
    rw [pruneHalf_of_none marked, nothing, Nat.add_zero]
  | some m =>
    have dropped := length_scan_dropBelow (t := t.raiseFloor id kind m) kind.family id m
      ((List.prefix_append_right_inj kind.family.tag).2 wider)
    rw [countBelow_raiseFloor, scan_raiseFloor] at dropped
    have some : t.removed id kind keep = t.countBelow kind.family id m := by rw [removed, marked]
    rw [pruneHalf_of_some marked, some]
    exact dropped

/-- Scopes of one kind do not see what goes of the other. -/
theorem scan_pruneHalf_of_ne (t : Table Bytes) (id : ValidatorId) (ne : kind ≠ kind')
    (keep : UInt64) (rest : Bytes) :
    (t.pruneHalf id kind' keep).scan (kind.family.tag ++ rest) =
      t.scan (kind.family.tag ++ rest) := by
  cases marked : t.mark id kind' keep with
  | none => rw [pruneHalf_of_none marked]
  | some m =>
    rw [pruneHalf_of_some marked, ← scan_raiseFloor t id kind kind' m rest]
    apply scan_congr
    intro key inside
    rw [trim, dropRecords, get?_dropBelow, if_neg]
    intro below
    have there : (kind'.family.scope id).isPrefixOf key := by
      rw [isBelow, Bool.and_eq_true] at below
      exact below.1
    -- Both tags begin the key and are of one length.
    have tag : kind.family.tag <+: key :=
      (List.prefix_append _ _).trans (List.isPrefixOf_iff_prefix.1 inside)
    have tag' : kind'.family.tag <+: key :=
      (List.prefix_append _ _).trans (List.isPrefixOf_iff_prefix.1 there)
    have same := (List.prefix_of_prefix_length_le tag tag' (Nat.le_refl 2)).eq_of_length rfl
    exact ne (family_injective (KeyFamily.tag_injective same))

theorem recordCount_pruneHalf (t : Table Bytes) (id : ValidatorId) (kind : DutyKind)
    (keep : UInt64) :
    (t.pruneHalf id kind keep).recordCount kind + t.removed id kind keep = t.recordCount kind := by
  have counts := length_scan_pruneHalf t kind keep (List.nil_prefix (l := Bytes.ofWord id.number))
  rwa [List.append_nil] at counts

theorem recordCount_pruneHalf_of_ne (t : Table Bytes) (id : ValidatorId) (ne : kind ≠ kind')
    (keep : UInt64) : (t.pruneHalf id kind' keep).recordCount kind = t.recordCount kind := by
  have same := scan_pruneHalf_of_ne t id ne keep []
  rw [List.append_nil] at same
  exact congrArg List.length same

theorem recordsOf_pruneHalf (t : Table Bytes) (id : ValidatorId) (kind : DutyKind)
    (keep : UInt64) :
    (t.pruneHalf id kind keep).recordsOf kind id + t.removed id kind keep =
      t.recordsOf kind id :=
  length_scan_pruneHalf t kind keep List.prefix_rfl

theorem recordsOf_pruneHalf_of_ne (t : Table Bytes) (id id' : ValidatorId) (ne : kind ≠ kind')
    (keep : UInt64) : (t.pruneHalf id kind' keep).recordsOf kind id' = t.recordsOf kind id' :=
  congrArg List.length (scan_pruneHalf_of_ne t id ne keep (Bytes.ofWord id'.number))

/-- To one kind it is the same whether the other was pruned. -/
theorem removed_pruneHalf_of_ne (legible : t.Legible) (ne : kind ≠ kind') {keep' : UInt64} :
    (t.pruneHalf id kind' keep').removed id kind keep = t.removed id kind keep := by
  unfold removed
  rw [mark_pruneHalf_of_ne legible ne]
  cases t.mark id kind keep with
  | none => rfl
  | some m =>
    show countBelow _ _ _ _ = countBelow _ _ _ _
    rw [countBelow, KeyFamily.scope, scan_pruneHalf_of_ne t id ne, countBelow, KeyFamily.scope]

/-- There are no more records below a bound than there are numbers. -/
theorem countBelow_le (legible : t.Legible) (kind : DutyKind) (id : ValidatorId)
    (bound : UInt64) : t.countBelow kind.family id bound ≤ bound.toNat := by
  let below := (t.scan (kind.family.scope id)).filter fun entry =>
    entry.1 < kind.family.indexed id bound
  have ascending : Entries.Ascending below := (ascending_scan t _).filter _
  let keys := (Finset.range bound.toNat).image fun i => kind.family.indexed id (UInt64.ofNat i)
  have sub : (below.map Prod.fst).toFinset ⊆ keys := by
    intro key member
    rw [List.mem_toFinset, List.mem_map] at member
    obtain ⟨entry, member, rfl⟩ := member
    obtain ⟨scanned, lt⟩ := List.mem_filter.1 member
    obtain ⟨n, same⟩ := legible.indexed_records kind id entry scanned
    have lt : n < bound := by
      rw [same] at lt
      exact LedgerKey.indexed_lt_indexed.1 (of_decide_eq_true lt)
    rw [same]
    refine Finset.mem_image.2 ⟨n.toNat, Finset.mem_range.2 (UInt64.lt_iff_toNat_lt.1 lt), ?_⟩
    rw [UInt64.ofNat_toNat]
  have counts : (below.map Prod.fst).toFinset.card = t.countBelow kind.family id bound := by
    rw [List.toFinset_card_of_nodup (Entries.nodup_keys ascending), List.length_map]
    rfl
  rw [← counts]
  calc (below.map Prod.fst).toFinset.card ≤ keys.card := Finset.card_le_card sub
    _ ≤ (Finset.range bound.toNat).card := Finset.card_image_le
    _ = bound.toNat := Finset.card_range _

/-- So the number that half a prune reports is a word. -/
theorem removed_lt (legible : t.Legible) (id : ValidatorId) (kind : DutyKind) (keep : UInt64) :
    t.removed id kind keep < 2 ^ 64 := by
  unfold removed
  cases t.mark id kind keep with
  | none => exact Nat.two_pow_pos 64
  | some m => exact Nat.lt_of_le_of_lt (countBelow_le legible kind id m) m.toNat_lt

end Table

/-! ## Whole prunes, one kind at a time -/

/-- How many slots or targets a prune keeps, counted back from the newest. -/
def pruneWindow (epochsToKeep slotsPerEpoch : UInt64) : DutyKind → UInt64
  | .block => slotsKept epochsToKeep slotsPerEpoch
  | .attestation => epochsToKeep

theorem pruneWindow_ne_zero {e : UInt64} (he : e ≠ 0) (p : UInt64) (kind : DutyKind) :
    pruneWindow e p kind ≠ 0 := by
  cases kind with
  | block => exact slotsKept_ne_zero e p
  | attestation => exact he

/-- The floor of a kind that a prune reports. -/
def PruneOutcome.floor (o : PruneOutcome) : DutyKind → Option UInt64
  | .block => o.slot
  | .attestation => o.epoch

/-- The records of a kind that a prune reports as removed. -/
def PruneOutcome.removed (o : PruneOutcome) : DutyKind → Nat
  | .block => o.blocks
  | .attestation => o.attestations

/-- The records of a kind that several prunes removed. -/
def PruneSummary.removed (s : PruneSummary) : DutyKind → Nat
  | .block => s.blocks
  | .attestation => s.attestations

namespace Table

variable {t : Table Bytes} {id : ValidatorId} {kind : DutyKind} {e p : UInt64}

/-- What a prune of one validator reports. -/
def outcome (t : Table Bytes) (id : ValidatorId) (epochsToKeep slotsPerEpoch : UInt64) :
    PruneOutcome where
  validator := id
  slot := t.mark id .block (slotsKept epochsToKeep slotsPerEpoch)
  epoch := t.mark id .attestation epochsToKeep
  blocks := t.removed id .block (slotsKept epochsToKeep slotsPerEpoch)
  attestations := t.removed id .attestation epochsToKeep

@[simp] theorem floor_outcome :
    (t.outcome id e p).floor kind = t.mark id kind (pruneWindow e p kind) := by
  cases kind <;> rfl

@[simp] theorem removed_outcome :
    (t.outcome id e p).removed kind = t.removed id kind (pruneWindow e p kind) := by
  cases kind <;> rfl

/-- Of the ledger, a prune takes what it reports. -/
theorem recordCount_pruned (legible : t.Legible) (id : ValidatorId) (e p : UInt64)
    (kind : DutyKind) :
    (t.pruned id e p).recordCount kind + (t.outcome id e p).removed kind =
      t.recordCount kind := by
  have ne : DutyKind.block ≠ .attestation := nofun
  cases kind with
  | block =>
    show (pruneHalf _ id .attestation e).recordCount .block + t.removed id .block _ = _
    rw [recordCount_pruneHalf_of_ne _ id ne, recordCount_pruneHalf]
  | attestation =>
    show (pruneHalf _ id .attestation e).recordCount .attestation + t.removed id .attestation e = _
    rw [← removed_pruneHalf_of_ne legible ne.symm, recordCount_pruneHalf,
      recordCount_pruneHalf_of_ne _ id ne.symm]

/-- It takes it of the validator that it is of. -/
theorem recordsOf_pruned (legible : t.Legible) (id : ValidatorId) (e p : UInt64)
    (kind : DutyKind) :
    (t.pruned id e p).recordsOf kind id + (t.outcome id e p).removed kind =
      t.recordsOf kind id := by
  have ne : DutyKind.block ≠ .attestation := nofun
  cases kind with
  | block =>
    show (pruneHalf _ id .attestation e).recordsOf .block id + t.removed id .block _ = _
    rw [recordsOf_pruneHalf_of_ne _ id id ne, recordsOf_pruneHalf]
  | attestation =>
    show (pruneHalf _ id .attestation e).recordsOf .attestation id +
      t.removed id .attestation e = _
    rw [← removed_pruneHalf_of_ne legible ne.symm, recordsOf_pruneHalf,
      recordsOf_pruneHalf_of_ne _ id id ne.symm]

/-- Where half a prune is cut, no record is gone. -/
theorem HalfCut.recordCount_eq {keep : UInt64} {u : Table Bytes} {kind' : DutyKind}
    (h : t.HalfCut id kind' keep u) : u.recordCount kind = t.recordCount kind := by
  cases h with
  | untouched => rfl
  | raised _ => exact recordCount_raiseFloor t id kind kind' _

end Table

end SlashingGuard
