import Mathlib.Data.List.Perm.Basic
import SlashingGuard.Proofs.Ledger.Confinement
import SlashingGuard.Proofs.Ledger.RecordCount

/-! # Prunes of several validators

    A prune of one validator reads and writes at the places of that validator
    alone.  So of several validators each is pruned as if it were the only
    one: what stands at its places afterwards is what its own prune of the
    first ledger leaves there, whatever was pruned before or after it, and
    nothing else is touched. -/

namespace SlashingGuard

namespace Place

theorem owner?_record (kind : DutyKind) (id : ValidatorId) (n : UInt64) :
    (record kind id n).owner? = some id := by
  cases kind <;> rfl

/-- The lock of a place is one of its owner. -/
theorem owner?_of_lock? {place : Place} {lock : LockName} (h : place.lock? = some lock) :
    place.owner? = some lock.1 := by
  cases place <;> first | contradiction | (obtain rfl := Option.some.inj h; rfl)

end Place

namespace Table

variable {t u : Table Bytes} {id : ValidatorId} {kind : DutyKind} {place : Place}
  {keep m bound e p : UInt64}

/-! ## What a prune leaves alone -/

theorem get?_raiseFloor_of_ne (ne : place ≠ .floor id kind) :
    (t.raiseFloor id kind m).get? place.bytes = t.get? place.bytes := by
  have keys : (Place.floor id kind).bytes ≠ place.bytes := by simpa using Ne.symm ne
  unfold raiseFloor
  split
  · rw [get?_insert, if_neg keys]
  · rfl

theorem get?_dropRecords_of_ne (ne : ∀ n < bound, place ≠ .record kind id n) :
    (t.dropRecords id kind bound).get? place.bytes = t.get? place.bytes := by
  have stays : ¬ isBelow kind.family id bound place.bytes := by
    rw [isBelow_record_iff]
    rintro ⟨n, lt, same⟩
    exact ne n lt same
  rw [dropRecords, get?_dropBelow, if_neg stays]

/-- Half a prune changes nothing under another lock. -/
theorem get?_pruneHalf_of_lock_ne (other : place.lock? ≠ some (id, kind)) :
    (t.pruneHalf id kind keep).get? place.bytes = t.get? place.bytes := by
  cases marked : t.mark id kind keep with
  | none => rw [pruneHalf_of_none marked]
  | some m =>
    have notRecord : ∀ n < m, place ≠ .record kind id n := by
      rintro n - rfl
      exact other (Place.lock?_record kind id n)
    have notFloor : place ≠ .floor id kind := by
      rintro rfl
      exact other rfl
    rw [pruneHalf_of_some marked, trim, get?_dropRecords_of_ne notRecord,
      get?_raiseFloor_of_ne notFloor]

/-- Nor does half a prune that is cut. -/
theorem HalfCut.get?_of_lock_ne (h : t.HalfCut id kind keep u)
    (other : place.lock? ≠ some (id, kind)) : u.get? place.bytes = t.get? place.bytes := by
  cases h with
  | untouched => rfl
  | raised marked =>
    apply get?_raiseFloor_of_ne
    rintro rfl
    exact other rfl

/-- A prune changes nothing of another validator, and nothing of the registry. -/
theorem get?_pruned_of_owner_ne (other : place.owner? ≠ some id) :
    (t.pruned id e p).get? place.bytes = t.get? place.bytes := by
  have lock : ∀ kind, place.lock? ≠ some (id, kind) := fun _ lock =>
    other (Place.owner?_of_lock? lock)
  rw [pruned, get?_pruneHalf_of_lock_ne (lock _), get?_pruneHalf_of_lock_ne (lock _)]

/-- Nor does a prune that is cut. -/
theorem Cut.get?_of_owner_ne (h : t.Cut id e p u) (other : place.owner? ≠ some id) :
    u.get? place.bytes = t.get? place.bytes := by
  have lock : ∀ kind, place.lock? ≠ some (id, kind) := fun _ lock =>
    other (Place.owner?_of_lock? lock)
  cases h with
  | blocks cut => exact cut.get?_of_lock_ne (lock _)
  | attestations cut => rw [cut.get?_of_lock_ne (lock _), get?_pruneHalf_of_lock_ne (lock _)]

/-! ## What a prune depends on -/

/-- Legible ledgers that are the same at the places of a validator. -/
structure AgreeOn (id : ValidatorId) (t u : Table Bytes) : Prop where
  left : t.Legible
  right : u.Legible
  same : ∀ place : Place, place.owner? = some id → t.get? place.bytes = u.get? place.bytes

namespace AgreeOn

theorem symm (h : AgreeOn id t u) : AgreeOn id u t :=
  ⟨h.right, h.left, fun place owner => (h.same place owner).symm⟩

theorem readAt_eq (h : AgreeOn id t u) {α : Type} (owner : place.owner? = some id)
    (read : Bytes → Except LedgerError α) : t.readAt place read = u.readAt place read := by
  rw [readAt, readAt, h.same place owner]

theorem account_eq (h : AgreeOn id t u) : t.account id = u.account id := by
  apply Account.ext
  · funext slot
    exact h.readAt_eq rfl _
  · funext target
    exact h.readAt_eq rfl _
  · exact h.readAt_eq rfl _
  · exact h.readAt_eq rfl _

/-- The records of the validator are the same, byte for byte. -/
theorem scan_eq (h : AgreeOn id t u) (kind : DutyKind) :
    t.scan (kind.family.scope id) = u.scan (kind.family.scope id) := by
  -- What is there under the scope is a record of the validator, and so it is in both.
  have records : ∀ {t u : Table Bytes}, AgreeOn id t u → ∀ {key value},
      (kind.family.scope id).isPrefixOf key → t.get? key = some value →
        u.get? key = some value := by
    intro t u h key value inside found
    obtain ⟨place, rfl, -⟩ := h.left.documented key value found
    obtain ⟨n, rfl⟩ := Place.record_scope_isPrefixOf.1 inside
    rw [← h.same _ (Place.owner?_record kind id n), found]
  apply scan_congr
  intro key inside
  apply Option.ext
  intro value
  exact ⟨records h inside, records h.symm inside⟩

theorem mark_eq (h : AgreeOn id t u) (kind : DutyKind) (keep : UInt64) :
    t.mark id kind keep = u.mark id kind keep := by
  rw [mark, mark, numbers, numbers, h.scan_eq, h.account_eq]

theorem removed_eq (h : AgreeOn id t u) (kind : DutyKind) (keep : UInt64) :
    t.removed id kind keep = u.removed id kind keep := by
  unfold removed countBelow
  rw [h.mark_eq, h.scan_eq]

theorem outcome_eq (h : AgreeOn id t u) (e p : UInt64) :
    t.outcome id e p = u.outcome id e p := by
  simp only [outcome, h.mark_eq, h.removed_eq]

theorem recordsOf_eq (h : AgreeOn id t u) (kind : DutyKind) :
    t.recordsOf kind id = u.recordsOf kind id :=
  congrArg List.length (h.scan_eq kind)

/-! ### Agreement is kept -/

theorem raiseFloor (h : AgreeOn id t u) (kind : DutyKind) (m : UInt64) :
    AgreeOn id (t.raiseFloor id kind m) (u.raiseFloor id kind m) where
  left := h.left.raiseFloor id kind m
  right := h.right.raiseFloor id kind m
  same place owner := by
    unfold Table.raiseFloor
    rw [h.account_eq]
    split
    · rw [get?_insert, get?_insert, h.same place owner]
    · exact h.same place owner

theorem dropRecords (h : AgreeOn id t u) (kind : DutyKind) (bound : UInt64) :
    AgreeOn id (t.dropRecords id kind bound) (u.dropRecords id kind bound) where
  left := h.left.dropRecords id kind bound
  right := h.right.dropRecords id kind bound
  same place owner := by
    rw [Table.dropRecords, Table.dropRecords, get?_dropBelow, get?_dropBelow, h.same place owner]

theorem pruneHalf (h : AgreeOn id t u) (kind : DutyKind) (keep : UInt64) :
    AgreeOn id (t.pruneHalf id kind keep) (u.pruneHalf id kind keep) := by
  unfold Table.pruneHalf
  rw [h.mark_eq]
  split
  · exact h
  · exact (h.raiseFloor kind _).dropRecords kind _

theorem pruned (h : AgreeOn id t u) (e p : UInt64) :
    AgreeOn id (t.pruned id e p) (u.pruned id e p) :=
  (h.pruneHalf .block _).pruneHalf .attestation e

end AgreeOn

/-! ## One validator after another -/

/-- What prunes of several validators leave of a ledger, one after the other. -/
def prunedAll (t : Table Bytes) (epochsToKeep slotsPerEpoch : UInt64)
    (ids : List ValidatorId) : Table Bytes :=
  ids.foldl (fun t id => t.pruned id epochsToKeep slotsPerEpoch) t

theorem Regular.prunedAll (regular : t.Regular) (e p : UInt64) (ids : List ValidatorId) :
    (t.prunedAll e p ids).Regular :=
  List.foldlRecOn ids _ regular fun _ h id _ => h.pruned id e p

/-- Prunes of other validators do not touch a place. -/
theorem get?_prunedAll_of_not_mem {ids : List ValidatorId}
    (other : ∀ id ∈ ids, place.owner? ≠ some id) :
    (t.prunedAll e p ids).get? place.bytes = t.get? place.bytes := by
  induction ids generalizing t with
  | nil => rfl
  | cons id rest ih =>
    obtain ⟨first, others⟩ := List.forall_mem_cons.1 other
    exact (ih others).trans (get?_pruned_of_owner_ne first)

/-- So a validator is left alone by the prunes of others. -/
theorem agreeOn_prunedAll (regular : t.Regular) {ids : List ValidatorId} (absent : id ∉ ids)
    (e p : UInt64) : AgreeOn id (t.prunedAll e p ids) t where
  left := (regular.prunedAll e p ids).toLegible
  right := regular.toLegible
  same place owner := by
    apply get?_prunedAll_of_not_mem
    rintro id' member same
    obtain rfl : id = id' := Option.some.inj (owner.symm.trans same)
    exact absent member

/-- At the places of a validator that is pruned once, it is as if it had been pruned alone. -/
theorem get?_prunedAll_of_mem (regular : t.Regular) {ids : List ValidatorId} (once : ids.Nodup)
    (member : id ∈ ids) (owner : place.owner? = some id) :
    (t.prunedAll e p ids).get? place.bytes = (t.pruned id e p).get? place.bytes := by
  obtain ⟨before, behind, rfl⟩ := List.append_of_mem member
  have absent : id ∉ before := fun twice =>
    (List.nodup_append.1 once).2.2 id twice id List.mem_cons_self rfl
  have absent' : id ∉ behind := by
    have once := (List.nodup_append.1 once).2.1
    exact (List.nodup_cons.1 once).1
  have alone := (agreeOn_prunedAll regular absent e p).pruned e p
  have left := (regular.prunedAll e p before).pruned id e p
  have rest := agreeOn_prunedAll left absent' e p
  rw [prunedAll, List.foldl_append]
  exact (rest.same place owner).trans (alone.same place owner)

/-- It does not matter in which order validators are pruned. -/
theorem prunedAll_perm (regular : t.Regular) {ids order : List ValidatorId}
    (once : ids.Nodup) (perm : order.Perm ids) (e p : UInt64) :
    t.prunedAll e p order = t.prunedAll e p ids := by
  apply ext_get?
  intro key
  -- What is not the key of a place is in neither ledger.
  have places : ∀ place : Place, (t.prunedAll e p order).get? place.bytes =
      (t.prunedAll e p ids).get? place.bytes := by
    intro place
    by_cases owned : ∃ id ∈ ids, place.owner? = some id
    · obtain ⟨id, member, owner⟩ := owned
      rw [get?_prunedAll_of_mem regular (perm.nodup_iff.2 once) (perm.mem_iff.2 member) owner,
        get?_prunedAll_of_mem regular once member owner]
    · have other : ∀ id ∈ ids, place.owner? ≠ some id := fun id member owner =>
        owned ⟨id, member, owner⟩
      rw [get?_prunedAll_of_not_mem other,
        get?_prunedAll_of_not_mem fun id member => other id (perm.mem_iff.1 member)]
  by_cases isPlace : ∃ place : Place, key = place.bytes
  · obtain ⟨place, rfl⟩ := isPlace
    exact places place
  · have absent : ∀ {u : Table Bytes}, u.Regular → u.get? key = none := by
      intro u regular
      refine Option.eq_none_iff_forall_ne_some.2 fun value found => isPlace ?_
      obtain ⟨place, same, -⟩ := regular.documented key value found
      exact ⟨place, same⟩
    rw [absent (regular.prunedAll e p order), absent (regular.prunedAll e p ids)]

/-! ### What they report -/

/-- Other validators report what they would have before a prune. -/
theorem map_outcome_pruned (regular : t.Regular) {rest : List ValidatorId} (absent : id ∉ rest)
    (e p : UInt64) : (rest.map fun id' => (t.pruned id e p).outcome id' e p) =
      rest.map fun id' => t.outcome id' e p := by
  apply List.map_congr_left
  intro id' member
  have apart : id' ∉ [id] := fun same => absent (List.mem_singleton.1 same ▸ member)
  have agree : AgreeOn id' (t.pruned id e p) t := agreeOn_prunedAll regular apart e p
  exact agree.outcome_eq e p

theorem recordCount_prunedAll (regular : t.Regular) {ids : List ValidatorId} (once : ids.Nodup)
    (e p : UInt64) (kind : DutyKind) :
    (t.prunedAll e p ids).recordCount kind +
      (ids.map fun id => (t.outcome id e p).removed kind).sum = t.recordCount kind := by
  induction ids generalizing t with
  | nil => rfl
  | cons id rest ih =>
    obtain ⟨absent, once⟩ := List.nodup_cons.1 once
    have later := ih (regular.pruned id e p) once
    have first := recordCount_pruned regular.toLegible id e p kind
    have same := congrArg (List.map fun o => o.removed kind) (map_outcome_pruned regular absent e p)
    simp only [List.map_map, Function.comp_def] at same
    rw [same] at later
    rw [List.map_cons, List.sum_cons]
    show ((t.pruned id e p).prunedAll e p rest).recordCount kind + _ = _
    omega

/-- Of each validator is gone what its own prune reports. -/
theorem recordsOf_prunedAll (regular : t.Regular) {ids : List ValidatorId} (once : ids.Nodup)
    (member : id ∈ ids) (e p : UInt64) (kind : DutyKind) :
    (t.prunedAll e p ids).recordsOf kind id + (t.outcome id e p).removed kind =
      t.recordsOf kind id := by
  have agree : AgreeOn id (t.prunedAll e p ids) (t.pruned id e p) :=
    ⟨(regular.prunedAll e p ids).toLegible, (regular.pruned id e p).toLegible,
      fun _ owner => get?_prunedAll_of_mem regular once member owner⟩
  rw [agree.recordsOf_eq]
  exact recordsOf_pruned regular.toLegible id e p kind

end Table

namespace PruneSummary

/-- What a summary counts: the outcomes with a floor, and all that was removed. -/
theorem foldl_record (outcomes : List PruneOutcome) (s : PruneSummary) :
    (outcomes.foldl record s).validators =
        s.validators + (outcomes.filter fun o => !o.isNoop).length ∧
      ∀ kind, (outcomes.foldl record s).removed kind =
        s.removed kind + (outcomes.map fun o => o.removed kind).sum := by
  induction outcomes generalizing s with
  | nil => exact ⟨rfl, fun _ => rfl⟩
  | cons o rest ih =>
    obtain ⟨validators, removed⟩ := ih (s.record o)
    rw [List.foldl_cons]
    constructor
    · rw [validators]
      cases noop : o.isNoop <;> simp [record, noop, Nat.add_assoc, Nat.add_comm]
    · intro kind
      rw [removed, List.map_cons, List.sum_cons, ← Nat.add_assoc]
      cases kind <;> rfl

/-- The summary counts whoever had a floor to prune to, and adds up what was removed. -/
structure SumsUp (s : PruneSummary) (outcomes : List PruneOutcome) : Prop where
  validators : s.validators = outcomes.countP fun o => o.slot.isSome || o.epoch.isSome
  blocks : s.blocks = (outcomes.map fun o => o.blocks).sum
  attestations : s.attestations = (outcomes.map fun o => o.attestations).sum

theorem sumsUp_foldl_record (outcomes : List PruneOutcome) :
    (outcomes.foldl record empty).SumsUp outcomes := by
  obtain ⟨validators, removed⟩ := foldl_record outcomes empty
  have floors : ∀ o : PruneOutcome, (!o.isNoop) = (o.slot.isSome || o.epoch.isSome) := by
    intro o
    cases slot : o.slot <;> cases epoch : o.epoch <;> simp [PruneOutcome.isNoop, slot, epoch]
  constructor
  · rw [validators, List.countP_eq_length_filter]
    simp only [floors, empty, Nat.zero_add]
  · simpa [empty, PruneSummary.removed, PruneOutcome.removed] using removed .block
  · simpa [empty, PruneSummary.removed, PruneOutcome.removed] using removed .attestation

end PruneSummary

end SlashingGuard
