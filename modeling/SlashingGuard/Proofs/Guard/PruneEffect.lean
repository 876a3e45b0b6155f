import SlashingGuard.Proofs.Guard.Atomicity
import SlashingGuard.Proofs.Guard.PruneLaws
import SlashingGuard.Proofs.Ledger.Isolation

/-! # The effect of one prune

    What a prune of one validator does, to the number: where it leaves each
    floor, which records stay, and how many it reports as removed.  Floors and
    windows are compared as integers, so the formulas hold also at zero and at
    the largest word.

    Words are computed with, and nothing here wraps around: each step gives a
    word whenever it is taken exactly.  That rests on the check of the
    tunables; a window of zero would count one past the largest word. -/

namespace SlashingGuard

/-! ## Exact arithmetic -/

namespace Word

/-- The word for an integer, if there is one. -/
def ofInt? (n : Int) : Option UInt64 :=
  if 0 ≤ n ∧ n < 2 ^ 64 then some (UInt64.ofNat n.toNat) else none

/-- Division, unless by zero. -/
def div? (a b : UInt64) : Option UInt64 :=
  if b = 0 then none else ofInt? (a.toNat / b.toNat)

theorem ofInt?_eq_some {n : Int} {a : UInt64} (h : (a.toNat : Int) = n) : ofInt? n = some a := by
  have bound := a.toNat_lt
  have inside : 0 ≤ n ∧ n < 2 ^ 64 := by omega
  have same : n.toNat = a.toNat := by omega
  rw [ofInt?, if_pos inside, same, UInt64.ofNat_toNat]

theorem div?_eq_some {a b : UInt64} (positive : b ≠ 0) : div? a b = some (a / b) := by
  rw [div?, if_neg positive]
  apply ofInt?_eq_some
  rw [UInt64.toNat_div]
  omega

end Word

/-- The pruning point with each step taken exactly; none if a step does not give a word. -/
def pruningPoint? (keep newest : UInt64) : Option UInt64 :=
  if newest < keep then some 0 else do
    let behind ← Word.ofInt? ((newest.toNat : Int) - keep.toNat)
    Word.ofInt? (behind.toNat + 1)

/-- Where anything is kept, all steps give words. -/
theorem pruningPoint?_eq_some {keep : UInt64} (positive : keep ≠ 0) (newest : UInt64) :
    pruningPoint? keep newest = some (pruningPoint keep newest) := by
  have point := toNat_pruningPoint positive newest
  have positive : keep.toNat ≠ 0 := fun zero => positive (UInt64.toNat_inj.1 zero)
  unfold pruningPoint?
  split
  · next behind => rw [pruningPoint, if_pos behind]
  · next reached =>
    have le : keep ≤ newest := UInt64.not_lt.1 reached
    have le' := UInt64.le_iff_toNat_le.1 le
    have difference : ((newest - keep).toNat : Int) = newest.toNat - keep.toNat := by
      rw [UInt64.toNat_sub_of_le _ _ le]
      omega
    have last : Word.ofInt? ((newest - keep).toNat + 1) = some (pruningPoint keep newest) := by
      apply Word.ofInt?_eq_some
      omega
    rw [Word.ofInt?_eq_some difference, Option.bind_eq_bind, Option.bind_some, last]

/-- With a window of zero the last step fails. -/
example : pruningPoint? 0 18446744073709551615 = none := by cbv

theorem toNat_slotsKept (e p : UInt64) :
    (slotsKept e p).toNat = max (e.toNat / p.toNat) 1 := by
  rw [slotsKept, UInt64.toNat_max, UInt64.toNat_div]
  rfl

theorem Floor.raised_eq_max (f candidate : UInt64) :
    Floor.raised (some f) candidate = max candidate f := by
  apply UInt64.toNat_inj.1
  rw [UInt64.toNat_max]
  by_cases lt : f < candidate
  · have below := UInt64.lt_iff_toNat_lt.1 lt
    simp only [raised, if_pos lt]
    omega
  · have notBelow := UInt64.lt_iff_toNat_lt.not.1 lt
    simp only [raised, if_neg lt]
    omega

/-! ## One kind -/

/-- What a prune that keeps `keep` numbers of a kind makes of the ledger `t`: it leaves `left` and
    reports the floor and the number of records removed. -/
structure Table.PrunedBack (t left : Table Bytes) (id : ValidatorId) (kind : DutyKind) (keep : Nat)
    (floor : Option UInt64) (removed : Nat) : Prop where
  /-- Without a record or without a floor, records and floors stay as they are. -/
  nothing : (t.account id).recorded kind = ∅ ∨ (t.account id).floorOf kind = none →
    floor = none ∧ removed = 0 ∧
      (∀ n, left.get? (Place.record kind id n).bytes = t.get? (Place.record kind id n).bytes) ∧
      left.get? (Place.floor id kind).bytes = t.get? (Place.floor id kind).bytes
  /-- Otherwise the floor is measured back from the newest record, and what is below it goes. -/
  trimmed : ∀ old, ((t.account id).recorded kind).Nonempty →
    (t.account id).floorOf kind = some old → ∃ newest new : UInt64,
      IsGreatest ((t.account id).recorded kind) newest ∧
      (new.toNat : Int) = max (old.toNat : Int) (max 0 ((newest.toNat : Int) - keep + 1)) ∧
      floor = some new ∧ (left.account id).floorOf kind = some new ∧
      ∀ n, left.get? (Place.record kind id n).bytes =
        if new ≤ n then t.get? (Place.record kind id n).bytes else none
  /-- What is reported is missing, and fits into a word. -/
  counted : left.recordsOf kind id + removed = t.recordsOf kind id
  small : removed < 2 ^ 64

namespace Table

variable {t : Table Bytes} {id : ValidatorId} {kind : DutyKind} {place : Place}
  {keep m e p : UInt64}

theorem get?_pruneHalf_record (marked : t.mark id kind keep = some m) (n : UInt64) :
    (t.pruneHalf id kind keep).get? (Place.record kind id n).bytes =
      if m ≤ n then t.get? (Place.record kind id n).bytes else none := by
  have notFloor := Place.record_ne_floor kind kind id id n
  have below : isBelow kind.family id m (Place.record kind id n).bytes ↔ ¬ m ≤ n := by
    rw [isBelow_record_iff, UInt64.not_le]
    constructor
    · rintro ⟨n', lt, same⟩
      cases kind <;> cases same <;> exact lt
    · intro lt
      exact ⟨n, lt, rfl⟩
  rw [pruneHalf_of_some marked, trim, dropRecords, get?_dropBelow]
  by_cases kept : m ≤ n
  · rw [if_pos kept, if_neg (by simpa [below] using kept), get?_raiseFloor_of_ne notFloor]
  · rw [if_neg kept, if_pos (below.2 kept)]

/-- Of the two halves of a prune, that of the other kind does not count. -/
theorem pruned_eq_pruneHalf (legible : t.Legible) (id : ValidatorId) (e p : UInt64)
    (kind : DutyKind) : ∃ other keep, other ≠ kind ∧ t.pruned id e p =
      (t.pruneHalf id kind (pruneWindow e p kind)).pruneHalf id other keep := by
  have ne : DutyKind.block ≠ .attestation := nofun
  cases kind with
  | block => exact ⟨.attestation, e, ne.symm, rfl⟩
  | attestation => exact ⟨.block, slotsKept e p, ne, (pruneHalf_comm legible ne).symm⟩

theorem get?_pruned_of_lock (legible : t.Legible) (lock : place.lock? = some (id, kind)) :
    (t.pruned id e p).get? place.bytes =
      (t.pruneHalf id kind (pruneWindow e p kind)).get? place.bytes := by
  obtain ⟨other, keep, ne, same⟩ := pruned_eq_pruneHalf legible id e p kind
  rw [same]
  apply get?_pruneHalf_of_lock_ne
  rw [lock]
  simpa using ne.symm

theorem floorOf_pruned (legible : t.Legible) :
    ((t.pruned id e p).account id).floorOf kind =
      ((t.pruneHalf id kind (pruneWindow e p kind)).account id).floorOf kind := by
  obtain ⟨other, keep, ne, same⟩ := pruned_eq_pruneHalf legible id e p kind
  rw [same]
  exact floorOf_pruneHalf_of_ne ne.symm

theorem mark_eq_none_of (legible : t.Legible)
    (h : (t.account id).recorded kind = ∅ ∨ (t.account id).floorOf kind = none) :
    t.mark id kind keep = none := by
  apply Option.eq_none_iff_forall_ne_some.2
  intro m marked
  obtain ⟨newest, floor, greatest, hf, -⟩ := (mark_eq_some_iff legible).1 marked
  rcases h with empty | none
  · exact (Set.eq_empty_iff_forall_notMem.1 empty) newest greatest.1
  · rw [none] at hf
    contradiction

/-- Each kind is pruned back by its own window. -/
theorem prunedBack_pruned (legible : t.Legible) (he : e ≠ 0) (id : ValidatorId) (p : UInt64)
    (kind : DutyKind) :
    t.PrunedBack (t.pruned id e p) id kind (pruneWindow e p kind).toNat
      ((t.outcome id e p).floor kind) ((t.outcome id e p).removed kind) where
  nothing h := by
    have unmarked : t.mark id kind (pruneWindow e p kind) = none := mark_eq_none_of legible h
    have same : ∀ place : Place, place.lock? = some (id, kind) →
        (t.pruned id e p).get? place.bytes = t.get? place.bytes := by
      intro place lock
      rw [get?_pruned_of_lock legible lock, pruneHalf_of_none unmarked]
    refine ⟨floor_outcome.trans unmarked, ?_, fun n => ?_, same _ rfl⟩
    · rw [removed_outcome, removed, unmarked]
    · exact same _ (Place.lock?_record kind id n)
  trimmed old there hf := by
    obtain ⟨n, recorded⟩ := there
    have positive := pruneWindow_ne_zero he p kind
    obtain ⟨new, marked, -⟩ := exists_mark legible recorded hf (pruneWindow e p kind)
    obtain ⟨newest, floor, greatest, hf', measured⟩ := (mark_eq_some_iff legible).1 marked
    obtain rfl : floor = old := Option.some.inj (hf'.symm.trans hf)
    refine ⟨newest, new, greatest, ?_, floor_outcome.trans marked, ?_, fun n => ?_⟩
    · have point := toNat_pruningPoint positive newest
      have both : new.toNat = max (pruningPoint (pruneWindow e p kind) newest).toNat
          floor.toNat := by rw [measured, UInt64.toNat_max]
      omega
    · have le : floor ≤ new := measured ▸ Word.le_max_right _ floor
      rw [floorOf_pruned legible, pruneHalf_of_some marked, floorOf_trim, hf,
        Floor.raised_of_le le]
    · rw [get?_pruned_of_lock legible (Place.lock?_record kind id n),
        get?_pruneHalf_record marked]
  counted := recordsOf_pruned legible id e p kind
  small := by
    rw [removed_outcome]
    exact removed_lt legible id kind _

/-- The source floor is raised with the target floor. -/
theorem sourceFloor_pruned (legible : t.Legible) (marked : t.mark id .attestation e = some m)
    {source : Epoch} (hs : (t.account id).sourceFloor = some source) :
    ((t.pruned id e p).account id).sourceFloor = some (max m source) := by
  have ne : DutyKind.block ≠ .attestation := nofun
  have raised : ((t.pruneHalf id .attestation e).account id).sourceFloor =
      some (max m source) := by
    rw [pruneHalf_of_some marked, trim, account_dropRecords, account_raiseFloor,
      ← Floor.raised_eq_max, ← hs]
    rfl
  rw [pruned, ← pruneHalf_comm legible ne]
  cases t' : (t.pruneHalf id .attestation e).mark id .block (slotsKept e p) with
  | none => rw [pruneHalf_of_none t', raised]
  | some slot =>
    rw [pruneHalf_of_some t', trim, account_dropRecords, account_raiseFloor]
    exact raised

end Table

/-! ## Both kinds -/

/-- What a prune of a validator with positive tunables makes of the ledger `t`, and reports. -/
structure Table.PrunedExactly (t left : Table Bytes) (id : ValidatorId) (e p : UInt64)
    (outcome : PruneOutcome) : Prop where
  validator : outcome.validator = id
  blocks : t.PrunedBack left id .block (max (e.toNat / p.toNat) 1) outcome.slot outcome.blocks
  attestations : t.PrunedBack left id .attestation e.toNat outcome.epoch outcome.attestations
  source : ∀ new source, outcome.epoch = some new → (t.account id).sourceFloor = some source →
    (left.account id).sourceFloor = some (max new source)
  /-- Nothing of other validators and nothing of the registry is changed. -/
  others : ∀ place : Place, place.owner? ≠ some id → left.get? place.bytes = t.get? place.bytes

theorem Table.prunedExactly {t : Table Bytes} (legible : t.Legible) {e : UInt64} (he : e ≠ 0)
    (id : ValidatorId) (p : UInt64) :
    t.PrunedExactly (t.pruned id e p) id e p (t.outcome id e p) where
  validator := rfl
  blocks := by
    have back := prunedBack_pruned legible he id p .block
    rwa [pruneWindow, toNat_slotsKept] at back
  attestations := prunedBack_pruned legible he id p .attestation
  source _ _ reported hs := sourceFloor_pruned legible reported hs
  others _ other := get?_pruned_of_owner_ne other

namespace Guard

open GuardWork

variable {c : Context} {t : Table Bytes} {id : ValidatorId} {e p : UInt64}

/-- On a regular ledger a prune of a validator with positive tunables succeeds, unless a call fails
    or a lock is held, and prunes it exactly; all arithmetic that it does gives words.  With a
    tunable that is zero it is refused, with nothing done and no call made. -/
theorem pruneValidator_exact (regular : t.Regular) (id : ValidatorId) (e p : UInt64)
    (c : Context) :
    (e ≠ 0 → p ≠ 0 → c.guard.Frees id →
      (∃ outcome c' left, (pruneValidator id e p).onTable c t = (.ok outcome, c', left) ∧
        c'.guard = c.guard ∧ t.PrunedExactly left id e p outcome) ∧
      Word.div? e p = some (e / p) ∧
      ∀ kind newest, pruningPoint? (pruneWindow e p kind) newest =
        some (pruningPoint (pruneWindow e p kind) newest)) ∧
    (e = 0 ∨ p = 0 → ∀ faults,
      (pruneValidator id e p).underFaults c faults t =
        (.error (.configuration (if e = 0 then .noEpochs else .noSlots)), c, t) ∧
      (pruneValidator id e p).exchanges c faults t = []) := by
  constructor
  · intro he hp free
    obtain ⟨c', guard, done⟩ := onTable_pruneValidator regular he hp free
    refine ⟨⟨_, c', _, done, guard, Table.prunedExactly regular.toLegible he id p⟩,
      Word.div?_eq_some hp, fun kind newest => ?_⟩
    exact pruningPoint?_eq_some (pruneWindow_ne_zero he p kind) newest
  · intro zero faults
    unfold underFaults GuardWork.exchanges
    rw [run_pruneValidator_refused c zero]
    exact ⟨rfl, rfl⟩

/-- Of two blocks and two votes a prune that keeps two slots and two epochs leaves the newer
    ones. -/
theorem pruneValidator_exact_signedTwice :
    signedTwice.Regular ∧ (2 : UInt64) ≠ 0 ∧ (1 : UInt64) ≠ 0 ∧
      ∃ outcome left, outcome = ⟨⟨1⟩, some 6, some 7, 1, 1⟩ ∧
        signedTwice.PrunedExactly left ⟨1⟩ 2 1 outcome := by
  have wf : votedTwice.WellFormed :=
    ((Table.WellFormed.empty.enroll ⟨[1]⟩ 1).recordVote rfl (by decide) _).recordVote rfl
      (by decide) _
  have regular : signedTwice.Regular :=
    ((wf.recordBlock rfl 4 ⟨[5]⟩).recordBlock rfl 7 ⟨[4]⟩).regular
  have free : Frees ⟨.standard, [], []⟩ ⟨1⟩ := nofun
  obtain ⟨⟨outcome, c', left, done, -, exact⟩, -⟩ :=
    (pruneValidator_exact regular ⟨1⟩ 2 1 ⟨⟨.standard, [], []⟩, .zero⟩).1 (by decide) (by decide)
      free
  have reported : ((pruneValidator ⟨1⟩ 2 1).onTable ⟨⟨.standard, [], []⟩, .zero⟩ signedTwice).1 =
      .ok ⟨⟨1⟩, some 6, some 7, 1, 1⟩ := by
    decide +kernel
  rw [done] at reported
  exact ⟨regular, by decide, by decide, outcome, left, Except.ok.inj reported, exact⟩

end Guard

end SlashingGuard
