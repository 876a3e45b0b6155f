import SlashingGuard.Proofs.Ledger.Change
import SlashingGuard.Proofs.Ledger.Decision
import SlashingGuard.Proofs.Ledger.Newest

/-! # Prunes on the ledger

    Half a prune raises the floors of one validator and commits, and then
    drops the records below them and commits.  Wherever a failing call cuts
    it, the ledger is one of three: as it was, with raised floors, or with
    raised floors and the records below them gone.  Each of the three is a
    thinned ledger: records are missing only below floors, and the newest record
    that was not below its floor is not one of them. -/

namespace SlashingGuard

/-! ## Thinned ledgers -/

namespace Table

variable {t t' t'' : Table Bytes}

/-- The ledger `t'` is `t` after prunes, whole or cut. -/
structure Thinned (t t' : Table Bytes) : Prop where
  registry : t'.registry = t.registry
  account : ∀ id, (t.account id).Pruned (t'.account id)
  newest : ∀ id, (t.account id).KeepsNewest (t'.account id)
  reaches : ∀ allowed, Reaches allowed t t'

namespace Thinned

theorem refl (t : Table Bytes) : t.Thinned t :=
  ⟨rfl, fun _ => .refl _, fun _ => .refl _, fun _ => .refl⟩

theorem trans (h : t.Thinned t') (h' : t'.Thinned t'') : t.Thinned t'' where
  registry := h'.registry.trans h.registry
  account id := (h.account id).trans (h'.account id)
  newest id := (h.newest id).trans (h'.newest id)
  reaches allowed := (h.reaches allowed).trans (h'.reaches allowed)

theorem wellFormed (h : t.Thinned t') (wf : t.WellFormed) : t'.WellFormed :=
  (h.reaches fun _ => True).wellFormed wf

theorem raiseSlot {id : ValidatorId} {slot : Slot} (registered : t.isRegistered id)
    (set : (t.account id).slotFloor.isSome)
    (le : ∀ n, (t.account id).NewestAt .block n → slot ≤ n) :
    t.Thinned (t.raiseSlot id slot) where
  registry := registry_raiseSlot t id slot
  account id' := by
    rw [account_raiseSlot]
    split
    · next h => rw [h]; exact .raiseSlot _ slot
    · exact .refl _
  newest id' := by
    rw [account_raiseSlot]
    split
    · next h => rw [h]; exact .raiseSlot set le
    · exact .refl _
  reaches _ := .single (.slotFloor slot registered)

theorem raiseEpochs {id : ValidatorId} {epoch : Epoch} (registered : t.isRegistered id)
    (set : (t.account id).targetFloor.isSome)
    (le : ∀ n, (t.account id).NewestAt .attestation n → epoch ≤ n) :
    t.Thinned (t.raiseEpochs id epoch epoch) where
  registry := registry_raiseEpochs t id epoch epoch
  account id' := by
    rw [account_raiseEpochs]
    split
    · next h => rw [h]; exact .raiseEpochs _ epoch epoch
    · exact .refl _
  newest id' := by
    rw [account_raiseEpochs]
    split
    · next h => rw [h]; exact .raiseEpochs set le
    · exact .refl _
  reaches _ := .single (.epochFloors epoch epoch registered)

theorem dropBlocks {id : ValidatorId} {bound floor : Slot}
    (hf : (t.account id).slotFloor = some floor) (le : bound ≤ floor) :
    t.Thinned (t.dropBlocks id bound) where
  registry := registry_dropBlocks t id bound
  account id' := by
    rw [account_dropBlocks]
    split
    · next h => rw [h]; exact .dropBlocks hf le
    · exact .refl _
  newest id' := by
    rw [account_dropBlocks]
    split
    · next h => rw [h]; exact .dropBlocks hf le
    · exact .refl _
  reaches _ := .single (.dropBlocks t id bound)

theorem dropVotes {id : ValidatorId} {bound source target : Epoch}
    (hf : (t.account id).epochFloors = some (source, target)) (hs : bound ≤ source)
    (ht : bound ≤ target) : t.Thinned (t.dropVotes id bound) where
  registry := registry_dropVotes t id bound
  account id' := by
    rw [account_dropVotes]
    split
    · next h => rw [h]; exact .dropVotes hf hs ht
    · exact .refl _
  newest id' := by
    have floor : (t.account id).targetFloor = some target := by rw [Account.targetFloor, hf]; rfl
    rw [account_dropVotes]
    split
    · next h => rw [h]; exact .dropVotes floor ht
    · exact .refl _
  reaches _ := .single (.dropVotes t id bound)

end Thinned

/-! ## Marks -/

/-- The floor that pruning blocks leaves, if there is anything to prune. -/
def slotMark (t : Table Bytes) (id : ValidatorId) (keep : UInt64) : Option Slot :=
  pruningMark keep (t.numbers .block id).getLast? (t.account id).slotFloor

/-- The target floor that pruning attestations leaves, if there is anything to prune. -/
def epochMark (t : Table Bytes) (id : ValidatorId) (keep : UInt64) : Option Epoch :=
  pruningMark keep (t.numbers .attestation id).getLast? (t.account id).targetFloor

/-- A record is there if its key is: what stands there can be read. -/
theorem mem_recorded_iff (legible : t.Legible) {kind : DutyKind} {id : ValidatorId} {n : UInt64} :
    n ∈ (t.account id).recorded kind ↔ (t.get? (Place.record kind id n).bytes).isSome := by
  cases kind with
  | block =>
    show (t.readAt (.block id n) _).isSome ↔ (t.get? (Place.block id n).bytes).isSome
    cases found : t.get? (Place.block id n).bytes <;> simp [readAt, found, Except.toOption]
  | attestation =>
    show (t.readAt (.attestation id n) _).isSome ↔ (t.get? (Place.attestation id n).bytes).isSome
    cases found : t.get? (Place.attestation id n).bytes with
    | none => simp [readAt, found]
    | some value =>
      obtain ⟨source, root, read⟩ := legible.reads (.attestation id n) found
      simp [readAt, found, read, Except.toOption]

/-- The numbers of keys are those of records. -/
theorem mem_numbers (legible : t.Legible) {kind : DutyKind} {id : ValidatorId} {n : UInt64} :
    n ∈ t.numbers kind.family id ↔ n ∈ (t.account id).recorded kind := by
  rw [mem_recorded_iff legible, numbers, List.mem_filterMap, Place.bytes_record]
  constructor
  · rintro ⟨entry, member, read⟩
    obtain ⟨m, key⟩ := legible.indexed_records kind id entry member
    rw [key, LedgerKey.readIndex_indexed] at read
    obtain rfl : m = n := by simpa [Except.toOption] using read
    rw [← key, (mem_scan.1 member).1]
    rfl
  · intro there
    obtain ⟨value, found⟩ := Option.isSome_iff_exists.1 there
    refine ⟨(kind.family.indexed id n, value), mem_scan.2 ⟨found, ?_⟩, ?_⟩
    · rw [← Place.bytes_record]
      exact Place.record_scope_isPrefixOf.2 ⟨n, rfl⟩
    · rw [LedgerKey.readIndex_indexed]
      rfl

/-- The keys of a scan ascend, and so do their numbers. -/
theorem ascending_numbers (legible : t.Legible) (kind : DutyKind) (id : ValidatorId) :
    (t.numbers kind.family id).Pairwise (· < ·) := by
  rw [numbers, List.pairwise_filterMap]
  refine (ascending_scan t (kind.family.scope id)).imp_of_mem ?_
  intro a b ha hb lt m hm n hn
  obtain ⟨i, keyA⟩ := legible.indexed_records kind id a ha
  obtain ⟨j, keyB⟩ := legible.indexed_records kind id b hb
  rw [keyA, LedgerKey.readIndex_indexed] at hm
  rw [keyB, LedgerKey.readIndex_indexed] at hn
  obtain rfl : i = m := by simpa [Except.toOption] using hm
  obtain rfl : j = n := by simpa [Except.toOption] using hn
  rw [keyA, keyB] at lt
  exact LedgerKey.indexed_lt_indexed.1 lt

/-- How many keys of a validator in a family have numbers below a bound. -/
def countBelow (t : Table Bytes) (family : KeyFamily) (id : ValidatorId) (bound : UInt64) : Nat :=
  ((t.scan (family.scope id)).filter fun entry => entry.1 < family.indexed id bound).length

end Table

/-! ### The greater and the smaller of two words -/

namespace Word

variable {a b : UInt64}

theorem le_max_left (a b : UInt64) : a ≤ max a b := by
  rw [UInt64.le_iff_toNat_le, UInt64.toNat_max]
  exact Nat.le_max_left _ _

theorem le_max_right (a b : UInt64) : b ≤ max a b := by
  rw [UInt64.le_iff_toNat_le, UInt64.toNat_max]
  exact Nat.le_max_right _ _

theorem max_eq_right (h : a ≤ b) : max a b = b := by
  rw [UInt64.max_def, if_pos h]

theorem min_comm (a b : UInt64) : min a b = min b a := by
  apply UInt64.toNat_inj.1
  rw [UInt64.toNat_min, UInt64.toNat_min, Nat.min_comm]

theorem min_self (a : UInt64) : min a a = a := by
  rw [UInt64.min_def, if_pos (UInt64.le_refl a)]

theorem min_ne_zero (ha : a ≠ 0) (hb : b ≠ 0) : min a b ≠ 0 := by
  rw [UInt64.min_def]
  split
  · exact ha
  · exact hb

end Word

/-! ### Where marks lie -/

/-- There is a mark only if there is a floor, and it does not lie below it. -/
theorem le_of_pruningMark {keep mark : UInt64} {newest : Option UInt64} {floor : Floor}
    (h : pruningMark keep newest floor = some mark) : ∃ f, floor = some f ∧ f ≤ mark := by
  match newest, floor, h with
  | some newest, some f, h =>
    obtain rfl := Option.some.inj h
    exact ⟨f, rfl, Word.le_max_right _ f⟩

/-- Whatever the tunables are, a slot is kept. -/
theorem slotsKept_ne_zero (epochsToKeep slotsPerEpoch : UInt64) :
    slotsKept epochsToKeep slotsPerEpoch ≠ 0 := by
  intro zero
  have one : 1 ≤ slotsKept epochsToKeep slotsPerEpoch := Word.le_max_right _ 1
  rw [zero] at one
  contradiction

/-- The records kept, counted back from the newest, are as many as there are up to zero. -/
theorem toNat_pruningPoint {keep : UInt64} (positive : keep ≠ 0) (newest : UInt64) :
    (pruningPoint keep newest).toNat = newest.toNat + 1 - keep.toNat := by
  have positive : keep.toNat ≠ 0 := fun zero => positive (UInt64.toNat_inj.1 zero)
  unfold pruningPoint
  split
  · next lt =>
    rw [UInt64.lt_iff_toNat_lt] at lt
    simp
    omega
  · next notLt =>
    rw [UInt64.lt_iff_toNat_lt] at notLt
    have le : keep ≤ newest := UInt64.le_iff_toNat_le.2 (by omega)
    have := newest.toNat_lt
    rw [UInt64.toNat_add, UInt64.toNat_sub_of_le _ _ le]
    simp
    omega

/-- What keeps anything starts to keep no later than at the newest. -/
theorem pruningPoint_le {keep : UInt64} (positive : keep ≠ 0) (newest : UInt64) :
    pruningPoint keep newest ≤ newest := by
  rw [UInt64.le_iff_toNat_le, toNat_pruningPoint positive]
  have positive : keep.toNat ≠ 0 := fun zero => positive (UInt64.toNat_inj.1 zero)
  omega

/-- A mark does not pass what bounds the floor and the newest record. -/
theorem pruningMark_le {keep mark bound : UInt64} (positive : keep ≠ 0) {newest : Option UInt64}
    {floor : Floor} (h : pruningMark keep newest floor = some mark)
    (hn : ∀ n, newest = some n → n ≤ bound) (hf : ∀ f, floor = some f → f ≤ bound) :
    mark ≤ bound := by
  match newest, floor, h with
  | some newest, some f, h =>
    obtain rfl := Option.some.inj h
    simp only [Max.max]
    split
    · exact hf f rfl
    · exact UInt64.le_trans (pruningPoint_le positive newest) (hn newest rfl)

/-- A floor that is not above a candidate is raised to it. -/
theorem Floor.raised_of_le {f candidate : UInt64} (h : f ≤ candidate) :
    Floor.raised (some f) candidate = candidate := by
  simp only [raised]
  split
  · rfl
  · next notLt => exact UInt64.le_antisymm h (UInt64.not_lt.1 notLt)

namespace Ledger

open Transaction

variable {faulty : Prop} {t : Table Bytes} {id : ValidatorId} {keep : UInt64}

/-! ## Halves of a prune -/

/-- The two commits of half a prune, with whatever they do to the ledger. -/
theorem always_pruneBelow {raise : Transaction (Option UInt64)}
    {delete : UInt64 → Transaction Nat}
    {Q : Except LedgerError (Option UInt64 × Nat) → Table Bytes → Prop}
    (h : raise.Always faulty t
      (fun mark raised => match mark with
        | none => Q (.ok (none, 0)) t
        | some mark => (delete mark).Always faulty raised
            (fun count left => Q (.ok (some mark, count)) left) (fun e _ => Q (.error e) raised) ∧
          (faulty → ∀ x, Q (.error (.store x)) raised))
      fun e _ => Q (.error e) t)
    (fault : faulty → ∀ x, Q (.error (.store x)) t) :
    (pruneBelow raise delete).run.Always faulty t Q := by
  unfold pruneBelow
  rw [LedgerWork.always_bind]
  refine LedgerWork.always_atomically (h.mono (fun mark raised post => ?_) fun _ _ post => post)
  cases mark with
  | none => exact post
  | some mark =>
    -- The floors are committed here; what fails from now on fails on the raised ledger.
    obtain ⟨deleted, cut⟩ := post
    refine ⟨?_, fault⟩
    refine LedgerWork.always_bind.2 (LedgerWork.always_atomically ?_)
    exact deleted.mono (fun count left done => ⟨done, cut⟩) fun _ _ error => error

theorem always_pruneBlocks (regular : t.Regular)
    {Q : Except LedgerError (Option Slot × Nat) → Table Bytes → Prop}
    (nothing : t.slotMark id keep = none → Q (.ok (none, 0)) t)
    (done : ∀ mark, t.slotMark id keep = some mark →
      Q (.ok (some mark, (t.raiseSlot id mark).countBelow .block id mark))
        ((t.raiseSlot id mark).dropBlocks id mark))
    (fault : faulty → ∀ x, Q (.error (.store x)) t)
    (late : faulty → ∀ x mark, t.slotMark id keep = some mark →
      Q (.error (.store x)) (t.raiseSlot id mark)) :
    (pruneBlocks id keep).run.Always faulty t Q := by
  refine always_pruneBelow ?_ fault
  unfold raiseForBlocks
  refine Always.query_bind (yields_watermark? regular.toLegible id) fault ?_
  refine Always.query_bind (yields_newestSlot? regular.toLegible id) fault ?_
  simp only [Account.row?_bind_slot]
  cases marked : pruningMark keep (t.numbers .block id).getLast? (t.account id).slotFloor with
  | none => exact always_pure (nothing marked)
  | some mark =>
    obtain ⟨floor, hf, le⟩ := le_of_pruningMark marked
    have registered := regular.registered_of_slotFloor hf
    refine Always.bind (always_raiseSlotFloor regular.toLegible (fun gone => ?_)
      (fun _ row hrow => ?_) fault fun f x _ => fault f x)
    · rw [registered] at gone; contradiction
    · rw [hf, Floor.raised_of_le le] at hrow
      rw [hrow, Option.getD_some]
      have legible := regular.toLegible.raiseSlot id mark
      exact always_pure ⟨always_deleteBelow (legible.indexed_records .block id) .block mark
        (done mark marked) (late · · mark marked), (late · · mark marked)⟩

theorem always_pruneAttestations (regular : t.Regular)
    {Q : Except LedgerError (Option Epoch × Nat) → Table Bytes → Prop}
    (nothing : t.epochMark id keep = none → Q (.ok (none, 0)) t)
    (done : ∀ mark, t.epochMark id keep = some mark →
      Q (.ok (some mark, (t.raiseEpochs id mark mark).countBelow .attestation id mark))
        ((t.raiseEpochs id mark mark).dropVotes id mark))
    (fault : faulty → ∀ x, Q (.error (.store x)) t)
    (late : faulty → ∀ x mark, t.epochMark id keep = some mark →
      Q (.error (.store x)) (t.raiseEpochs id mark mark)) :
    (pruneAttestations id keep).run.Always faulty t Q := by
  refine always_pruneBelow ?_ fault
  unfold raiseForAttestations
  refine Always.query_bind (yields_watermark? regular.toLegible id) fault ?_
  refine Always.query_bind (yields_newestTarget? regular.toLegible id) fault ?_
  simp only [Account.row?_bind_target]
  cases marked :
    pruningMark keep (t.numbers .attestation id).getLast? (t.account id).targetFloor with
  | none => exact always_pure (nothing marked)
  | some mark =>
    obtain ⟨floor, hf, le⟩ := le_of_pruningMark marked
    have registered := regular.registered_of_targetFloor hf
    refine Always.bind (always_raiseEpochFloors regular.toLegible (fun gone => ?_)
      (fun _ row hrow => ?_) fault fun f x _ => fault f x)
    · rw [registered] at gone; contradiction
    · rw [hf, Floor.raised_of_le le] at hrow
      rw [hrow, Option.getD_some]
      have legible := regular.toLegible.raiseEpochs id mark mark
      exact always_pure ⟨always_deleteBelow (legible.indexed_records .attestation id) .attestation mark
        (done mark marked) (late · · mark marked), (late · · mark marked)⟩

/-! ## Wherever a prune is cut -/

/-- A prune that keeps anything raises the slot floor to no more than the newest block. -/
theorem thinned_slotMark (wf : t.WellFormed) (positive : keep ≠ 0) {mark : Slot}
    (marked : t.slotMark id keep = some mark) : t.Thinned (t.raiseSlot id mark) := by
  obtain ⟨floor, hf, -⟩ := le_of_pruningMark marked
  apply Table.Thinned.raiseSlot (wf.regular.registered_of_slotFloor hf) (by rw [hf]; rfl)
  intro n newest
  refine pruningMark_le positive marked (fun m last => ?_) newest.floor_le
  have there : m ∈ (t.account id).recorded .block :=
    (Table.mem_numbers wf.legible).1 (List.mem_of_getLast? last)
  exact newest.greatest.2 there

theorem thinned_epochMark (wf : t.WellFormed) (positive : keep ≠ 0) {mark : Epoch}
    (marked : t.epochMark id keep = some mark) : t.Thinned (t.raiseEpochs id mark mark) := by
  obtain ⟨floor, hf, -⟩ := le_of_pruningMark marked
  apply Table.Thinned.raiseEpochs (wf.regular.registered_of_targetFloor hf) (by rw [hf]; rfl)
  intro n newest
  refine pruningMark_le positive marked (fun m last => ?_) newest.floor_le
  have there : m ∈ (t.account id).recorded .attestation :=
    (Table.mem_numbers wf.legible).1 (List.mem_of_getLast? last)
  exact newest.greatest.2 there

theorem thinned_pruneBlocks (wf : t.WellFormed) (id : ValidatorId) (positive : keep ≠ 0) :
    (pruneBlocks id keep).run.Always faulty t fun _ t' => t.Thinned t' := by
  refine always_pruneBlocks wf.regular (fun _ => .refl t) (fun mark marked => ?_)
    (fun _ _ => .refl t) fun _ _ mark marked => thinned_slotMark wf positive marked
  have floor : ((t.raiseSlot id mark).account id).slotFloor =
      some (Floor.raised (t.account id).slotFloor mark) := by simp
  exact (thinned_slotMark wf positive marked).trans
    (.dropBlocks floor (Floor.candidate_le_raised _ mark))

/-- Both epoch floors are raised to the mark before a vote below it goes. -/
theorem thinned_pruneAttestations (wf : t.WellFormed) (id : ValidatorId) (positive : keep ≠ 0) :
    (pruneAttestations id keep).run.Always faulty t fun _ t' => t.Thinned t' := by
  refine always_pruneAttestations wf.regular (fun _ => .refl t) (fun mark marked => ?_)
    (fun _ _ => .refl t) fun _ _ mark marked => thinned_epochMark wf positive marked
  have floors : ((t.raiseEpochs id mark mark).account id).epochFloors =
      some (Floor.raised (t.account id).sourceFloor mark,
        Floor.raised (t.account id).targetFloor mark) := by simp
  exact (thinned_epochMark wf positive marked).trans (.dropVotes floors
    (Floor.candidate_le_raised _ mark) (Floor.candidate_le_raised _ mark))

end Ledger

end SlashingGuard
