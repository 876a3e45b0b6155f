import SlashingGuard.Proofs.Ledger.Trimming

/-! # The algebra of prunes

    Half a prune is a function on ledgers: it finds a mark, raises the floor
    of one duty kind to it, and drops the records of that kind below it.  A
    second half of the same kind finds the newest record where it was, or
    finds no record at all; so two halves make one with the smaller window.
    Halves of the two kinds touch different keys and commute. -/

namespace SlashingGuard

/-! ## Windows -/

section Windows

variable {keep keep' : UInt64}

/-- Above a floor, the smaller of two windows starts where the later of them starts. -/
theorem pruningPoint_min (positive : keep ≠ 0) (positive' : keep' ≠ 0) (newest floor : UInt64) :
    max (pruningPoint (min keep keep') newest) floor =
      max (pruningPoint keep' newest) (max (pruningPoint keep newest) floor) := by
  apply UInt64.toNat_inj.1
  simp only [UInt64.toNat_max, UInt64.toNat_min, toNat_pruningPoint positive,
    toNat_pruningPoint positive', toNat_pruningPoint (Word.min_ne_zero positive positive')]
  omega

/-- The smaller number of epochs has the smaller window of slots. -/
theorem slotsKept_min (e e' p : UInt64) :
    slotsKept (min e e') p = min (slotsKept e p) (slotsKept e' p) := by
  apply UInt64.toNat_inj.1
  simp only [slotsKept, UInt64.toNat_max, UInt64.toNat_min, UInt64.toNat_div]
  rcases Nat.le_total e.toNat e'.toNat with le | le
  · have quotients := Nat.div_le_div_right le (c := p.toNat)
    rw [Nat.min_eq_left le]
    omega
  · have quotients := Nat.div_le_div_right le (c := p.toNat)
    rw [Nat.min_eq_right le]
    omega

end Windows

namespace Table

variable {t : Table Bytes} {id : ValidatorId} {kind kind' : DutyKind} {m bound : UInt64}

/-! ## Marks -/

/-- The floor that half a prune leaves, if there is anything to prune. -/
def mark (t : Table Bytes) (id : ValidatorId) (kind : DutyKind) (keep : UInt64) : Option UInt64 :=
  pruningMark keep (t.numbers kind.family id).getLast? ((t.account id).floorOf kind)

/-- The last number is that of the newest record. -/
theorem getLast?_numbers (legible : t.Legible) {n : UInt64} :
    (t.numbers kind.family id).getLast? = some n ↔
      IsGreatest ((t.account id).recorded kind) n := by
  have ascending := ascending_numbers legible kind id
  -- The last number is recorded, and all others come before it.
  have greatest : ∀ m, (t.numbers kind.family id).getLast? = some m →
      IsGreatest ((t.account id).recorded kind) m := by
    intro m last
    refine ⟨(mem_numbers legible).1 (List.mem_of_getLast? last), fun i hi => ?_⟩
    obtain ⟨front, split⟩ := List.getLast?_eq_some_iff.1 last
    have member := (mem_numbers legible).2 hi
    rw [split] at member ascending
    rcases List.mem_append.1 member with before | here
    · exact UInt64.le_of_lt ((List.pairwise_append.1 ascending).2.2 i before m List.mem_cons_self)
    · rw [List.mem_singleton.1 here]
      exact UInt64.le_refl m
  constructor
  · exact greatest n
  · intro newest
    cases last : (t.numbers kind.family id).getLast? with
    | none =>
      have none := (mem_numbers legible).2 newest.1
      rw [List.getLast?_eq_none_iff.1 last] at none
      contradiction
    | some m =>
      have upper := greatest m last
      exact congrArg some (UInt64.le_antisymm (newest.2 upper.1) (upper.2 newest.1))

theorem mark_eq_some_iff (legible : t.Legible) {keep : UInt64} :
    t.mark id kind keep = some m ↔ ∃ newest floor,
      IsGreatest ((t.account id).recorded kind) newest ∧
        (t.account id).floorOf kind = some floor ∧ m = max (pruningPoint keep newest) floor := by
  constructor
  · intro marked
    unfold mark at marked
    cases last : (t.numbers kind.family id).getLast? with
    | none =>
      rw [last] at marked
      contradiction
    | some newest =>
      obtain ⟨floor, hf, -⟩ := le_of_pruningMark marked
      rw [last, hf] at marked
      exact ⟨newest, floor, (getLast?_numbers legible).1 last, hf, (Option.some.inj marked).symm⟩
  · rintro ⟨newest, floor, greatest, hf, rfl⟩
    rw [mark, (getLast?_numbers legible).2 greatest, hf]
    rfl

/-- A mark depends on the records and the floor of its kind alone. -/
theorem mark_congr {u : Table Bytes} (legible : t.Legible) (legible' : u.Legible)
    (recorded : (u.account id).recorded kind = (t.account id).recorded kind)
    (floor : (u.account id).floorOf kind = (t.account id).floorOf kind) (keep : UInt64) :
    u.mark id kind keep = t.mark id kind keep := by
  apply Option.ext
  intro n
  rw [mark_eq_some_iff legible', mark_eq_some_iff legible, recorded, floor]

/-- Whether there is anything to prune does not depend on how much is kept. -/
theorem mark_eq_none {keep : UInt64} (h : t.mark id kind keep = none) (keep' : UInt64) :
    t.mark id kind keep' = none := by
  unfold mark at h ⊢
  cases last : (t.numbers kind.family id).getLast? with
  | none => rfl
  | some newest =>
    cases hf : (t.account id).floorOf kind with
    | none => rfl
    | some floor =>
      rw [last, hf] at h
      contradiction

/-! ### Marks on a changed ledger -/

@[simp] theorem recorded_trim :
    ((t.trim id kind m).account id).recorded kind =
      {n ∈ (t.account id).recorded kind | m ≤ n} := by
  simp [trim]

@[simp] theorem floorOf_trim :
    ((t.trim id kind m).account id).floorOf kind =
      some (((t.account id).floorOf kind).raised m) := by
  simp [trim]

theorem Legible.trim (legible : t.Legible) (id : ValidatorId) (kind : DutyKind) (m : UInt64) :
    (t.trim id kind m).Legible :=
  (legible.raiseFloor id kind m).dropRecords id kind m

/-- Where the newest record stays, a mark is measured from it again. -/
theorem mark_trim_of_le (legible : t.Legible) {newest floor keep : UInt64}
    (greatest : IsGreatest ((t.account id).recorded kind) newest)
    (hf : (t.account id).floorOf kind = some floor) (le : floor ≤ m) (stays : m ≤ newest) :
    (t.trim id kind m).mark id kind keep = some (max (pruningPoint keep newest) m) := by
  refine (mark_eq_some_iff (legible.trim id kind m)).2 ⟨newest, m, ?_, ?_, rfl⟩
  · rw [recorded_trim]
    exact ⟨⟨greatest.1, stays⟩, fun n hn => greatest.2 hn.1⟩
  · rw [floorOf_trim, hf, Floor.raised_of_le le]

/-- Where it goes, all go, and nothing is left to prune. -/
theorem mark_trim_of_lt (legible : t.Legible) {newest : UInt64}
    (greatest : IsGreatest ((t.account id).recorded kind) newest) (goes : newest < m)
    (keep : UInt64) : (t.trim id kind m).mark id kind keep = none := by
  apply Option.eq_none_iff_forall_ne_some.2
  intro mark marked
  obtain ⟨left, -, there, -⟩ := (mark_eq_some_iff (legible.trim id kind m)).1 marked
  rw [recorded_trim] at there
  have above : m ≤ newest := UInt64.le_trans there.1.2 (greatest.2 there.1.1)
  exact UInt64.not_le.2 goes above

/-- A floor that was raised to a mark is the mark again. -/
theorem mark_raiseFloor (legible : t.Legible) {keep : UInt64}
    (marked : t.mark id kind keep = some m) :
    (t.raiseFloor id kind m).mark id kind keep = some m := by
  obtain ⟨newest, floor, greatest, hf, rfl⟩ := (mark_eq_some_iff legible).1 marked
  refine (mark_eq_some_iff (legible.raiseFloor id kind _)).2
    ⟨newest, max (pruningPoint keep newest) floor, ?_, ?_, ?_⟩
  · simpa using greatest
  · rw [account_raiseFloor, Account.floorOf_raiseFloor, hf,
      Floor.raised_of_le (Word.le_max_right _ _)]
  · exact (Word.max_eq_right (Word.le_max_left _ _)).symm

theorem mark_raiseFloor_of_ne (legible : t.Legible) (ne : kind ≠ kind') (keep : UInt64) :
    (t.raiseFloor id kind' m).mark id kind keep = t.mark id kind keep := by
  apply mark_congr legible (legible.raiseFloor id kind' m)
  · simp
  · rw [account_raiseFloor, Account.floorOf_raiseFloor_of_ne ne]

theorem mark_dropRecords_of_ne (legible : t.Legible) (ne : kind ≠ kind') (keep : UInt64) :
    (t.dropRecords id kind' bound).mark id kind keep = t.mark id kind keep := by
  apply mark_congr legible (legible.dropRecords id kind' bound)
  · rw [account_dropRecords, Account.recorded_dropRecords_of_ne ne]
  · simp

/-! ## Halves -/

/-- What half a prune leaves of a ledger. -/
def pruneHalf (t : Table Bytes) (id : ValidatorId) (kind : DutyKind) (keep : UInt64) :
    Table Bytes :=
  match t.mark id kind keep with
  | none => t
  | some m => t.trim id kind m

theorem pruneHalf_of_none {keep : UInt64} (h : t.mark id kind keep = none) :
    t.pruneHalf id kind keep = t := by
  rw [pruneHalf, h]

theorem pruneHalf_of_some {keep : UInt64} (h : t.mark id kind keep = some m) :
    t.pruneHalf id kind keep = t.trim id kind m := by
  rw [pruneHalf, h]

theorem Legible.pruneHalf (legible : t.Legible) (id : ValidatorId) (kind : DutyKind)
    (keep : UInt64) : (t.pruneHalf id kind keep).Legible := by
  unfold Table.pruneHalf
  split
  · exact legible
  · exact legible.trim id kind _

section Laws

variable {keep keep' : UInt64}

/-- Two halves of one kind are one half with the smaller window. -/
theorem pruneHalf_pruneHalf (legible : t.Legible) (positive : keep ≠ 0) (positive' : keep' ≠ 0) :
    (t.pruneHalf id kind keep).pruneHalf id kind keep' = t.pruneHalf id kind (min keep keep') := by
  cases marked : t.mark id kind keep with
  | none =>
    rw [pruneHalf_of_none marked, pruneHalf_of_none (mark_eq_none marked _),
      pruneHalf_of_none (mark_eq_none marked _)]
  | some m =>
    obtain ⟨newest, floor, greatest, hf, first⟩ := (mark_eq_some_iff legible).1 marked
    have once : t.mark id kind (min keep keep') = some (max (pruningPoint keep' newest) m) := by
      refine (mark_eq_some_iff legible).2 ⟨newest, floor, greatest, hf, ?_⟩
      rw [pruningPoint_min positive positive', first]
    rw [pruneHalf_of_some marked, pruneHalf_of_some once]
    by_cases stays : m ≤ newest
    · have le : floor ≤ m := first ▸ Word.le_max_right _ _
      rw [pruneHalf_of_some (mark_trim_of_le legible greatest hf le stays),
        trim_trim t id kind (Word.le_max_right _ _)]
    · have goes : newest < m := UInt64.not_le.1 stays
      have le := UInt64.le_trans (pruningPoint_le positive' newest) (UInt64.le_of_lt goes)
      have same : max (pruningPoint keep' newest) m = m := Word.max_eq_right le
      rw [pruneHalf_of_none (mark_trim_of_lt legible greatest goes keep'), same]

/-- Raised floors of one kind are there before or after half a prune of the other. -/
theorem pruneHalf_raiseFloor_of_ne (legible : t.Legible) (ne : kind ≠ kind') (m : UInt64) :
    (t.raiseFloor id kind' m).pruneHalf id kind keep =
      (t.pruneHalf id kind keep).raiseFloor id kind' m := by
  unfold pruneHalf
  rw [mark_raiseFloor_of_ne legible ne]
  cases t.mark id kind keep with
  | none => rfl
  | some mark => exact trim_raiseFloor_of_ne t id ne mark m

theorem pruneHalf_dropRecords_of_ne (legible : t.Legible) (ne : kind ≠ kind') (bound : UInt64) :
    (t.dropRecords id kind' bound).pruneHalf id kind keep =
      (t.pruneHalf id kind keep).dropRecords id kind' bound := by
  unfold pruneHalf
  rw [mark_dropRecords_of_ne legible ne]
  cases t.mark id kind keep with
  | none => rfl
  | some mark => exact trim_dropRecords_of_ne t id kind kind' mark bound

theorem mark_pruneHalf_of_ne (legible : t.Legible) (ne : kind ≠ kind') :
    (t.pruneHalf id kind' keep').mark id kind keep = t.mark id kind keep := by
  cases marked : t.mark id kind' keep' with
  | none => rw [pruneHalf_of_none marked]
  | some m =>
    rw [pruneHalf_of_some marked, trim, mark_dropRecords_of_ne (legible.raiseFloor id kind' m) ne,
      mark_raiseFloor_of_ne legible ne]

/-- Halves of the two kinds are run in either order. -/
theorem pruneHalf_comm (legible : t.Legible) (ne : kind ≠ kind') :
    (t.pruneHalf id kind' keep').pruneHalf id kind keep =
      (t.pruneHalf id kind keep).pruneHalf id kind' keep' := by
  have same := @mark_pruneHalf_of_ne t id kind' kind keep' keep legible ne.symm
  cases marked : t.mark id kind' keep' with
  | none => rw [pruneHalf_of_none marked, pruneHalf_of_none (same.trans marked)]
  | some m =>
    rw [pruneHalf_of_some marked, pruneHalf_of_some (same.trans marked), trim, trim,
      pruneHalf_dropRecords_of_ne (legible.raiseFloor id kind' m) ne,
      pruneHalf_raiseFloor_of_ne legible ne]

end Laws

/-! ## Halves that are cut -/

/-- What half a prune that is cut may leave: nothing happened, or the floor was raised. -/
inductive HalfCut (t : Table Bytes) (id : ValidatorId) (kind : DutyKind) (keep : UInt64) :
    Table Bytes → Prop where
  | untouched : HalfCut t id kind keep t
  | raised {m : UInt64} : t.mark id kind keep = some m →
    HalfCut t id kind keep (t.raiseFloor id kind m)

namespace HalfCut

variable {u : Table Bytes} {keep keep' : UInt64}

/-- The next half makes up for what was cut. -/
theorem pruneHalf_eq (h : t.HalfCut id kind keep u) (legible : t.Legible) :
    u.pruneHalf id kind keep = t.pruneHalf id kind keep := by
  cases h with
  | untouched => rfl
  | raised marked =>
    rw [pruneHalf_of_some (mark_raiseFloor legible marked), pruneHalf_of_some marked,
      trim_raiseFloor t id kind (UInt64.le_refl _)]

/-- To the other kind, half a prune that is cut is as good as none. -/
theorem pruneHalf_eq_self (h : t.HalfCut id kind' keep' u) (legible : t.Legible)
    (ne : kind ≠ kind') (done : t.pruneHalf id kind keep = t) : u.pruneHalf id kind keep = u := by
  cases h with
  | untouched => exact done
  | raised marked => rw [pruneHalf_raiseFloor_of_ne legible ne, done]

end HalfCut

/-! ## Whole prunes -/

/-- What a prune of one validator leaves of a ledger. -/
def pruned (t : Table Bytes) (id : ValidatorId) (epochsToKeep slotsPerEpoch : UInt64) :
    Table Bytes :=
  (t.pruneHalf id .block (slotsKept epochsToKeep slotsPerEpoch)).pruneHalf id .attestation
    epochsToKeep

/-- What a prune that is cut may leave: one of its halves was cut, behind it nothing happened. -/
inductive Cut (t : Table Bytes) (id : ValidatorId) (epochsToKeep slotsPerEpoch : UInt64) :
    Table Bytes → Prop where
  | blocks {u : Table Bytes} : t.HalfCut id .block (slotsKept epochsToKeep slotsPerEpoch) u →
    Cut t id epochsToKeep slotsPerEpoch u
  | attestations {u : Table Bytes} :
    (t.pruneHalf id .block (slotsKept epochsToKeep slotsPerEpoch)).HalfCut id .attestation
      epochsToKeep u → Cut t id epochsToKeep slotsPerEpoch u

section Prunes

variable {e e' : UInt64}

/-- Of two prunes, each kind keeps what the smaller of its two windows keeps. -/
theorem pruned_pruned_eq (legible : t.Legible) (positive : e ≠ 0) (positive' : e' ≠ 0)
    (p p' : UInt64) :
    (t.pruned id e p).pruned id e' p' =
      (t.pruneHalf id .block (min (slotsKept e p) (slotsKept e' p'))).pruneHalf id .attestation
        (min e e') := by
  have blocks := legible.pruneHalf id .block (slotsKept e p)
  have bothBlocks := legible.pruneHalf id .block (min (slotsKept e p) (slotsKept e' p'))
  have ne : DutyKind.block ≠ .attestation := nofun
  unfold pruned
  rw [pruneHalf_comm blocks ne, pruneHalf_pruneHalf legible (slotsKept_ne_zero e p)
    (slotsKept_ne_zero e' p'), pruneHalf_pruneHalf bothBlocks positive positive']

theorem pruned_comm (legible : t.Legible) (positive : e ≠ 0) (positive' : e' ≠ 0)
    (p p' : UInt64) :
    (t.pruned id e p).pruned id e' p' = (t.pruned id e' p').pruned id e p := by
  rw [pruned_pruned_eq legible positive positive', pruned_pruned_eq legible positive' positive,
    Word.min_comm e, Word.min_comm (slotsKept e p)]

/-- With one length of epochs, the smaller number of epochs counts. -/
theorem pruned_pruned (legible : t.Legible) (positive : e ≠ 0) (positive' : e' ≠ 0)
    (p : UInt64) : (t.pruned id e p).pruned id e' p = t.pruned id (min e e') p := by
  rw [pruned_pruned_eq legible positive positive', ← slotsKept_min, pruned]

/-- A prune makes up for one with the same tunables that was cut. -/
theorem Cut.pruned_eq {p : UInt64} {u : Table Bytes} (h : t.Cut id e p u) (legible : t.Legible) :
    u.pruned id e p = t.pruned id e p := by
  cases h with
  | blocks cut => rw [pruned, cut.pruneHalf_eq legible, pruned]
  | attestations cut =>
    have blocks := legible.pruneHalf id .block (slotsKept e p)
    have kept := slotsKept_ne_zero e p
    have done : (t.pruneHalf id .block (slotsKept e p)).pruneHalf id .block (slotsKept e p) =
        t.pruneHalf id .block (slotsKept e p) := by
      rw [pruneHalf_pruneHalf legible kept kept, Word.min_self]
    have ne : DutyKind.block ≠ .attestation := nofun
    rw [pruned, cut.pruneHalf_eq_self blocks ne done, cut.pruneHalf_eq blocks, pruned]

end Prunes

/-! ## What is left -/

/-- A record above or below the floor is enough for a mark, which the floor bounds. -/
theorem exists_mark (legible : t.Legible) {n floor : UInt64}
    (there : n ∈ (t.account id).recorded kind) (hf : (t.account id).floorOf kind = some floor)
    (keep : UInt64) : ∃ m, t.mark id kind keep = some m ∧ floor ≤ m := by
  have member := (mem_numbers legible).2 there
  obtain ⟨newest, last⟩ : ∃ newest, (t.numbers kind.family id).getLast? = some newest :=
    ⟨_, List.getLast?_eq_some_getLast (List.ne_nil_of_mem member)⟩
  have greatest := (getLast?_numbers legible).1 last
  refine ⟨max (pruningPoint keep newest) floor, ?_, Word.le_max_right _ floor⟩
  exact (mark_eq_some_iff legible).2 ⟨newest, floor, greatest, hf, rfl⟩

theorem recorded_pruneHalf_of_ne (ne : kind ≠ kind') {keep : UInt64} :
    ((t.pruneHalf id kind' keep).account id).recorded kind = (t.account id).recorded kind := by
  cases marked : t.mark id kind' keep with
  | none => rw [pruneHalf_of_none marked]
  | some m =>
    rw [pruneHalf_of_some marked, trim, account_dropRecords, Account.recorded_dropRecords_of_ne ne,
      account_raiseFloor, Account.recorded_raiseFloor]

theorem floorOf_pruneHalf_of_ne (ne : kind ≠ kind') {keep : UInt64} :
    ((t.pruneHalf id kind' keep).account id).floorOf kind = (t.account id).floorOf kind := by
  cases marked : t.mark id kind' keep with
  | none => rw [pruneHalf_of_none marked]
  | some m =>
    rw [pruneHalf_of_some marked, trim, account_dropRecords, Account.floorOf_dropRecords,
      account_raiseFloor, Account.floorOf_raiseFloor_of_ne ne]

/-- Half a prune leaves none of the records if all are below their floor. -/
theorem recorded_pruneHalf_of_lt (legible : t.Legible) {floor : UInt64}
    (hf : (t.account id).floorOf kind = some floor)
    (below : ∀ n ∈ (t.account id).recorded kind, n < floor) (keep : UInt64) :
    ((t.pruneHalf id kind keep).account id).recorded kind = ∅ := by
  apply Set.eq_empty_iff_forall_notMem.2
  intro n left
  cases marked : t.mark id kind keep with
  | none =>
    rw [pruneHalf_of_none marked] at left
    obtain ⟨m, marked', -⟩ := exists_mark legible left hf keep
    rw [marked] at marked'
    contradiction
  | some m =>
    rw [pruneHalf_of_some marked, recorded_trim] at left
    obtain ⟨m', marked', le⟩ := exists_mark legible left.1 hf keep
    obtain rfl : m = m' := Option.some.inj (marked.symm.trans marked')
    exact UInt64.not_lt.2 (UInt64.le_trans le left.2) (below n left.1)

/-- So does a whole prune, for either kind. -/
theorem recorded_pruned_of_lt (legible : t.Legible) {floor : UInt64}
    (hf : (t.account id).floorOf kind = some floor)
    (below : ∀ n ∈ (t.account id).recorded kind, n < floor) (e p : UInt64) :
    ((t.pruned id e p).account id).recorded kind = ∅ := by
  unfold pruned
  cases kind with
  | block =>
    have ne : DutyKind.block ≠ .attestation := nofun
    rw [recorded_pruneHalf_of_ne ne]
    exact recorded_pruneHalf_of_lt legible hf below _
  | attestation =>
    have ne : DutyKind.attestation ≠ .block := nofun
    apply recorded_pruneHalf_of_lt (legible.pruneHalf id .block _)
    · rw [floorOf_pruneHalf_of_ne ne]
      exact hf
    · rw [recorded_pruneHalf_of_ne ne]
      exact below

/-- Without a floor there is nothing to prune. -/
theorem mark_of_floor_none (h : (t.account id).floorOf kind = none) (keep : UInt64) :
    t.mark id kind keep = none := by
  unfold mark
  rw [h]
  cases (t.numbers kind.family id).getLast? <;> rfl

theorem pruned_of_floors_none (h : ∀ kind, (t.account id).floorOf kind = none) (e p : UInt64) :
    t.pruned id e p = t := by
  rw [pruned, pruneHalf_of_none (mark_of_floor_none (h .block) _),
    pruneHalf_of_none (mark_of_floor_none (h .attestation) _)]

/-! ## Regular ledgers stay regular -/

theorem isRegistered_of_mark (regular : t.Regular) {keep : UInt64}
    (marked : t.mark id kind keep = some m) : t.isRegistered id := by
  obtain ⟨-, floor, -, hf, -⟩ := (mark_eq_some_iff regular.toLegible).1 marked
  cases kind with
  | block => exact regular.registered_of_slotFloor hf
  | attestation => exact regular.registered_of_targetFloor hf

theorem Regular.raiseFloor (regular : t.Regular) (registered : t.isRegistered id)
    (kind : DutyKind) (m : UInt64) : (t.raiseFloor id kind m).Regular := by
  unfold Table.raiseFloor
  split
  · refine regular.insert ?_ fun _ owner => Option.some.inj owner ▸ registered
    cases kind with
    | block => exact ⟨_, LedgerKey.readWord_ofWord _ _⟩
    | attestation => exact ⟨_, LedgerValue.readEpochFloors_writeEpochFloors _ _⟩
  · exact regular

theorem Regular.dropRecords (regular : t.Regular) (id : ValidatorId) (kind : DutyKind)
    (bound : UInt64) : (t.dropRecords id kind bound).Regular := by
  apply regular.dropBelow
  cases kind with
  | block => exact registry_dropBlocks t id bound
  | attestation => exact registry_dropVotes t id bound

theorem Regular.pruneHalf (regular : t.Regular) (id : ValidatorId) (kind : DutyKind)
    (keep : UInt64) : (t.pruneHalf id kind keep).Regular := by
  cases marked : t.mark id kind keep with
  | none =>
    rw [pruneHalf_of_none marked]
    exact regular
  | some m =>
    have raised := regular.raiseFloor (isRegistered_of_mark regular marked) kind m
    rw [pruneHalf_of_some marked]
    exact raised.dropRecords id kind m

theorem HalfCut.regular {keep : UInt64} {u : Table Bytes} (h : t.HalfCut id kind keep u)
    (regular : t.Regular) : u.Regular := by
  cases h with
  | untouched => exact regular
  | raised marked => exact regular.raiseFloor (isRegistered_of_mark regular marked) kind _

theorem Regular.pruned (regular : t.Regular) (id : ValidatorId) (e p : UInt64) :
    (t.pruned id e p).Regular :=
  (regular.pruneHalf id .block _).pruneHalf id .attestation e

theorem Cut.regular {e p : UInt64} {u : Table Bytes} (h : t.Cut id e p u)
    (regular : t.Regular) : u.Regular := by
  cases h with
  | blocks cut => exact cut.regular regular
  | attestations cut => exact cut.regular (regular.pruneHalf id .block _)

end Table

end SlashingGuard
