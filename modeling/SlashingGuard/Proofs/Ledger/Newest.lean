import Mathlib.Order.Bounds.Defs
import SlashingGuard.Proofs.Ledger.Account

/-! # Newest records

    Of each duty kind an account has a floor, and the slots or targets that it
    has on record.  A prune measures from the newest of them: it raises the
    floor no further than to that record, and so the record is not among those
    that go. -/

namespace SlashingGuard

/-- A floor is raised to no more than what bounds both it and the candidate. -/
theorem Floor.raised_le {floor : Floor} {candidate bound : UInt64}
    (hf : ∀ f, floor = some f → f ≤ bound) (hc : candidate ≤ bound) :
    floor.raised candidate ≤ bound := by
  cases floor with
  | none => exact hc
  | some f =>
    simp only [raised]
    split
    · exact hc
    · exact hf f rfl

namespace Account

/-- The floor of a duty kind; that of votes is the target floor. -/
def floorOf (a : Account) : DutyKind → Floor
  | .block => a.slotFloor
  | .attestation => a.targetFloor

/-- The slots of the recorded blocks, or the targets of the recorded votes. -/
def recorded (a : Account) : DutyKind → Set UInt64
  | .block => {slot | (a.block slot).isSome}
  | .attestation => {target | (a.vote target).isSome}

@[simp] theorem mem_recorded_block {a : Account} {slot : Slot} :
    slot ∈ a.recorded .block ↔ (a.block slot).isSome := Iff.rfl

@[simp] theorem mem_recorded_attestation {a : Account} {target : Epoch} :
    target ∈ a.recorded .attestation ↔ (a.vote target).isSome := Iff.rfl

theorem mem_recorded_recordBlock (a : Account) (slot : Slot) (root : SigningRoot)
    (kind : DutyKind) (i : UInt64) :
    i ∈ (a.recordBlock slot root).recorded kind ↔
      i ∈ a.recorded kind ∨ kind = .block ∧ i = slot := by
  cases kind with
  | block => by_cases same : i = slot <;> simp [recordBlock, same]
  | attestation => simp [recordBlock]

theorem mem_recorded_recordVote (a : Account) (vote : Vote) (root : SigningRoot)
    (kind : DutyKind) (i : UInt64) :
    i ∈ (a.recordVote vote root).recorded kind ↔
      i ∈ a.recorded kind ∨ kind = .attestation ∧ i = vote.target := by
  cases kind with
  | block => simp [recordVote]
  | attestation => by_cases same : i = vote.target <;> simp [recordVote, same]

/-- The newest record of a kind, with a floor that is not above it. -/
structure NewestAt (a : Account) (kind : DutyKind) (newest : UInt64) : Prop where
  greatest : IsGreatest (a.recorded kind) newest
  floor_le : ∀ f, a.floorOf kind = some f → f ≤ newest

/-- The newest record stays when all records below the floor go. -/
theorem NewestAt.dropped {a b : Account} {kind : DutyKind} {n bound f : UInt64}
    (h : a.NewestAt kind n) (same : b.floorOf kind = a.floorOf kind)
    (left : ∀ index, index ∈ b.recorded kind ↔ index ∈ a.recorded kind ∧ ¬ index < bound)
    (floor : a.floorOf kind = some f) (le : bound ≤ f) : b.NewestAt kind n where
  greatest := by
    have above : bound ≤ n := UInt64.le_trans le (h.floor_le f floor)
    refine ⟨(left n).2 ⟨h.greatest.1, UInt64.not_lt.2 above⟩, ?_⟩
    intro index hi
    exact h.greatest.2 ((left index).1 hi).1
  floor_le f' hf := h.floor_le f' (same ▸ hf)

/-- The account `b` has the newest records of `a`, and has floors where `a` has them. -/
structure KeepsNewest (a b : Account) : Prop where
  floor_isSome : ∀ kind, (b.floorOf kind).isSome = (a.floorOf kind).isSome
  newest : ∀ kind n, a.NewestAt kind n → b.NewestAt kind n
  even : a.sourceFloor = a.targetFloor → b.sourceFloor = b.targetFloor

namespace KeepsNewest

theorem refl (a : Account) : KeepsNewest a a := ⟨fun _ => rfl, fun _ _ h => h, id⟩

variable {a b c : Account}

theorem trans (hab : KeepsNewest a b) (hbc : KeepsNewest b c) : KeepsNewest a c where
  floor_isSome kind := (hbc.floor_isSome kind).trans (hab.floor_isSome kind)
  newest kind n h := hbc.newest kind n (hab.newest kind n h)
  even h := hbc.even (hab.even h)

theorem raiseSlot {slot : Slot} (set : a.slotFloor.isSome)
    (le : ∀ n, a.NewestAt .block n → slot ≤ n) : KeepsNewest a (a.raiseSlot slot) where
  floor_isSome kind := by
    cases kind with
    | block => exact set.symm
    | attestation => rfl
  newest kind n h := by
    cases kind with
    | block =>
      refine ⟨h.greatest, fun f hf => ?_⟩
      obtain rfl := Option.some.inj hf
      exact Floor.raised_le h.floor_le (le n h)
    | attestation => exact ⟨h.greatest, h.floor_le⟩
  even h := h

theorem raiseEpochs {epoch : Epoch} (set : a.targetFloor.isSome)
    (le : ∀ n, a.NewestAt .attestation n → epoch ≤ n) :
    KeepsNewest a (a.raiseEpochs epoch epoch) where
  floor_isSome kind := by
    cases kind with
    | block => rfl
    | attestation => exact set.symm
  newest kind n h := by
    cases kind with
    | block => exact ⟨h.greatest, h.floor_le⟩
    | attestation =>
      refine ⟨h.greatest, fun f hf => ?_⟩
      obtain rfl := Option.some.inj hf
      exact Floor.raised_le h.floor_le (le n h)
  even h := by
    show some (a.sourceFloor.raised epoch) = some (a.targetFloor.raised epoch)
    rw [h]

theorem dropBlocks {bound floor : Slot} (hf : a.slotFloor = some floor) (le : bound ≤ floor) :
    KeepsNewest a (a.dropBlocks bound) where
  floor_isSome _ := rfl
  newest kind n h := by
    cases kind with
    | block =>
      refine h.dropped ?_ ?_ hf le
      · rfl
      · intro slot
        by_cases below : slot < bound <;> simp [below]
    | attestation => exact ⟨h.greatest, h.floor_le⟩
  even h := h

theorem dropVotes {bound floor : Epoch} (hf : a.targetFloor = some floor) (le : bound ≤ floor) :
    KeepsNewest a (a.dropVotes bound) where
  floor_isSome _ := rfl
  newest kind n h := by
    cases kind with
    | block => exact ⟨h.greatest, h.floor_le⟩
    | attestation =>
      refine h.dropped ?_ ?_ hf le
      · rfl
      · intro target
        by_cases below : target < bound <;> simp [below]
  even h := h

end KeepsNewest

end Account

end SlashingGuard
