import Mathlib.Tactic.Common
import SlashingGuard.Duty.Decision

/-! # The rules on an account

    What a ledger holds of one validator, without bytes: which root was signed
    at a slot, which source and root at a target, and the floors.  The
    slashing rules are stated here on such an account, the first that matches
    counting, and so are the changes that a permit and a prune make.

    A prune may forget records, but only below floors that it leaves, and a
    floor never falls.  So whatever is not below the floors it leaves gets the
    answer it would have got before. -/

namespace SlashingGuard

/-! ## Floors -/

namespace Floor

/-- Where a floor stands after it was raised to a candidate. -/
def raised (floor : Floor) (candidate : UInt64) : UInt64 :=
  match floor with
  | none => candidate
  | some current => if current < candidate then candidate else current

theorem raise_eq (floor : Floor) (candidate : UInt64) :
    floor.raise candidate = some (floor.raised candidate) := by
  cases floor with
  | none => rfl
  | some current =>
    simp only [raise, moves, raised, decide_eq_true_eq]
    split <;> rfl

theorem candidate_le_raised (floor : Floor) (candidate : UInt64) :
    candidate ≤ floor.raised candidate := by
  cases floor with
  | none => exact UInt64.le_refl _
  | some current =>
    simp only [raised]
    split
    · exact UInt64.le_refl _
    · next notLt => exact UInt64.not_lt.1 notLt

theorem le_raised (current candidate : UInt64) :
    current ≤ raised (some current) candidate := by
  simp only [raised]
  split
  · next lt => exact UInt64.le_of_lt lt
  · exact UInt64.le_refl _

theorem raised_of_not_moves {current candidate : UInt64}
    (h : moves (some current) candidate = false) : raised (some current) candidate = current := by
  simp only [moves, decide_eq_false_iff_not] at h
  simp only [raised, if_neg h]

end Floor

/-! ## Votes and roots -/

/-- One vote surrounds another from an earlier source to a later target. -/
theorem Vote.surrounds_iff {outer inner : Vote} :
    outer.surrounds inner ↔ outer.source < inner.source ∧ inner.target < outer.target := by
  simp [Vote.surrounds]

/-- Only a signed root is resolved with a permit. -/
theorem resolveExisting_eq_permit_iff {signed root : SigningRoot} {reason : DenialReason} :
    resolveExisting signed root reason = .permit ↔ signed = root := by
  by_cases same : signed = root <;> simp [resolveExisting, same]

/-! ## Accounts -/

/-- What a ledger holds of one validator. -/
@[ext] structure Account where
  /-- The root signed at a slot. -/
  block : Slot → Option SigningRoot
  /-- The source and the root signed at a target epoch. -/
  vote : Epoch → Option (Epoch × SigningRoot)
  slotFloor : Floor
  /-- The source floor and the target floor, which are set together. -/
  epochFloors : Option (Epoch × Epoch)

namespace Account

/-- The source floor. -/
def sourceFloor (a : Account) : Floor := a.epochFloors.map Prod.fst

/-- The target floor. -/
def targetFloor (a : Account) : Floor := a.epochFloors.map Prod.snd

/-! ## Changes -/

@[simps] def putBlock (a : Account) (slot : Slot) (root : SigningRoot) : Account :=
  { a with block := fun s => if s = slot then some root else a.block s }

@[simps] def putVote (a : Account) (vote : Vote) (root : SigningRoot) : Account :=
  { a with vote := fun t => if t = vote.target then some (vote.source, root) else a.vote t }

@[simps] def raiseSlot (a : Account) (slot : Slot) : Account :=
  { a with slotFloor := some (a.slotFloor.raised slot) }

@[simps] def raiseEpochs (a : Account) (source target : Epoch) : Account :=
  { a with epochFloors := some (a.sourceFloor.raised source, a.targetFloor.raised target) }

@[simps] def dropBlocks (a : Account) (bound : Slot) : Account :=
  { a with block := fun s => if s < bound then none else a.block s }

@[simps] def dropVotes (a : Account) (bound : Epoch) : Account :=
  { a with vote := fun t => if t < bound then none else a.vote t }

/-- Raising a floor that is high enough changes nothing. -/
theorem raiseSlot_eq_self {a : Account} {slot : Slot}
    (h : Floor.moves a.slotFloor slot = false) : a.raiseSlot slot = a := by
  obtain ⟨block, vote, _ | floor, floors⟩ := a
  · contradiction
  · simp only [raiseSlot, Floor.raised_of_not_moves h]

theorem raiseEpochs_eq_self {a : Account} {source target : Epoch}
    (h : (Floor.moves a.sourceFloor source || Floor.moves a.targetFloor target) = false) :
    a.raiseEpochs source target = a := by
  obtain ⟨block, vote, floor, _ | ⟨s, t⟩⟩ := a
  · contradiction
  · obtain ⟨hs, ht⟩ := Bool.or_eq_false_iff.1 h
    simp only [sourceFloor, targetFloor, Option.map_some] at hs ht
    simp only [raiseEpochs, sourceFloor, targetFloor, Option.map_some,
      Floor.raised_of_not_moves hs, Floor.raised_of_not_moves ht]

/-- A permitted block is put in, and gives the validator a slot floor if it has none. -/
def recordBlock (a : Account) (slot : Slot) (root : SigningRoot) : Account :=
  (a.putBlock slot root).raiseSlot 0

/-- A permitted vote is put in, and gives the validator epoch floors if it has none. -/
def recordVote (a : Account) (vote : Vote) (root : SigningRoot) : Account :=
  (a.putVote vote root).raiseEpochs 0 0

/-! ## Rules -/

/-- A block strictly below the slot floor. -/
def HidesBlock (a : Account) (slot : Slot) : Prop :=
  ∃ floor, a.slotFloor = some floor ∧ slot < floor

/-- A vote strictly below one of the epoch floors. -/
def HidesVote (a : Account) (vote : Vote) : Prop :=
  ∃ source target, a.epochFloors = some (source, target) ∧
    (vote.target < target ∨ vote.source < source)

/-- A record that surrounds a vote: an earlier source and a later target. -/
def Surrounds (a : Account) (vote : Vote) : Prop :=
  ∃ source target root, a.vote target = some (source, root) ∧
    source < vote.source ∧ vote.target < target

/-- A record that a vote surrounds. -/
def IsSurrounded (a : Account) (vote : Vote) : Prop :=
  ∃ source target root, a.vote target = some (source, root) ∧
    vote.source < source ∧ target < vote.target

open Classical in
/-- The rules on blocks. -/
noncomputable def judgeBlock (a : Account) (slot : Slot) (root : SigningRoot) : Decision :=
  if a.HidesBlock slot then .deny .belowWatermark
  else match a.block slot with
    | some signed => if signed = root then .permit else .deny .doubleBlockProposal
    | none => .permit

open Classical in
/-- The rules on attestations. -/
noncomputable def judgeVote (a : Account) (vote : Vote) (root : SigningRoot) : Decision :=
  if vote.target < vote.source then .deny .sourceAfterTarget
  else if a.HidesVote vote then .deny .belowWatermark
  else match a.vote vote.target with
    | some (_, signed) => if signed = root then .permit else .deny .doubleVote
    | none =>
      if a.Surrounds vote then .deny .surroundedVote
      else if a.IsSurrounded vote then .deny .surroundingVote
      else .permit

section Rules

variable {a : Account} {slot : Slot} {vote : Vote}

theorem judgeBlock_of_hides (hidden : a.HidesBlock slot) (root : SigningRoot) :
    a.judgeBlock slot root = .deny .belowWatermark := by
  rw [judgeBlock, if_pos hidden]

theorem judgeBlock_of_some (visible : ¬ a.HidesBlock slot) {signed : SigningRoot}
    (stored : a.block slot = some signed) (root : SigningRoot) :
    a.judgeBlock slot root = resolveExisting signed root .doubleBlockProposal := by
  rw [judgeBlock, if_neg visible, stored]
  rfl

theorem judgeBlock_of_none (visible : ¬ a.HidesBlock slot) (free : a.block slot = none)
    (root : SigningRoot) : a.judgeBlock slot root = .permit := by
  rw [judgeBlock, if_neg visible, free]

theorem judgeVote_of_lt (disordered : vote.target < vote.source) (root : SigningRoot) :
    a.judgeVote vote root = .deny .sourceAfterTarget := by
  rw [judgeVote, if_pos disordered]

theorem judgeVote_of_hides (ordered : ¬ vote.target < vote.source) (hidden : a.HidesVote vote)
    (root : SigningRoot) : a.judgeVote vote root = .deny .belowWatermark := by
  rw [judgeVote, if_neg ordered, if_pos hidden]

theorem judgeVote_of_some (ordered : ¬ vote.target < vote.source) (visible : ¬ a.HidesVote vote)
    {source : Epoch} {signed : SigningRoot} (stored : a.vote vote.target = some (source, signed))
    (root : SigningRoot) : a.judgeVote vote root = resolveExisting signed root .doubleVote := by
  rw [judgeVote, if_neg ordered, if_neg visible, stored]
  rfl

open Classical in
theorem judgeVote_of_none (ordered : ¬ vote.target < vote.source) (visible : ¬ a.HidesVote vote)
    (free : a.vote vote.target = none) (root : SigningRoot) :
    a.judgeVote vote root =
      if a.Surrounds vote then .deny .surroundedVote
      else if a.IsSurrounded vote then .deny .surroundingVote else .permit := by
  rw [judgeVote, if_neg ordered, if_neg visible, free]

end Rules

theorem judgeBlock_eq_permit_iff {a : Account} {slot : Slot} {root : SigningRoot} :
    a.judgeBlock slot root = .permit ↔
      ¬ a.HidesBlock slot ∧ ∀ signed, a.block slot = some signed → signed = root := by
  unfold judgeBlock
  split
  · next hidden => simp [hidden]
  · next visible =>
    cases a.block slot with
    | none => simp [visible]
    | some signed => by_cases same : signed = root <;> simp [visible, same]

theorem judgeVote_eq_permit_iff {a : Account} {vote : Vote} {root : SigningRoot} :
    a.judgeVote vote root = .permit ↔
      vote.source ≤ vote.target ∧ ¬ a.HidesVote vote ∧
        ((∃ source, a.vote vote.target = some (source, root)) ∨
          a.vote vote.target = none ∧ ¬ a.Surrounds vote ∧ ¬ a.IsSurrounded vote) := by
  unfold judgeVote
  split
  · next wrong => simp [UInt64.not_le.2 wrong]
  · next right =>
    have ordered := UInt64.not_lt.1 right
    by_cases hidden : a.HidesVote vote
    · simp [hidden]
    · cases hv : a.vote vote.target with
      | some signed =>
        obtain ⟨source, signed⟩ := signed
        by_cases same : signed = root <;> simp [ordered, hidden, same]
      | none =>
        by_cases outer : a.Surrounds vote <;> by_cases inner : a.IsSurrounded vote <;>
          simp [ordered, hidden, outer, inner]

/-! ## Floors that rise -/

/-- Floors of `a` that are set are set in `b`, and no lower. -/
structure FloorsRise (a b : Account) : Prop where
  slotFloor : ∀ f, a.slotFloor = some f → ∃ f', b.slotFloor = some f' ∧ f ≤ f'
  epochFloors : ∀ s t, a.epochFloors = some (s, t) →
    ∃ s' t', b.epochFloors = some (s', t') ∧ s ≤ s' ∧ t ≤ t'

namespace FloorsRise

variable {a b c : Account}

theorem of_eq (slots : b.slotFloor = a.slotFloor) (epochs : b.epochFloors = a.epochFloors) :
    FloorsRise a b where
  slotFloor f h := ⟨f, slots.trans h, UInt64.le_refl f⟩
  epochFloors s t h := ⟨s, t, epochs.trans h, UInt64.le_refl s, UInt64.le_refl t⟩

theorem refl (a : Account) : FloorsRise a a := .of_eq rfl rfl

theorem trans (hab : FloorsRise a b) (hbc : FloorsRise b c) : FloorsRise a c where
  slotFloor f hf := by
    obtain ⟨f', hf', le⟩ := hab.slotFloor f hf
    obtain ⟨f'', hf'', le'⟩ := hbc.slotFloor f' hf'
    exact ⟨f'', hf'', UInt64.le_trans le le'⟩
  epochFloors s t hf := by
    obtain ⟨s', t', hf', les, let'⟩ := hab.epochFloors s t hf
    obtain ⟨s'', t'', hf'', les', let''⟩ := hbc.epochFloors s' t' hf'
    exact ⟨s'', t'', hf'', UInt64.le_trans les les', UInt64.le_trans let' let''⟩

/-- What lay below a floor still does. -/
theorem hidesBlock (h : FloorsRise a b) {slot : Slot} (hidden : a.HidesBlock slot) :
    b.HidesBlock slot := by
  obtain ⟨f, hf, lt⟩ := hidden
  obtain ⟨f', hf', le⟩ := h.slotFloor f hf
  exact ⟨f', hf', UInt64.lt_of_lt_of_le lt le⟩

theorem hidesVote (h : FloorsRise a b) {vote : Vote} (hidden : a.HidesVote vote) :
    b.HidesVote vote := by
  obtain ⟨s, t, hf, below⟩ := hidden
  obtain ⟨s', t', hf', les, let'⟩ := h.epochFloors s t hf
  exact ⟨s', t', hf', below.imp (UInt64.lt_of_lt_of_le · let') (UInt64.lt_of_lt_of_le · les)⟩

theorem raiseSlot (a : Account) (slot : Slot) : FloorsRise a (a.raiseSlot slot) where
  slotFloor f hf := ⟨_, rfl, by rw [hf]; exact Floor.le_raised f slot⟩
  epochFloors s t hf := ⟨s, t, hf, UInt64.le_refl s, UInt64.le_refl t⟩

theorem raiseEpochs (a : Account) (source target : Epoch) :
    FloorsRise a (a.raiseEpochs source target) where
  slotFloor f hf := ⟨f, hf, UInt64.le_refl f⟩
  epochFloors s t hf := by
    refine ⟨_, _, rfl, ?_, ?_⟩
    · rw [sourceFloor, hf]; exact Floor.le_raised s source
    · rw [targetFloor, hf]; exact Floor.le_raised t target

end FloorsRise

/-! ## What a prune may do -/

/-- Every recorded vote has its source no later than its target. -/
def Ordered (a : Account) : Prop :=
  ∀ target source root, a.vote target = some (source, root) → source ≤ target

/-- The account `b` is `a` after floors were raised and records below them forgotten.  A forgotten
    vote lies below both epoch floors. -/
structure Pruned (a b : Account) : Prop extends FloorsRise a b where
  block : ∀ slot, b.block slot = a.block slot ∨ b.block slot = none ∧ b.HidesBlock slot
  vote : ∀ target, b.vote target = a.vote target ∨ b.vote target = none ∧
    ∃ s t, b.epochFloors = some (s, t) ∧ target < s ∧ target < t

namespace Pruned

theorem refl (a : Account) : Pruned a a :=
  { FloorsRise.refl a with block := fun _ => .inl rfl, vote := fun _ => .inl rfl }

variable {a b c : Account}

theorem trans (hab : Pruned a b) (hbc : Pruned b c) : Pruned a c where
  toFloorsRise := hab.toFloorsRise.trans hbc.toFloorsRise
  block slot := by
    rcases hbc.block slot with same | gone
    · rcases hab.block slot with same' | ⟨gone, hidden⟩
      · exact .inl (same.trans same')
      · exact .inr ⟨same.trans gone, hbc.hidesBlock hidden⟩
    · exact .inr gone
  vote target := by
    rcases hbc.vote target with same | gone
    · rcases hab.vote target with same' | ⟨gone, s, t, hf, hs, ht⟩
      · exact .inl (same.trans same')
      · obtain ⟨s', t', hf', les, let'⟩ := hbc.epochFloors s t hf
        exact .inr ⟨same.trans gone, s', t', hf', UInt64.lt_of_lt_of_le hs les,
          UInt64.lt_of_lt_of_le ht let'⟩
    · exact .inr gone

theorem raiseSlot (a : Account) (slot : Slot) : Pruned a (a.raiseSlot slot) :=
  { FloorsRise.raiseSlot a slot with block := fun _ => .inl rfl, vote := fun _ => .inl rfl }

theorem raiseEpochs (a : Account) (source target : Epoch) :
    Pruned a (a.raiseEpochs source target) :=
  { FloorsRise.raiseEpochs a source target with
    block := fun _ => .inl rfl, vote := fun _ => .inl rfl }

/-- Blocks below the floor may go. -/
theorem dropBlocks {bound floor : Slot} (hf : a.slotFloor = some floor) (le : bound ≤ floor) :
    Pruned a (a.dropBlocks bound) where
  toFloorsRise := .of_eq rfl rfl
  block slot := by
    by_cases below : slot < bound
    · exact .inr ⟨by simp [below], floor, hf, UInt64.lt_of_lt_of_le below le⟩
    · exact .inl (by simp [below])
  vote _ := .inl rfl

/-- Votes below both floors may go. -/
theorem dropVotes {bound source target : Epoch} (hf : a.epochFloors = some (source, target))
    (hs : bound ≤ source) (ht : bound ≤ target) : Pruned a (a.dropVotes bound) where
  toFloorsRise := .of_eq rfl rfl
  block _ := .inl rfl
  vote t := by
    by_cases below : t < bound
    · exact .inr ⟨by simp [below], source, target, hf, UInt64.lt_of_lt_of_le below hs,
        UInt64.lt_of_lt_of_le below ht⟩
    · exact .inl (by simp [below])

theorem ordered (h : Pruned a b) (ha : a.Ordered) : b.Ordered := by
  intro target source root hv
  rcases h.vote target with same | ⟨gone, -⟩
  · exact ha target source root (same ▸ hv)
  · rw [gone] at hv; contradiction

/-- A block that is not below the floor left is judged as before. -/
theorem judgeBlock_eq (h : Pruned a b) {slot : Slot} (visible : ¬ b.HidesBlock slot)
    (root : SigningRoot) : b.judgeBlock slot root = a.judgeBlock slot root := by
  have visible' : ¬ a.HidesBlock slot := fun hidden => visible (h.hidesBlock hidden)
  have same : b.block slot = a.block slot :=
    (h.block slot).resolve_right fun gone => visible gone.2
  rw [judgeBlock, judgeBlock, if_neg visible, if_neg visible', same]

/-- A vote that is not below the floors left is judged as before.  A forgotten vote cannot count
    against it: it has another target, it does not surround it, having a smaller target, and it
    is not surrounded by it, having a source below the source floor. -/
theorem judgeVote_eq (h : Pruned a b) (ha : a.Ordered) {vote : Vote}
    (visible : ¬ b.HidesVote vote) (root : SigningRoot) :
    b.judgeVote vote root = a.judgeVote vote root := by
  have visible' : ¬ a.HidesVote vote := fun hidden => visible (h.hidesVote hidden)
  -- Nothing was forgotten from the source of the vote on, nor from its target on.
  have kept : ∀ target, vote.source ≤ target ∨ vote.target ≤ target →
      b.vote target = a.vote target := by
    rintro target (le | le) <;> refine (h.vote target).resolve_right ?_ <;>
      rintro ⟨-, s, t, hf, hs, ht⟩
    · exact visible ⟨s, t, hf, .inr (UInt64.lt_of_le_of_lt le hs)⟩
    · exact visible ⟨s, t, hf, .inl (UInt64.lt_of_le_of_lt le ht)⟩
  have sameVote : b.vote vote.target = a.vote vote.target :=
    kept _ (.inr (UInt64.le_refl _))
  have outer : b.Surrounds vote ↔ a.Surrounds vote := by
    constructor <;> rintro ⟨source, target, signed, hv, lt, gt⟩
    · exact ⟨source, target, signed, kept target (.inr (UInt64.le_of_lt gt)) ▸ hv, lt, gt⟩
    · exact ⟨source, target, signed, (kept target (.inr (UInt64.le_of_lt gt))).trans hv, lt, gt⟩
  -- A record inside the vote starts behind the source of the vote, and ends no earlier.
  have inner : b.IsSurrounded vote ↔ a.IsSurrounded vote := by
    constructor <;> rintro ⟨source, target, signed, hv, lt, gt⟩
    · have le := h.ordered ha target source signed hv
      have above := UInt64.le_trans (UInt64.le_of_lt lt) le
      exact ⟨source, target, signed, kept target (.inl above) ▸ hv, lt, gt⟩
    · have le := ha target source signed hv
      have above := UInt64.le_trans (UInt64.le_of_lt lt) le
      exact ⟨source, target, signed, (kept target (.inl above)).trans hv, lt, gt⟩
  classical
  simp only [judgeVote, if_neg visible, if_neg visible', sameVote, outer, inner]

end Pruned

end Account

end SlashingGuard
