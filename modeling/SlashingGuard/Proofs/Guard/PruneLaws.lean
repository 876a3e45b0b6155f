import SlashingGuard.Proofs.Guard.PruneEnds
import SlashingGuard.Proofs.Guard.Retention

/-! # Laws of prunes

    Prunes of one validator are idempotent and commute, and one that was cut is
    resumed by the next.  The second prune measures from a ledger that the first
    has trimmed, so each law rests on what the first has left of the newest
    records.

    A prune is here whatever a guard does for it: both halves under their
    locks, each with its two commits. -/

namespace SlashingGuard

namespace Guard

open GuardWork

/-! ## Prunes of one validator -/

variable {faulty : Prop} {c : Context} {t : Table Bytes} {id : ValidatorId} {e p : UInt64}

/-- A prune leaves the guard; it is done, or it is cut, because a call failed or a lock was
    held. -/
theorem always_pruneValidator (regular : t.Regular) (he : e ≠ 0) (hp : p ≠ 0) :
    Always faulty (pruneValidator id e p) c t fun r c' t' => c'.guard = c.guard ∧ match r with
      | .ok _ => t' = t.pruned id e p
      | .error _ => (c.guard.Frees id → faulty) ∧ t.Cut id e p t' := by
  refine (always_pruneValidator_ends regular he hp).mono fun r c' t' ends => ⟨ends.guard_eq, ?_⟩
  cases ends with
  | done => rfl
  | inBlocks stops cut => exact ⟨fun free => (stops.of_frees free).1, .blocks cut⟩
  | inAttestations stops cut => exact ⟨fun free => (stops.of_frees free).1, .attestations cut⟩

/-- A prune of one validator, wherever its locks are free and no call fails, succeeds and leaves
    the ledger `t'`. -/
def Prunes (id : ValidatorId) (epochsToKeep slotsPerEpoch : UInt64) (t t' : Table Bytes) : Prop :=
  ∀ c : Context, c.guard.Frees id → ∃ outcome c',
    (pruneValidator id epochsToKeep slotsPerEpoch).onTable c t = (.ok outcome, c', t')

theorem prunes_pruned (regular : t.Regular) (id : ValidatorId) (he : e ≠ 0) (hp : p ≠ 0) :
    Prunes id e p t (t.pruned id e p) := by
  intro c free
  obtain ⟨c', -, ends⟩ := onTable_pruneValidator regular he hp free
  exact ⟨_, c', ends⟩

/-! ## Prunes that are cut -/

/-- The ledger after a prune was tried again and again, each time in a context of its own and with
    calls failing as scheduled. -/
def leftByAttempts (id : ValidatorId) (epochsToKeep slotsPerEpoch : UInt64)
    (attempts : List (Context × Store.FaultSchedule)) (t : Table Bytes) : Table Bytes :=
  attempts.foldl
    (fun t attempt => leftByPrune attempt.1 id epochsToKeep slotsPerEpoch attempt.2 t) t

/-- Whatever is left by a prune, a prune makes of it what it would have made before. -/
theorem pruned_leftByPrune (regular : t.Regular) (id : ValidatorId) (he : e ≠ 0) (hp : p ≠ 0)
    (c : Context) (faults : Store.FaultSchedule) :
    (leftByPrune c id e p faults t).Regular ∧
      (leftByPrune c id e p faults t).pruned id e p = t.pruned id e p := by
  have always : Always True (pruneValidator id e p) c t _ := always_pruneValidator regular he hp
  have ends := (always.runFaulty faults).2
  unfold leftByPrune
  cases answer : (((pruneValidator id e p).run.run c).runFaulty faults t).1.1 with
  | error error =>
    rw [answer] at ends
    exact ⟨ends.2.regular regular, ends.2.pruned_eq regular.toLegible⟩
  | ok outcome =>
    rw [answer] at ends
    change _ = t.pruned id e p at ends
    rw [ends, Table.pruned_pruned regular.toLegible he he, Word.min_self]
    exact ⟨regular.pruned id e p, rfl⟩

/-- So it is however often a prune was tried. -/
theorem pruned_leftByAttempts (regular : t.Regular) (id : ValidatorId) (he : e ≠ 0) (hp : p ≠ 0)
    (attempts : List (Context × Store.FaultSchedule)) :
    (leftByAttempts id e p attempts t).Regular ∧
      (leftByAttempts id e p attempts t).pruned id e p = t.pruned id e p := by
  unfold leftByAttempts
  induction attempts generalizing t with
  | nil => exact ⟨regular, rfl⟩
  | cons attempt rest ih =>
    obtain ⟨regular', same⟩ := pruned_leftByPrune regular id he hp attempt.1 attempt.2
    obtain ⟨regular'', same'⟩ := ih regular'
    exact ⟨regular'', same'.trans same⟩

/-! ## The laws -/

/-- How prunes of one validator go together on a ledger. -/
structure PruneLaws (id : ValidatorId) (t : Table Bytes) : Prop where
  /-- A second prune changes nothing. -/
  twice : ∀ e p, e ≠ 0 → p ≠ 0 → ∃ left, Prunes id e p t left ∧ Prunes id e p left left
  /-- Two prunes leave the same in either order. -/
  commute : ∀ e p e' p', e ≠ 0 → p ≠ 0 → e' ≠ 0 → p' ≠ 0 → ∃ one other left,
    Prunes id e p t one ∧ Prunes id e' p' one left ∧
      Prunes id e' p' t other ∧ Prunes id e p other left
  /-- With one length of epochs, two prunes are the one that keeps fewer of them. -/
  fewer : ∀ e e' p, e ≠ 0 → e' ≠ 0 → p ≠ 0 → ∃ one left,
    Prunes id e p t one ∧ Prunes id e' p one left ∧ Prunes id (min e e') p t left
  /-- After attempts that were cut anywhere, a prune leaves what it leaves without them. -/
  resumed : ∀ e p attempts, e ≠ 0 → p ≠ 0 → ∃ left,
    Prunes id e p t left ∧ Prunes id e p (leftByAttempts id e p attempts t) left
  /-- Under a floor that is above all records of a kind, the first prune leaves none of them. -/
  emptied : ∀ e p kind floor, e ≠ 0 → p ≠ 0 → (t.account id).floorOf kind = some floor →
    (∀ n ∈ (t.account id).recorded kind, n < floor) → ∃ left,
      Prunes id e p t left ∧ (left.account id).recorded kind = ∅
  /-- Without floors nothing changes. -/
  unfloored : ∀ e p, e ≠ 0 → p ≠ 0 → (∀ kind, (t.account id).floorOf kind = none) →
    Prunes id e p t t

/-- On a regular ledger the prunes of each validator keep the laws. -/
theorem pruneLaws (regular : t.Regular) (id : ValidatorId) : PruneLaws id t := by
  have legible := regular.toLegible
  constructor
  case twice =>
    intro e p he hp
    have again := prunes_pruned (regular.pruned id e p) id he hp
    rw [Table.pruned_pruned legible he he, Word.min_self] at again
    exact ⟨t.pruned id e p, prunes_pruned regular id he hp, again⟩
  case commute =>
    intro e p e' p' he hp he' hp'
    have first := prunes_pruned (regular.pruned id e p) id he' hp'
    have second := prunes_pruned (regular.pruned id e' p') id he hp
    rw [← Table.pruned_comm legible he he'] at second
    exact ⟨_, _, _, prunes_pruned regular id he hp, first, prunes_pruned regular id he' hp', second⟩
  case fewer =>
    intro e e' p he he' hp
    have both := prunes_pruned (regular.pruned id e p) id he' hp
    rw [Table.pruned_pruned legible he he'] at both
    exact ⟨_, _, prunes_pruned regular id he hp, both,
      prunes_pruned regular id (Word.min_ne_zero he he') hp⟩
  case resumed =>
    intro e p attempts he hp
    obtain ⟨regular', same⟩ := pruned_leftByAttempts regular id he hp attempts
    have after := prunes_pruned regular' id he hp
    rw [same] at after
    exact ⟨_, prunes_pruned regular id he hp, after⟩
  case emptied =>
    intro e p kind floor he hp hf below
    exact ⟨_, prunes_pruned regular id he hp, Table.recorded_pruned_of_lt legible hf below e p⟩
  case unfloored =>
    intro e p he hp none
    have same := Table.pruned_of_floors_none none e p
    have prunes := prunes_pruned regular id he hp
    rwa [same] at prunes

/-- A ledger with two blocks and two votes of its one validator. -/
def signedTwice : Table Bytes :=
  (votedTwice.recordBlock ⟨1⟩ 4 ⟨[5]⟩).recordBlock ⟨1⟩ 7 ⟨[4]⟩

/-- One attempt ends when the slot floor is raised, the next when all floors are but a vote below
    them is left; the prune that is not cut makes up for both. -/
theorem pruneLaws_signedTwice :
    let c : Context := ⟨⟨.standard, [], []⟩, .zero⟩
    let cut (calls : Nat) : Context × Store.FaultSchedule :=
      (c, List.replicate calls none ++ [some (.io "full")])
    let left := leftByAttempts ⟨1⟩ 1 1 [cut 7, cut 16] signedTwice
    signedTwice.Regular ∧ (left.account ⟨1⟩).targetFloor = some 8 ∧
      left.contains (Place.attestation ⟨1⟩ 3).bytes ∧
      ((pruneValidator ⟨1⟩ 1 1).onTable c left).2.2 =
        ((pruneValidator ⟨1⟩ 1 1).onTable c signedTwice).2.2 := by
  have wf : votedTwice.WellFormed :=
    ((Table.WellFormed.empty.enroll ⟨[1]⟩ 1).recordVote rfl (by decide) _).recordVote rfl
      (by decide) _
  have regular : signedTwice.Regular :=
    ((wf.recordBlock rfl 4 ⟨[5]⟩).recordBlock rfl 7 ⟨[4]⟩).regular
  have free : Frees ⟨.standard, [], []⟩ ⟨1⟩ := nofun
  obtain ⟨left, once, resumed⟩ := (pruneLaws regular ⟨1⟩).resumed 1 1
    [(⟨⟨.standard, [], []⟩, .zero⟩, List.replicate 7 none ++ [some (.io "full")]),
      (⟨⟨.standard, [], []⟩, .zero⟩, List.replicate 16 none ++ [some (.io "full")])]
    (by decide) (by decide)
  obtain ⟨_, _, first⟩ := once ⟨⟨.standard, [], []⟩, .zero⟩ free
  obtain ⟨_, _, again⟩ := resumed ⟨⟨.standard, [], []⟩, .zero⟩ free
  refine ⟨regular, by decide +kernel, by decide +kernel, ?_⟩
  rw [first]
  exact congrArg (fun ends => ends.2.2) again

end Guard

end SlashingGuard
