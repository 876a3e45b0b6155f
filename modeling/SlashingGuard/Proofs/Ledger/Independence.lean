import SlashingGuard.Proofs.Ledger.Decision
import SlashingGuard.Proofs.Ledger.Footprint

/-! # Work under different locks is independent

    Decisions and the halves of prunes are what guards do under locks.  Two
    units of such work whose locks differ do not interfere, even if both are
    of one validator: whatever the order in which their reads and commits
    reach the store, each gives the answer that it would give alone, and the
    ledger left is that of one after the other. -/

namespace SlashingGuard

/-! ## Units of work -/

/-- Work that a guard does under one lock. -/
inductive LockedWork where
  | signBlock (id : ValidatorId) (slot : Slot) (root : SigningRoot)
  | signAttestation (id : ValidatorId) (vote : Vote) (root : SigningRoot)
  | pruneBlocks (id : ValidatorId) (keep : UInt64)
  | pruneAttestations (id : ValidatorId) (keep : UInt64)
  deriving DecidableEq

namespace LockedWork

/-- The lock that is held for the work. -/
def lock : LockedWork → LockName
  | .signBlock id _ _ => (id, .block)
  | .signAttestation id _ _ => (id, .attestation)
  | .pruneBlocks id _ => (id, .block)
  | .pruneAttestations id _ => (id, .attestation)

/-- What the work answers: a decision, or a floor with a number of records removed. -/
@[reducible] def Answer : LockedWork → Type
  | .signBlock _ _ _ => Decision
  | .signAttestation _ _ _ => Decision
  | .pruneBlocks _ _ => Option Slot × Nat
  | .pruneAttestations _ _ => Option Epoch × Nat

def perform : (w : LockedWork) → LedgerWork w.Answer
  | .signBlock id slot root => Ledger.signBlock id slot root
  | .signAttestation id vote root => Ledger.signAttestation id vote root
  | .pruneBlocks id keep => Ledger.pruneBlocks id keep
  | .pruneAttestations id keep => Ledger.pruneAttestations id keep

theorem confined_perform (w : LockedWork) : w.perform.run.Confined w.lock fun _ => True := by
  cases w with
  | signBlock id slot root =>
    exact LedgerWork.confined_atomically (Ledger.confined_decideBlock id slot root) _
  | signAttestation id vote root =>
    exact LedgerWork.confined_atomically (Ledger.confined_decideAttestation id vote root) _
  | pruneBlocks id keep =>
    exact Ledger.confined_pruneBelow (Ledger.confined_raiseForBlocks id keep)
      (Ledger.confined_deleteBelow .block .block id)
  | pruneAttestations id keep =>
    exact Ledger.confined_pruneBelow (Ledger.confined_raiseForAttestations id keep)
      (Ledger.confined_deleteBelow .attestation .attestation id)

/-- How the work ends on a ledger: its answer, and the ledger left. -/
def onTable (w : LockedWork) (t : Table Bytes) : Except LedgerError w.Answer × Table Bytes :=
  w.perform.onTable t

/-- The calls that the work makes on a ledger, in order. -/
def calls (w : LockedWork) (t : Table Bytes) : List Store.Call :=
  (w.perform.run.exchanges [] t).map Store.Exchange.call

/-- Serves the calls of two units of work in the order of turns: both answers, and the ledger
    left. -/
def interleave (turns : List Turn) (w w' : LockedWork) (t : Table Bytes) :
    (Except LedgerError w.Answer × Except LedgerError w'.Answer) × Table Bytes :=
  w.perform.run.interleave turns w'.perform.run t

/-- What one unit of work is to another on a ledger: it changes keys of its own lock alone, and
    answers and calls as if the other had not been there before. -/
structure Unmoved (w other : LockedWork) (t : Table Bytes) : Prop where
  own : ∀ call ∈ w.calls t, ∀ change ∈ call.batch, w.lock.Owns change.key
  answer : (w.onTable (other.onTable t).2).1 = (w.onTable t).1
  calls : w.calls (other.onTable t).2 = w.calls t

variable {w w' : LockedWork} {t : Table Bytes}

theorem unmoved_of_lock_ne (legible : t.Legible) (differ : w.lock ≠ w'.lock) :
    w.Unmoved w' t := by
  have start := Merged.refl w'.lock w.lock legible
  obtain ⟨-, -, other⟩ := w'.confined_perform.run (Ne.symm differ) start
  obtain ⟨answer, calls, -⟩ := w.confined_perform.run differ other.symm
  refine ⟨?_, answer, congrArg (List.map Store.Exchange.call) calls⟩
  intro call made change member
  obtain ⟨e, he, rfl⟩ := List.mem_map.1 made
  exact w.confined_perform.owns legible e he change member

/-- Units of work under different locks do not interfere on a legible ledger: neither moves the
    other, and in whatever order their calls are served, they give the answers and leave the ledger
    of the one before the other, which are those of the other before the one. -/
theorem independent_of_lock_ne (legible : t.Legible) (differ : w.lock ≠ w'.lock) :
    w.Unmoved w' t ∧ w'.Unmoved w t ∧ ∀ turns,
      interleave turns w w' t =
        (((w.onTable t).1, (w'.onTable (w.onTable t).2).1), (w'.onTable (w.onTable t).2).2) ∧
      interleave turns w w' t =
        (((w.onTable (w'.onTable t).2).1, (w'.onTable t).1), (w.onTable (w'.onTable t).2).2) := by
  have unmoved := unmoved_of_lock_ne legible differ
  have unmoved' := unmoved_of_lock_ne legible (Ne.symm differ)
  refine ⟨unmoved, unmoved', ?_⟩
  intro turns
  have start := Merged.refl w.lock w'.lock legible
  obtain ⟨answers, left⟩ := w.confined_perform.interleave w'.confined_perform differ start turns
  -- Both orders without turns leave ledgers that are made up of the same parts.
  obtain ⟨-, -, first⟩ := w.confined_perform.run differ start
  obtain ⟨-, -, firstSecond⟩ := w'.confined_perform.run (Ne.symm differ) first.symm
  obtain ⟨-, -, second⟩ := w'.confined_perform.run (Ne.symm differ) start.symm
  obtain ⟨-, -, secondFirst⟩ := w.confined_perform.run differ second.symm
  constructor
  · apply Prod.ext
    · rw [unmoved'.answer]
      exact answers
    · exact left.unique firstSecond.symm differ
  · apply Prod.ext
    · rw [unmoved.answer]
      exact answers
    · exact left.unique secondFirst differ

/-- A ledger with a block and two votes of its one validator. -/
def signedBoth : Table Bytes :=
  (((Table.empty.enroll ⟨[1]⟩ 1).recordBlock ⟨1⟩ 5 ⟨[7]⟩).recordVote ⟨1⟩ ⟨2, 3⟩ ⟨[6]⟩).recordVote
    ⟨1⟩ ⟨3, 8⟩ ⟨[5]⟩

/-- Turn by turn, the floors are raised and a vote is deleted while a block is decided. -/
theorem independent_of_lock_ne_signedBoth :
    let prune := LockedWork.pruneAttestations ⟨1⟩ 1
    let sign := LockedWork.signBlock ⟨1⟩ 9 ⟨[4]⟩
    let turns := [.first, .second, .first, .second, .second, .first, .first, .second, .first]
    signedBoth.Legible ∧ prune.lock ≠ sign.lock ∧
      (interleave turns prune sign signedBoth).1 = (.ok (some 8, 1), .ok .permit) ∧
      (interleave turns prune sign signedBoth).2 =
        (sign.onTable (prune.onTable signedBoth).2).2 := by
  have wf : signedBoth.WellFormed :=
    (((Table.WellFormed.empty.enroll ⟨[1]⟩ 1).recordBlock rfl 5 _).recordVote rfl
      (by decide) _).recordVote rfl (by decide) _
  have differ : (LockedWork.pruneAttestations ⟨1⟩ 1).lock ≠
      (LockedWork.signBlock ⟨1⟩ 9 ⟨[4]⟩).lock := by decide
  obtain ⟨-, -, ordered⟩ := independent_of_lock_ne wf.legible differ
  exact ⟨wf.legible, differ, by decide +kernel, congrArg Prod.snd (ordered _).1⟩

end LockedWork

end SlashingGuard
