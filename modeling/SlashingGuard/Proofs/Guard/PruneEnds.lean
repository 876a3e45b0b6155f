import SlashingGuard.Proofs.Guard.Requests
import SlashingGuard.Proofs.Ledger.RecordCount

/-! # Ends of prunes

    A prune of one validator is done, and then its outcome tells what it did
    and the counters have grown by it; or it stops in one of its halves.  It
    stops for a lock that is held or a call that fails.  The half in which it
    stops has counted nothing and removed nothing, at most it has raised a
    floor; a half before it has been done and counted. -/

namespace SlashingGuard

/-! ## Halves -/

/-- How half a prune of the ledger `t` ends, and what it leaves. -/
inductive Table.HalfEnds (faulty : Prop) (t : Table Bytes) (id : ValidatorId) (kind : DutyKind)
    (keep : UInt64) : Except LedgerError (Option UInt64 × Nat) → Table Bytes → Prop where
  | done : HalfEnds faulty t id kind keep (.ok (t.mark id kind keep, t.removed id kind keep))
    (t.pruneHalf id kind keep)
  | failed {x : StoreFault} {u : Table Bytes} : faulty → t.HalfCut id kind keep u →
    HalfEnds faulty t id kind keep (.error (.store x)) u

namespace Table.HalfEnds

variable {faulty : Prop} {t : Table Bytes} {id : ValidatorId} {kind : DutyKind} {keep : UInt64}

theorem of_mark_none (h : t.mark id kind keep = none) :
    HalfEnds faulty t id kind keep (.ok (none, 0)) t := by
  have ends : HalfEnds faulty t id kind keep _ _ := .done
  have nothing : t.removed id kind keep = 0 := by rw [removed, h]
  rwa [h, nothing, pruneHalf_of_none h] at ends

theorem of_mark_some {m : UInt64} (h : t.mark id kind keep = some m) :
    HalfEnds faulty t id kind keep
      (.ok (some m, (t.raiseFloor id kind m).countBelow kind.family id m)) (t.trim id kind m) := by
  have ends : HalfEnds faulty t id kind keep _ _ := .done
  have count : t.removed id kind keep = (t.raiseFloor id kind m).countBelow kind.family id m := by
    rw [countBelow_raiseFloor, removed, h]
  rwa [h, count, pruneHalf_of_some h] at ends

end Table.HalfEnds

namespace Ledger

variable {faulty : Prop} {t : Table Bytes}

theorem always_pruneBlocks_ends (regular : t.Regular) (id : ValidatorId) (keep : UInt64) :
    (pruneBlocks id keep).run.Always faulty t (t.HalfEnds faulty id .block keep) := by
  have marks : ∀ {m}, t.slotMark id keep = m → t.mark id .block keep = m := fun marked => marked
  apply always_pruneBlocks regular
  · intro nothing
    exact .of_mark_none (marks nothing)
  · intro mark marked
    exact .of_mark_some (marks marked)
  · intro fault _
    exact .failed fault .untouched
  · intro fault _ mark marked
    rw [← Table.raiseFloor_block]
    exact .failed fault (.raised (marks marked))

theorem always_pruneAttestations_ends (regular : t.Regular) (id : ValidatorId)
    (keep : UInt64) :
    (pruneAttestations id keep).run.Always faulty t (t.HalfEnds faulty id .attestation keep) := by
  have marks : ∀ {m}, t.epochMark id keep = m → t.mark id .attestation keep = m :=
    fun marked => marked
  apply always_pruneAttestations regular
  · intro nothing
    exact .of_mark_none (marks nothing)
  · intro mark marked
    exact .of_mark_some (marks marked)
  · intro fault _
    exact .failed fault .untouched
  · intro fault _ mark marked
    rw [← Table.raiseFloor_attestation]
    exact .failed fault (.raised (marks marked))

end Ledger

namespace Guard

open GuardWork

/-! ## Prunes of one validator -/

/-- What stops a prune of a validator: a lock of it that is held, or a call that fails. -/
inductive Stops (faulty : Prop) (g : Guard) (id : ValidatorId) : GuardError → Prop where
  | locked {kind : DutyKind} : (id, kind) ∈ g.held →
    Stops faulty g id (.ledger (.lockTimeout id kind g.config.lockTimeout))
  | failed {x : StoreFault} : faulty → Stops faulty g id (.ledger (.store x))

/-- Where no lock is in the way, it is a call that failed. -/
theorem Stops.of_frees {faulty : Prop} {g : Guard} {id : ValidatorId} {error : GuardError}
    (h : Stops faulty g id error) (free : g.Frees id) :
    faulty ∧ ∃ x, error = .ledger (.store x) := by
  cases h with
  | locked held => exact absurd held (free _)
  | failed fault => exact ⟨fault, _, rfl⟩

/-- The context after the removed records of a kind were counted. -/
def countedPruned (c : Context) (kind : DutyKind) (removed : Nat) : Context :=
  { c with metrics := c.metrics.countPruned kind removed }

/-- How a prune of one validator ends, with the context and the ledger that it leaves. -/
inductive PruneEnds (faulty : Prop) (c : Context) (t : Table Bytes) (id : ValidatorId)
    (epochsToKeep slotsPerEpoch : UInt64) :
    Except GuardError PruneOutcome → Context → Table Bytes → Prop where
  | done : PruneEnds faulty c t id epochsToKeep slotsPerEpoch
    (.ok (t.outcome id epochsToKeep slotsPerEpoch))
    (countedPruned
      (countedPruned c .block (t.removed id .block (slotsKept epochsToKeep slotsPerEpoch)))
      .attestation (t.removed id .attestation epochsToKeep))
    (t.pruned id epochsToKeep slotsPerEpoch)
  | inBlocks {error : GuardError} {u : Table Bytes} : Stops faulty c.guard id error →
    t.HalfCut id .block (slotsKept epochsToKeep slotsPerEpoch) u →
      PruneEnds faulty c t id epochsToKeep slotsPerEpoch (.error error) c u
  | inAttestations {error : GuardError} {u : Table Bytes} : Stops faulty c.guard id error →
    (t.pruneHalf id .block (slotsKept epochsToKeep slotsPerEpoch)).HalfCut id .attestation
      epochsToKeep u →
      PruneEnds faulty c t id epochsToKeep slotsPerEpoch (.error error)
        (countedPruned c .block (t.removed id .block (slotsKept epochsToKeep slotsPerEpoch))) u

variable {faulty : Prop} {c c' : Context} {t t' : Table Bytes} {id : ValidatorId} {e p : UInt64}

/-- No end of a prune changes the guard. -/
theorem PruneEnds.guard_eq {r : Except GuardError PruneOutcome}
    (h : PruneEnds faulty c t id e p r c' t') : c'.guard = c.guard := by
  cases h <;> rfl

/-- A prune of one validator ends in one of these ways. -/
theorem always_pruneValidator_ends (regular : t.Regular) (he : e ≠ 0) (hp : p ≠ 0) :
    Always faulty (pruneValidator id e p) c t (PruneEnds faulty c t id e p) := by
  unfold pruneValidator
  refine always_bind.2 (always_conclude.2 ?_)
  rw [checkTunables_eq_ok_iff.2 ⟨he, hp⟩]
  refine always_bind.2 (always_pruneHalf (fun held => .inBlocks (.locked held) .untouched) ?_)
  refine (Ledger.always_pruneBlocks_ends regular id _).mono fun r t' half => ?_
  cases half with
  | failed fault cut => exact .inBlocks (.failed fault) cut
  | done =>
    -- The half for attestations finds the guard as it was.
    refine always_bind.2
      (always_pruneHalf (fun held => .inAttestations (.locked held) .untouched) ?_)
    have left := regular.pruneHalf id .block (slotsKept e p)
    refine (Ledger.always_pruneAttestations_ends left id e).mono fun r t'' half => ?_
    cases half with
    | failed fault cut => exact .inAttestations (.failed fault) cut
    | done =>
      have ne : DutyKind.attestation ≠ .block := nofun
      have ends : PruneEnds faulty c t id e p _ _ _ := .done
      rw [Table.outcome, ← Table.removed_pruneHalf_of_ne regular.toLegible ne,
        ← Table.mark_pruneHalf_of_ne regular.toLegible ne] at ends
      exact ends

/-- A prune that no fault and no lock is in the way of is done. -/
theorem onTable_pruneValidator (regular : t.Regular) (he : e ≠ 0) (hp : p ≠ 0)
    (free : c.guard.Frees id) : ∃ c', c'.guard = c.guard ∧
      (pruneValidator id e p).onTable c t = (.ok (t.outcome id e p), c', t.pruned id e p) := by
  have always : Always False (pruneValidator id e p) c t _ :=
    always_pruneValidator_ends regular he hp
  refine Always.onTable_eq (always.mono fun r c' t' ends => ⟨ends.guard_eq, ?_⟩)
  cases ends with
  | done => exact ⟨rfl, rfl⟩
  | inBlocks stops _ => exact (stops.of_frees free).1.elim
  | inAttestations stops _ => exact (stops.of_frees free).1.elim

/-- With tunables that are zero a prune is refused before its first call. -/
theorem run_pruneValidator_refused (c : Context) (zero : e = 0 ∨ p = 0) :
    (pruneValidator id e p).run.run c =
      .done (.error (.configuration (if e = 0 then .noEpochs else .noSlots)), c) := by
  have refused : checkTunables e p = .error (if e = 0 then .noEpochs else .noSlots) := by
    by_cases he : e = 0
    · rw [checkTunables, if_pos he, if_pos he]
    · rw [checkTunables, if_neg he, if_neg he, if_pos (zero.resolve_left he)]
  unfold pruneValidator
  rw [refused]
  rfl

end Guard

end SlashingGuard
