import SlashingGuard.Proofs.Guard.Operation
import SlashingGuard.Proofs.Ledger.KeptNumbers

/-! # What an operation leaves on any table

    On a ledger that can be read it is known to the record what an operation
    does.  Here nothing is assumed of the table.  What remains is enough to
    know a guard by its ledger: only a registration that succeeded makes keys
    known, each by the number that it then has in the table, and whatever else
    is asked leaves the guard, the numbers of keys and the counter. -/

namespace SlashingGuard

namespace Guard

open GuardWork

variable {faulty : Prop} {c : Context} {t : Table Bytes}

theorem keepsNumbers_answer {kind : DutyKind} {key : PublicKey}
    {decide : ValidatorId → LedgerWork Decision}
    (h : ∀ id, (decide id).run.Always faulty t fun _ t' => t.KeepsNumbers t') :
    Always faulty (answer kind key decide) c t fun _ c' t' =>
      c'.guard = c.guard ∧ t.KeepsNumbers t' := by
  refine always_answer (fun _ => ⟨rfl, .refl t⟩) (fun _ => ⟨rfl, .refl t⟩)
    (fun _ _ _ => ⟨rfl, .refl t⟩) fun id _ _ => (h id).mono fun r t' kept => ?_
  cases r with
  | ok decision => exact ⟨rfl, kept⟩
  | error e => exact ⟨rfl, kept⟩

theorem keepsNumbers_pruneHalf {lock : LockName} {work : LedgerWork (Option UInt64 × Nat)}
    (h : work.run.Always faulty t fun _ t' => t.KeepsNumbers t') :
    Always faulty (pruneHalf lock work) c t fun _ c' t' =>
      c'.guard = c.guard ∧ t.KeepsNumbers t' := by
  refine always_pruneHalf (fun _ => ⟨rfl, .refl t⟩) (h.mono fun r t' kept => ?_)
  cases r with
  | ok result => exact ⟨rfl, kept⟩
  | error e => exact ⟨rfl, kept⟩

theorem keepsNumbers_pruneValidator (id : ValidatorId) (epochsToKeep slotsPerEpoch : UInt64) :
    Always faulty (pruneValidator id epochsToKeep slotsPerEpoch) c t fun _ c' t' =>
      c'.guard = c.guard ∧ t.KeepsNumbers t' := by
  unfold pruneValidator
  refine always_bind.2 (always_conclude.2 ?_)
  split
  · refine always_bind.2 ((keepsNumbers_pruneHalf (Ledger.keepsNumbers_pruneBlocks id _)).mono ?_)
    rintro (e | blocks) c' t' ⟨same, kept⟩
    · exact ⟨same, kept⟩
    · refine always_bind.2
        ((keepsNumbers_pruneHalf (Ledger.keepsNumbers_pruneAttestations id _)).mono ?_)
      rintro (e | attestations) c'' t'' ⟨same', kept'⟩
      · exact ⟨same'.trans same, kept.trans kept'⟩
      · exact ⟨same'.trans same, kept.trans kept'⟩
  · exact ⟨rfl, .refl t⟩

theorem keepsNumbers_pruneAll (epochsToKeep slotsPerEpoch : UInt64) (summary : PruneSummary)
    (ids : List ValidatorId) :
    Always faulty (pruneAll epochsToKeep slotsPerEpoch summary ids) c t fun _ c' t' =>
      c'.guard = c.guard ∧ t.KeepsNumbers t' := by
  induction ids generalizing c t summary with
  | nil => exact always_pure.2 ⟨rfl, .refl t⟩
  | cons id rest ih =>
    unfold pruneAll
    refine always_bind.2 ((keepsNumbers_pruneValidator id _ _).mono ?_)
    rintro (e | outcome) c' t' ⟨same, kept⟩
    · exact ⟨same, kept⟩
    · refine (ih (summary.record outcome)).mono ?_
      rintro r c'' t'' ⟨same', kept'⟩
      exact ⟨same'.trans same, kept.trans kept'⟩

theorem keepsNumbers_prune :
    Always faulty prune c t fun _ c' t' => c'.guard = c.guard ∧ t.KeepsNumbers t' := by
  unfold prune
  rw [always_theGuard_bind]
  refine always_bind.2 (always_conclude.2 ?_)
  split
  · exact keepsNumbers_pruneAll _ _ _ _
  · exact ⟨rfl, .refl t⟩

/-- Registration on any table: all keys have their numbers and the guard knows them, or nothing
    has changed. -/
theorem always_register_or (keys : List PublicKey)
    {Q : Except GuardError Unit → Context → Table Bytes → Prop}
    (done : (∀ key ∈ keys, key.isBls) →
      Q (.ok ()) { c with guard := c.guard.knowAll (keys.zip (t.registerKeys keys).2) }
        (t.registerKeys keys).1)
    (failed : ∀ e, Q (.error e) c t) : Always faulty (register keys) c t Q := by
  unfold register
  cases invalid : keys.find? fun key => !key.isBls with
  | some key => exact always_throw.2 (failed _)
  | none =>
    have bls : ∀ key ∈ keys, key.isBls := by simpa using invalid
    refine always_bind.2 (always_ledger.2 (Ledger.always_registerAll_or keys ?_ ?_))
    · exact always_modifyGuard.2 (done bls)
    · exact fun e => failed _

end Guard

namespace Operation

open GuardWork

variable {faulty : Prop} {c : Context} {t : Table Bytes}

/-- On any table, an operation is a registration that succeeded, or it leaves the guard, the
    numbers of keys and the counter. -/
theorem always_perform_or (op : Operation) :
    Always faulty op.perform c t fun reply c' t' =>
      (∃ keys, op = .register keys ∧ (∀ key ∈ keys, key.isBls) ∧ reply = .ok .done ∧
        c'.guard = c.guard.knowAll (keys.zip (t.registerKeys keys).2) ∧
          t' = (t.registerKeys keys).1) ∨
      ((∀ keys r, op = .register keys → reply ≠ .ok r) ∧ c'.guard = c.guard ∧
        t.KeepsNumbers t') := by
  cases op with
  | register keys =>
    refine always_reply (Guard.always_register_or keys (fun bls => ?_) fun e => ?_)
    · exact .inl ⟨keys, rfl, bls, rfl, rfl, rfl⟩
    · exact .inr ⟨nofun, rfl, .refl t⟩
  | signBlock key slot root =>
    refine always_reply ((Guard.keepsNumbers_answer fun id => ?_).mono fun r c' t' kept =>
      .inr ⟨nofun, kept⟩)
    exact Ledger.keepsNumbers_atomically (Ledger.keepsNumbers_decideBlock id slot root) _
  | signAttestation key vote root =>
    refine always_reply ((Guard.keepsNumbers_answer fun id => ?_).mono fun r c' t' kept =>
      .inr ⟨nofun, kept⟩)
    exact Ledger.keepsNumbers_atomically (Ledger.keepsNumbers_decideAttestation id vote root) _
  -- What is left writes records and floors, or nothing.
  | prune => exact always_reply (Guard.keepsNumbers_prune.mono fun _ _ _ kept => .inr ⟨nofun, kept⟩)
  | pruneValidator id epochsToKeep slotsPerEpoch =>
    exact always_reply ((Guard.keepsNumbers_pruneValidator id _ _).mono fun _ _ _ kept =>
      .inr ⟨nofun, kept⟩)
  | exportTo sink =>
    refine always_bind.2 (always_lift.2 ((Interchange.quiet_exportAll faulty sink c t).mono ?_))
    rintro ⟨⟨r, s⟩, c'⟩ t' ⟨rfl, rfl⟩
    exact .inr ⟨nofun, rfl, .refl _⟩
  | importDocument => exact .inr ⟨nofun, rfl, .refl t⟩

end Operation

end SlashingGuard
