import SlashingGuard.Proofs.Guard.Operation
import SlashingGuard.Proofs.Guard.ServicePrune
import SlashingGuard.Proofs.Interchange.Failure

/-! # How an operation fails

    Where no call fails and no lock is held, an operation on a ledger that is
    well formed never runs into an error of the ledger.  What it can still be
    refused for is in what it was asked: a key that is no public key, a key
    that the guard does not know, tunables that are zero, a document to
    import, or a sink that does not take the export. -/

namespace SlashingGuard

namespace Operation

open GuardWork

/-- Why an operation that is asked of a guard still fails where no call fails and no lock is
    held. -/
inductive RefusedFor (g : Guard) : Operation → GuardError → Prop where
  | wrongKeyLength {keys : List PublicKey} {key : PublicKey} : key ∈ keys → key.isBls = false →
    RefusedFor g (.register keys) (.wrongKeyLength key)
  | unknownBlockKey {key : PublicKey} {slot : Slot} {root : SigningRoot} :
    g.validatorId? key = none → RefusedFor g (.signBlock key slot root) (.unknownKey key)
  | unknownVoteKey {key : PublicKey} {vote : Vote} {root : SigningRoot} :
    g.validatorId? key = none → RefusedFor g (.signAttestation key vote root) (.unknownKey key)
  | noEpochs {id : ValidatorId} {slotsPerEpoch : UInt64} :
    RefusedFor g (.pruneValidator id 0 slotsPerEpoch) (.configuration .noEpochs)
  | noSlots {id : ValidatorId} {epochsToKeep : UInt64} : epochsToKeep ≠ 0 →
    RefusedFor g (.pruneValidator id epochsToKeep 0) (.configuration .noSlots)
  | sink {sink : Sink} {e : GuardError} : sink.Reports e → RefusedFor g (.exportTo sink) e
  | importUnsupported : RefusedFor g .importDocument .importUnsupported

/-- None of these is an error of the ledger: no fault of the store, no breach of a rule, and
    nothing that cannot be read. -/
theorem RefusedFor.ne_ledger {g : Guard} {op : Operation} {e : GuardError}
    (h : RefusedFor g op e) (error : LedgerError) : e ≠ .ledger error := by
  cases h with
  | sink reports => cases reports <;> nofun
  | _ => nofun

end Operation

/-! ## Requests -/

namespace Guard

open GuardWork

variable {c : Context} {t : Table Bytes}

/-- A guard that a sound world has: no lock of it is held, it knows keys by numbers that are
    registered, and its settings are usable. -/
structure Ready (g : Guard) (t : Table Bytes) : Prop where
  idle : g.held = []
  registered : ∀ key id, g.validatorId? key = some id → t.isRegistered id
  checked : g.config.check = .ok ()

theorem Ready.frees {g : Guard} (ready : g.Ready t) (id : ValidatorId) : g.Frees id :=
  frees_of_idle ready.idle id

/-- A prune of all validators succeeds where no lock is held. -/
theorem prune_succeeds (regular : t.Regular) (ready : c.guard.Ready t) :
    Always False prune c t fun r _ _ => ∃ total, r = .ok total := by
  have checked : c.guard.config.pruning.check = .ok () := by
    have checked := ready.checked
    unfold GuardConfig.check at checked
    split at checked
    · contradiction
    · exact checked
  obtain ⟨he, hp⟩ := tunables_of_check checked
  unfold prune
  rw [always_theGuard_bind]
  refine always_bind.2 (always_conclude.2 ?_)
  rw [checked]
  refine (always_pruneAll regular he hp (nodup_eraseDups _) _).mono fun r _ _ ends => ?_
  cases r with
  | ok total => exact ⟨total, rfl⟩
  | error _ => exact (ends.2 fun id _ => ready.frees id).elim

end Guard

/-! ## Operations -/

namespace Operation

open GuardWork

variable {c : Context} {t : Table Bytes}

/-- A request for a duty ends in a decision, unless its key is not known. -/
theorem always_answer_refused (ready : c.guard.Ready t) {kind : DutyKind} {key : PublicKey}
    {decide : ValidatorId → LedgerWork Decision} {refused : GuardError → Prop}
    (unknown : c.guard.validatorId? key = none → refused (.unknownKey key))
    (decides : ∀ id, t.isRegistered id →
      (decide id).run.Always False t fun r _ => ∃ decision, r = .ok decision) :
    Always False (Guard.answer kind key decide) c t fun r _ _ =>
      ∀ e, r = .error e → refused e := by
  apply Guard.always_answer
  · intro _
    exact nofun
  · intro unresolved e same
    obtain rfl := Except.error.inj same
    exact unknown unresolved
  · intro id _ held
    exact absurd held (ready.frees id kind)
  · intro id _ known
    refine (decides id (ready.registered key id known)).mono ?_
    rintro r t' ⟨decision, rfl⟩
    exact nofun

/-- What becomes of an operation on a well-formed ledger where no call fails and no lock is held:
    if it fails, then for what it was asked. -/
theorem always_refusedFor (wf : t.WellFormed) (ready : c.guard.Ready t) (op : Operation) :
    Always False op.perform c t fun reply _ _ =>
      ∀ e, reply = .error e → RefusedFor c.guard op e := by
  -- An error of the work is the error of the reply.
  have replies : ∀ {α : Type} {w : GuardWork α} {reply : α → Reply},
      (Always False w c t fun r _ _ => ∀ e, r = .error e → RefusedFor c.guard op e) →
        Always False (w >>= fun a => pure (reply a)) c t fun r _ _ =>
          ∀ e, r = .error e → RefusedFor c.guard op e := by
    intro α w reply always
    refine always_reply (always.mono fun r _ _ refused e failed => ?_)
    cases r with
    | ok a => contradiction
    | error e' =>
      obtain rfl : e' = e := Except.error.inj failed
      exact refused e' rfl
  cases op with
  | register keys =>
    refine replies (Guard.always_register wf keys ?_ (fun _ => nofun) fun no => no.elim)
    intro key member short e same
    obtain rfl := Except.error.inj same
    exact .wrongKeyLength member short
  | signBlock key slot root =>
    refine replies (always_answer_refused ready .unknownBlockKey fun id registered => ?_)
    refine Ledger.always_signBlock wf (fun _ _ => ⟨_, rfl⟩) (fun _ _ => ⟨_, rfl⟩)
      (fun _ _ _ => ⟨_, rfl⟩) (fun gone _ => ?_) fun no => no.elim
    rw [registered] at gone
    contradiction
  | signAttestation key vote root =>
    refine replies (always_answer_refused ready .unknownVoteKey fun id registered => ?_)
    refine Ledger.always_signAttestation wf (fun _ _ => ⟨_, rfl⟩) (fun _ _ => ⟨_, rfl⟩)
      (fun _ _ _ => ⟨_, rfl⟩) (fun gone _ => ?_) fun no => no.elim
    rw [registered] at gone
    contradiction
  | prune =>
    refine replies ((Guard.prune_succeeds wf.regular ready).mono ?_)
    rintro r _ _ ⟨total, rfl⟩
    exact nofun
  | pruneValidator id epochsToKeep slotsPerEpoch =>
    apply replies
    by_cases he : epochsToKeep = 0
    · subst he
      intro e same
      obtain rfl := Except.error.inj same
      exact .noEpochs
    · by_cases hp : slotsPerEpoch = 0
      · subst hp
        unfold Guard.pruneValidator
        refine always_bind.2 (always_conclude.2 ?_)
        rw [checkTunables, if_neg he, if_pos rfl]
        intro e same
        obtain rfl := Except.error.inj same
        exact .noSlots he
      · refine (Guard.always_pruneValidator wf.regular he hp).mono ?_
        rintro r _ _ ⟨-, done⟩ e rfl
        exact (done.1 (ready.frees id)).elim
  | exportTo sink =>
    have fails := Interchange.reports_exportAll wf.legible ready.idle sink
    refine always_bind.2 (always_lift.2 (Program.Always.mono fails ?_))
    rintro ⟨⟨r, s⟩, c'⟩ t' reports e failed
    cases r with
    | ok _ => contradiction
    | error e' =>
      obtain rfl : e' = e := Except.error.inj failed
      exact .sink (reports e' rfl)
  | importDocument =>
    intro e same
    obtain rfl := Except.error.inj same
    exact .importUnsupported

end Operation

end SlashingGuard
