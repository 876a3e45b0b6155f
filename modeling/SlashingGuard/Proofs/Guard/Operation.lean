import SlashingGuard.Proofs.Guard.Requests
import SlashingGuard.Proofs.Interchange.Export

/-! # Operations of a guard

    The seven things that may be asked of a guard, as one type.  What an
    operation can have done is said once, case by case, with the answer it
    gave; everything about runs of operations is derived from these cases. -/

namespace SlashingGuard

/-- What may be asked of a guard. -/
inductive Operation where
  | register (keys : List PublicKey)
  | signBlock (key : PublicKey) (slot : Slot) (root : SigningRoot)
  | signAttestation (key : PublicKey) (vote : Vote) (root : SigningRoot)
  | prune
  | pruneValidator (id : ValidatorId) (epochsToKeep slotsPerEpoch : UInt64)
  | exportTo (sink : Sink)
  | importDocument
  deriving DecidableEq

/-- The byte strings that an operation brings from outside and may put into the store.  Keys to
    register are left out: a guard takes them in one length only. -/
def Operation.payload : Operation → List Bytes
  | .signBlock _ _ root => [root.bytes]
  | .signAttestation _ _ root => [root.bytes]
  | _ => []

/-- What a guard replies when it does not fail. -/
inductive Reply where
  | done
  | answered (decision : Decision)
  | pruned (outcome : PruneOutcome)
  | prunedAll (summary : PruneSummary)
  | exported (sink : Sink)
  deriving DecidableEq

/-- Asks a guard. -/
def Operation.perform : Operation → GuardWork Reply
  | .register keys => do Guard.register keys; return .done
  | .signBlock key slot root => do return .answered (← Guard.signBlock key slot root)
  | .signAttestation key vote root => do return .answered (← Guard.signAttestation key vote root)
  | .prune => do return .prunedAll (← Guard.prune)
  | .pruneValidator id epochsToKeep slotsPerEpoch => do
    return .pruned (← Guard.pruneValidator id epochsToKeep slotsPerEpoch)
  | .exportTo sink => do
    let (result, sink) ← ExceptT.lift (Interchange.exportAll.run.run sink)
    GuardWork.conclude (result.map fun () => .exported sink)
  | .importDocument => do Guard.importDocument; return .done

/-- The reply that is a permit. -/
abbrev Reply.permit : Reply := .answered .permit

/-- What an operation may have done to a guard and a ledger, with what it replied. -/
inductive Outcome (g : Guard) (t : Table Bytes) :
    Operation → Except GuardError Reply → Guard → Table Bytes → Prop where
  /-- Nothing, and what was asked for is not permitted. -/
  | idle {op : Operation} {reply : Except GuardError Reply} :
    reply ≠ .ok .permit → Outcome g t op reply g t
  /-- A guard without protection permits everything and looks at nothing. -/
  | unchecked {op : Operation} : g.config.enabled = false → Outcome g t op (.ok .permit) g t
  | registered {keys : List PublicKey} : (∀ key ∈ keys, key.isBls) →
    Outcome g t (.register keys) (.ok .done) (g.knowAll (keys.zip (t.registerKeys keys).2))
      (t.registerKeys keys).1
  | block {key : PublicKey} {id : ValidatorId} {slot : Slot} {root : SigningRoot} :
    g.validatorId? key = some id → t.isRegistered id → (t.account id).block slot = none →
      (t.account id).judgeBlock slot root = .permit →
        Outcome g t (.signBlock key slot root) (.ok .permit) g (t.recordBlock id slot root)
  | blockAgain {key : PublicKey} {id : ValidatorId} {slot : Slot} {root : SigningRoot} :
    g.validatorId? key = some id → (t.account id).block slot = some root →
      (t.account id).judgeBlock slot root = .permit →
        Outcome g t (.signBlock key slot root) (.ok .permit) g t
  | vote {key : PublicKey} {id : ValidatorId} {vote : Vote} {root : SigningRoot} :
    g.validatorId? key = some id → t.isRegistered id →
      (t.account id).vote vote.target = none → (t.account id).judgeVote vote root = .permit →
        Outcome g t (.signAttestation key vote root) (.ok .permit) g (t.recordVote id vote root)
  | voteAgain {key : PublicKey} {id : ValidatorId} {vote : Vote} {root : SigningRoot}
    {source : Epoch} :
    g.validatorId? key = some id → (t.account id).vote vote.target = some (source, root) →
      (t.account id).judgeVote vote root = .permit →
        Outcome g t (.signAttestation key vote root) (.ok .permit) g t
  /-- A prune, whole or cut. -/
  | thinned {op : Operation} {reply : Except GuardError Reply} {t' : Table Bytes} :
    t.Thinned t' → reply ≠ .ok .permit → Outcome g t op reply g t'

namespace Outcome

variable {allowed : Bytes → Prop} {g g' : Guard} {t t' : Table Bytes} {op : Operation}
  {reply : Except GuardError Reply}

theorem held (h : Outcome g t op reply g' t') : g'.held = g.held := by
  cases h <;> first | rfl | exact Guard.knowAll_held _ _

theorem config (h : Outcome g t op reply g' t') : g'.config = g.config := by
  cases h <;> first | rfl | exact Guard.knowAll_config _ _

/-- Every outcome is made of changes of a ledger. -/
theorem reaches (h : Outcome g t op reply g' t') (admitted : ∀ bytes ∈ op.payload, allowed bytes)
    (bls : ∀ key : PublicKey, key.isBls → allowed key.bytes) : t.Reaches allowed t' := by
  cases h with
  | idle _ => exact .refl
  | unchecked _ => exact .refl
  | registered all => exact Table.reaches_registerKeys allowed t fun key hk => bls key (all key hk)
  | block _ registered _ _ =>
    have admitted := admitted _ List.mem_cons_self
    refine .tail (.single (.block _ registered admitted)) (.slotFloor 0 ?_)
    simpa [Table.isRegistered] using registered
  | blockAgain _ _ _ => exact .refl
  | vote _ registered _ permit =>
    have ordered := (Account.judgeVote_eq_permit_iff.1 permit).1
    have admitted := admitted _ List.mem_cons_self
    refine .tail (.single (.vote registered ordered admitted)) (.epochFloors 0 0 ?_)
    simpa [Table.isRegistered] using registered
  | voteAgain _ _ _ => exact .refl
  | thinned thinned _ => exact thinned.reaches allowed

/-- Keys are registered as a whole. -/
theorem registersWhole (h : Outcome g t op reply g' t') : t.RegistersWhole t' := by
  cases h with
  | registered _ => exact .inr ⟨_, rfl⟩
  | block _ _ _ _ => exact .inl (Table.registry_recordBlock ..)
  | vote _ _ _ _ => exact .inl (Table.registry_recordVote ..)
  | thinned thinned _ => exact .inl thinned.registry
  | _ => exact .inl rfl

/-- A guard knows keys by the numbers that the ledger has for them. -/
theorem knows (h : Outcome g t op reply g' t') {key : PublicKey} {id : ValidatorId}
    (known : g'.validatorId? key = some id) :
    g.validatorId? key = some id ∨ t'.registry.idOf key = some id := by
  cases h with
  | registered _ =>
    rcases Guard.validatorId?_knowAll known with told | known
    · exact .inr (Table.idOf_registerKeys t told)
    · exact .inl known
  | _ => exact .inl known

theorem remembers (h : Outcome g t op reply g' t') : t.Remembers t' :=
  (h.reaches (fun _ _ => trivial) fun _ _ => trivial : t.Reaches (fun _ => True) t').remembers

end Outcome

namespace Operation

open GuardWork

variable {faulty : Prop} {c : Context} {t : Table Bytes}

/-- The reply to an operation is that of its work, put into a reply. -/
theorem always_reply {α : Type} {w : GuardWork α} {reply : α → Reply}
    {Q : Except GuardError Reply → Context → Table Bytes → Prop}
    (h : Always faulty w c t fun r c' t' => Q (r.map reply) c' t') :
    Always faulty (w >>= fun a => pure (reply a)) c t Q := by
  refine always_bind.2 (h.mono fun r c' t' post => ?_)
  cases r with
  | ok a => exact post
  | error e => exact post

/-- Whatever calls fail, an operation has one of the outcomes. -/
theorem always_perform (wf : t.WellFormed) (op : Operation) :
    Always faulty op.perform c t fun reply c' t' => Outcome c.guard t op reply c'.guard t' := by
  cases op with
  | register keys =>
    refine always_reply (Guard.always_register wf keys (fun _ _ _ => .idle nofun) (fun bls => ?_)
      fun _ _ => .idle nofun)
    exact .registered bls
  | signBlock key slot root =>
    refine always_reply (Guard.always_answer .unchecked (fun _ => .idle nofun)
      (fun _ _ _ => .idle nofun) fun id _ known => ?_)
    refine Ledger.always_signBlock wf (fun _ _ => .idle nofun) (fun permit again => ?_)
      (fun registered permit free => ?_) (fun _ _ => .idle nofun) fun _ _ => .idle nofun
    · exact .blockAgain known again permit
    · exact .block known registered free permit
  | signAttestation key vote root =>
    refine always_reply (Guard.always_answer .unchecked (fun _ => .idle nofun)
      (fun _ _ _ => .idle nofun) fun id _ known => ?_)
    refine Ledger.always_signAttestation wf (fun _ _ => .idle nofun) (fun permit again => ?_)
      (fun registered permit free => ?_) (fun _ _ => .idle nofun) fun _ _ => .idle nofun
    · obtain ⟨source, again⟩ := again
      exact .voteAgain known again permit
    · exact .vote known registered free permit
  | prune =>
    refine always_reply ((Guard.thinned_prune wf).mono ?_)
    rintro r c' t' ⟨same, thinned⟩
    rw [same]
    exact .thinned thinned (by cases r <;> nofun)
  | pruneValidator id epochsToKeep slotsPerEpoch =>
    refine always_reply ((Guard.thinned_pruneValidator wf id _ _).mono ?_)
    rintro r c' t' ⟨same, thinned⟩
    rw [same]
    exact .thinned thinned (by cases r <;> nofun)
  | exportTo sink =>
    refine always_bind.2 (always_lift.2 ((Interchange.quiet_exportAll faulty sink c t).mono ?_))
    rintro ⟨⟨r, s⟩, c'⟩ t' ⟨rfl, rfl⟩
    exact .idle (by cases r <;> nofun)
  | importDocument => exact .idle nofun

end Operation

end SlashingGuard
