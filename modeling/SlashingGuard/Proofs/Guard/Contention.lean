import SlashingGuard.Proofs.Guard.Atomicity
import SlashingGuard.Proofs.Guard.PruneEnds
import SlashingGuard.Proofs.Ledger.Isolation

/-! # Locks that are held elsewhere

    A lock that is held elsewhere turns work away and has no other effect.
    A request needs the lock of its validator and duty kind: if that is held
    the request makes no call, and whatever else is held changes nothing.  A
    prune of a validator needs the two locks of it one after the other, and
    is done as far as the first of them that is held. -/

namespace SlashingGuard

/-- The context with these locks held, and no others. -/
def Context.withHeld (c : Context) (held : List LockName) : Context :=
  { c with guard := { c.guard with held := held } }

@[simp] theorem Context.withHeld_self (c : Context) : c.withHeld c.guard.held = c := rfl

@[simp] theorem Context.withHeld_withHeld (c : Context) (held held' : List LockName) :
    (c.withHeld held).withHeld held' = c.withHeld held' := rfl

namespace GuardWork

variable {α : Type}

/-- The work does what it does where no lock is held: it makes the same calls and ends in the same
    way, but for the locks that are held. -/
structure AsIdle (w : GuardWork α) (c : Context) (faults : Store.FaultSchedule)
    (t : Table Bytes) : Prop where
  calls : w.exchanges c faults t = w.exchanges (c.withHeld []) faults t
  reply : (w.underFaults c faults t).1 = (w.underFaults (c.withHeld []) faults t).1
  context : (w.underFaults c faults t).2.1 =
    (w.underFaults (c.withHeld []) faults t).2.1.withHeld c.guard.held
  table : (w.underFaults c faults t).2.2 = (w.underFaults (c.withHeld []) faults t).2.2

/-- Work is turned away by a lock if it fails with an error that may be tried again, before its
    first call and without any change. -/
structure TurnedAway (w : GuardWork α) (c : Context) (lock : LockName)
    (faults : Store.FaultSchedule) (t : Table Bytes) : Prop where
  calls : w.exchanges c faults t = []
  reply : w.underFaults c faults t =
    (.error (.ledger (.lockTimeout lock.1 lock.2 c.guard.config.lockTimeout)), c, t)
  retryable : GuardError.isRetryable
    (.ledger (.lockTimeout lock.1 lock.2 c.guard.config.lockTimeout))

variable {w : GuardWork α} {c : Context}

theorem turnedAway_of_run (lock : LockName) (h : w.run.run c =
      .done (.error (.ledger (.lockTimeout lock.1 lock.2 c.guard.config.lockTimeout)), c))
    (faults : Store.FaultSchedule) (t : Table Bytes) : w.TurnedAway c lock faults t where
  calls := by rw [exchanges, h]; rfl
  reply := by rw [underFaults, h]; rfl
  retryable := rfl

/-- Work that makes the same calls, and does the same to the context but for the locks, is as where
    none is held. -/
theorem asIdle_of_run {β : Type} (p : StoreProgram β) (result : β → Except GuardError α)
    (context : β → Context) (h : w.run.run c = p.bind fun b => .done (result b, context b))
    (idle : w.run.run (c.withHeld []) =
      p.bind fun b => .done (result b, (context b).withHeld []))
    (held : ∀ b, (context b).guard.held = c.guard.held)
    (faults : Store.FaultSchedule) (t : Table Bytes) : w.AsIdle c faults t where
  calls := by
    unfold exchanges
    rw [h, idle, Program.exchanges_bind_done, Program.exchanges_bind_done]
  reply := by
    unfold underFaults
    rw [h, idle, Program.runFaulty_bind_done, Program.runFaulty_bind_done]
  context := by
    unfold underFaults
    rw [h, idle, Program.runFaulty_bind_done, Program.runFaulty_bind_done]
    show context _ = ((context _).withHeld []).withHeld c.guard.held
    rw [Context.withHeld_withHeld, ← held, Context.withHeld_self]
  table := by
    unfold underFaults
    rw [h, idle, Program.runFaulty_bind_done, Program.runFaulty_bind_done]

end GuardWork

/-! ## Keys of other locks -/

/-- Half a prune changes nothing but what its lock owns. -/
theorem Table.get?_pruneHalf_of_not_owns {t : Table Bytes} (legible : t.Legible)
    {id : ValidatorId} {kind : DutyKind} {keep : UInt64} {key : Bytes}
    (foreign : ¬ LockName.Owns (id, kind) key) :
    (t.pruneHalf id kind keep).get? key = t.get? key := by
  by_cases documented : ∃ place : Place, key = place.bytes
  · obtain ⟨place, rfl⟩ := documented
    exact get?_pruneHalf_of_lock_ne (mt LockName.owns_bytes_iff.2 foreign)
  · -- A key of no place has nothing, before and after.
    have absent : ∀ u : Table Bytes, u.Legible → u.get? key = none := by
      intro u legible
      rw [Option.eq_none_iff_forall_ne_some]
      intro value found
      obtain ⟨place, same, -⟩ := legible.documented key value found
      exact documented ⟨place, same⟩
    rw [absent t legible, absent _ (legible.pruneHalf id kind keep)]

/-! ## Requests -/

namespace Guard

open GuardWork

variable {c : Context} {key : PublicKey} {kind : DutyKind} {t : Table Bytes}

/-- A request of a key is turned away by the lock of its validator for the duty kind, and minds no
    other. -/
structure MindsLock (w : GuardWork Decision) (c : Context) (key : PublicKey) (kind : DutyKind)
    (faults : Store.FaultSchedule) (t : Table Bytes) : Prop where
  held : ∀ id, c.guard.validatorId? key = some id → (id, kind) ∈ c.guard.held →
    w.TurnedAway c (id, kind) faults t
  free : (∀ id, c.guard.validatorId? key = some id → (id, kind) ∉ c.guard.held) →
    w.AsIdle c faults t

/-- What is counted for an answer does not depend on the locks. -/
theorem answered_withHeld (c : Context) (held : List LockName) (kind : DutyKind)
    (r : Except LedgerError Decision) :
    answered (c.withHeld held) kind r = (answered c kind r).withHeld held := by
  cases r <;> rfl

theorem answered_held (c : Context) (kind : DutyKind) (r : Except LedgerError Decision) :
    (answered c kind r).guard.held = c.guard.held := by
  cases r <;> rfl

/-- A request whose lock is free does what it does where no lock is held. -/
theorem asIdle_answer (enabled : c.guard.config.enabled)
    (decide : ValidatorId → LedgerWork Decision)
    (free : ∀ id, c.guard.validatorId? key = some id → (id, kind) ∉ c.guard.held)
    (faults : Store.FaultSchedule) : (answer kind key decide).AsIdle c faults t := by
  have idleEnabled : (c.withHeld []).guard.config.enabled := enabled
  cases known : c.guard.validatorId? key with
  | none =>
    have idleUnknown : (c.withHeld []).guard.validatorId? key = none := known
    exact asIdle_of_run (.done ()) (fun _ => .error (.unknownKey key)) (fun _ => c)
      (run_answer_unknown enabled known) (run_answer_unknown idleEnabled idleUnknown)
      (fun _ => rfl) faults t
  | some id =>
    have idleKnown : (c.withHeld []).guard.validatorId? key = some id := known
    have idleFree : (id, kind) ∉ (c.withHeld []).guard.held := List.not_mem_nil
    have idle : (answer kind key decide).run.run (c.withHeld []) = _ :=
      run_answer_free idleEnabled idleKnown idleFree
    simp only [answered_withHeld] at idle
    exact asIdle_of_run (decide id).run (fun r => r.mapError .ledger) (answered c kind)
      (run_answer_free enabled known (free id known)) idle (answered_held c kind) faults t

theorem mindsLock_answer (enabled : c.guard.config.enabled)
    (decide : ValidatorId → LedgerWork Decision) (faults : Store.FaultSchedule) :
    MindsLock (answer kind key decide) c key kind faults t where
  held id known held := by
    have refused : (answer kind key decide).run.run c = _ := run_answer_held enabled known held
    exact turnedAway_of_run (id, kind) refused faults t
  free free := asIdle_answer enabled decide free faults

/-! ## Prunes -/

variable {id : ValidatorId} {e p : UInt64}

/-- A prune of a validator is turned away by the lock for blocks.  By the lock for attestations
    alone it is stopped halfway: it has done with blocks what a prune does where no lock is held,
    and counted it, and has touched nothing else. -/
structure PruneMindsLocks (c : Context) (t : Table Bytes) (id : ValidatorId) (e p : UInt64) :
    Prop where
  blocks : (id, .block) ∈ c.guard.held → ∀ faults,
    (pruneValidator id e p).TurnedAway c (id, .block) faults t
  attestations : (id, .block) ∉ c.guard.held → (id, .attestation) ∈ c.guard.held →
    ∃ outcome c' whole left,
      (pruneValidator id e p).onTable (c.withHeld []) t = (.ok outcome, c', whole) ∧
      (pruneValidator id e p).onTable c t =
        (.error (.ledger (.lockTimeout id .attestation c.guard.config.lockTimeout)),
          countedPruned c .block outcome.blocks, left) ∧
      (∀ key, LockName.Owns (id, .block) key → left.get? key = whole.get? key) ∧
      ∀ key, ¬ LockName.Owns (id, .block) key → left.get? key = t.get? key
  free : c.guard.Frees id → ∃ outcome c' c'' left,
    (pruneValidator id e p).onTable (c.withHeld []) t = (.ok outcome, c', left) ∧
    (pruneValidator id e p).onTable c t = (.ok outcome, c'', left) ∧ c''.guard = c.guard

/-- With the lock for blocks held a prune makes no call. -/
theorem run_pruneValidator_held (he : e ≠ 0) (hp : p ≠ 0) (held : (id, .block) ∈ c.guard.held) :
    (pruneValidator id e p).run.run c =
      .done (.error (.ledger (.lockTimeout id .block c.guard.config.lockTimeout)), c) := by
  unfold pruneValidator
  rw [checkTunables_eq_ok_iff.2 ⟨he, hp⟩]
  show Program.bind ((pruneHalf (id, .block) _).run.run c) _ = _
  rw [pruneHalf, run_withLock_held held]
  rfl

/-- With the lock for attestations held a prune is done with blocks when it stops. -/
theorem always_pruneValidator_halfway (regular : t.Regular) (he : e ≠ 0) (hp : p ≠ 0)
    (free : (id, .block) ∉ c.guard.held) (held : (id, .attestation) ∈ c.guard.held) :
    Always False (pruneValidator id e p) c t fun r c' t' =>
      r = .error (.ledger (.lockTimeout id .attestation c.guard.config.lockTimeout)) ∧
      c' = countedPruned c .block (t.removed id .block (slotsKept e p)) ∧
      t' = t.pruneHalf id .block (slotsKept e p) := by
  unfold pruneValidator
  refine always_bind.2 (always_conclude.2 ?_)
  rw [checkTunables_eq_ok_iff.2 ⟨he, hp⟩]
  refine always_bind.2 (always_pruneHalf (fun held' => absurd held' free) ?_)
  refine (Ledger.always_pruneBlocks_ends regular id _).mono fun r t' half => ?_
  cases half with
  | failed fault _ => exact fault.elim
  | done =>
    apply always_bind.2
    apply always_withLock_held
    · exact held
    · exact ⟨rfl, rfl, rfl⟩

theorem pruneMindsLocks (regular : t.Regular) (he : e ≠ 0) (hp : p ≠ 0) :
    PruneMindsLocks c t id e p where
  blocks held faults :=
    turnedAway_of_run (id, .block) (run_pruneValidator_held he hp held) faults t
  attestations free held := by
    have idle : (c.withHeld []).guard.Frees id := frees_of_idle rfl id
    have legible := regular.toLegible
    obtain ⟨c', -, whole⟩ := onTable_pruneValidator regular he hp idle
    obtain ⟨reply, context, left⟩ :=
      (always_pruneValidator_halfway regular he hp free held).onTable
    refine ⟨_, c', _, t.pruneHalf id .block (slotsKept e p), whole,
      Prod.ext reply (Prod.ext ?_ left), ?_, ?_⟩
    · rw [context]
      rfl
    · rintro _ ⟨place, lock, rfl⟩
      have other : place.lock? ≠ some (id, .attestation) := by
        rw [lock]
        nofun
      exact (Table.get?_pruneHalf_of_lock_ne other).symm
    · intro key foreign
      exact Table.get?_pruneHalf_of_not_owns legible foreign
  free free := by
    have idle : (c.withHeld []).guard.Frees id := frees_of_idle rfl id
    obtain ⟨c', -, whole⟩ := onTable_pruneValidator regular he hp idle
    obtain ⟨c'', guard, same⟩ := onTable_pruneValidator regular he hp free
    exact ⟨_, c', c'', _, whole, same, guard⟩

end Guard

end SlashingGuard
