import SlashingGuard.Proofs.Guard.Work
import SlashingGuard.Proofs.Ledger.Pruning
import SlashingGuard.Proofs.Ledger.Registration

/-! # Requests to a guard

    What each request to a guard does to the ledger and to the guard, whatever
    locks are held and whatever calls fail: registration changes the registry
    alone, a decision changes at most the account it is about, and a prune
    thins the ledger. -/

namespace SlashingGuard

/-! ## Keys that a guard knows -/

namespace Guard

@[simp] theorem validatorId?_know (g : Guard) (key key' : PublicKey) (id : ValidatorId) :
    (g.know key id).validatorId? key' = if key' = key then some id else g.validatorId? key' := by
  -- Older entries of the key are filtered out, so the new one is the only one for it.
  have others : (g.registered.filter fun entry => decide (entry.1 ≠ key)).lookup key' =
      if key' = key then none else g.registered.lookup key' := by
    induction g.registered with
    | nil => simp
    | cons entry rest ih =>
      obtain ⟨k, i⟩ := entry
      by_cases hk : k = key
      · rw [List.filter_cons_of_neg (by simpa using hk), ih, List.lookup_cons]
        by_cases h : key' = key
        · rw [if_pos h, if_pos h]
        · have ne : (key' == k) = false := by simpa [hk] using h
          rw [if_neg h, if_neg h, ne]
      · rw [List.filter_cons_of_pos (by simpa using hk), List.lookup_cons, List.lookup_cons, ih]
        by_cases h : key' = key
        · have ne : (key' == k) = false := by simpa [h] using Ne.symm hk
          rw [if_pos h, if_pos h, ne]
        · rw [if_neg h, if_neg h]
  rw [validatorId?, know, List.lookup_cons, others, validatorId?]
  by_cases h : key' = key
  · simp [h]
  · have ne : (key' == key) = false := by simpa using h
    rw [if_neg h, if_neg h, ne]

/-- The guard after it was told the numbers of keys. -/
def knowAll (g : Guard) (numbered : List (PublicKey × ValidatorId)) : Guard :=
  numbered.foldl (fun g (key, id) => g.know key id) g

@[simp] theorem knowAll_held (g : Guard) (numbered : List (PublicKey × ValidatorId)) :
    (g.knowAll numbered).held = g.held := by
  induction numbered generalizing g with
  | nil => rfl
  | cons entry rest ih => exact ih (g.know entry.1 entry.2)

@[simp] theorem knowAll_config (g : Guard) (numbered : List (PublicKey × ValidatorId)) :
    (g.knowAll numbered).config = g.config := by
  induction numbered generalizing g with
  | nil => rfl
  | cons entry rest ih => exact ih (g.know entry.1 entry.2)

/-- What a guard knows it was told, now or before. -/
theorem validatorId?_knowAll {g : Guard} {numbered : List (PublicKey × ValidatorId)}
    {key : PublicKey} {id : ValidatorId} (h : (g.knowAll numbered).validatorId? key = some id) :
    (key, id) ∈ numbered ∨ g.validatorId? key = some id := by
  induction numbered generalizing g with
  | nil => exact .inr h
  | cons entry rest ih =>
    rcases ih (g := g.know entry.1 entry.2) h with told | known
    · exact .inl (List.mem_cons_of_mem _ told)
    · rw [validatorId?_know] at known
      split at known
      · next same =>
        obtain rfl := Option.some.inj known
        exact .inl (same ▸ List.mem_cons_self)
      · exact .inr known

end Guard

namespace Guard

open GuardWork

variable {faulty : Prop} {c : Context} {t : Table Bytes}

/-! ## Registration -/

theorem always_register (wf : t.WellFormed) (keys : List PublicKey)
    {Q : Except GuardError Unit → Context → Table Bytes → Prop}
    (refused : ∀ key ∈ keys, key.isBls = false → Q (.error (.wrongKeyLength key)) c t)
    (done : (∀ key ∈ keys, key.isBls) →
      Q (.ok ()) { c with guard := c.guard.knowAll (keys.zip (t.registerKeys keys).2) }
        (t.registerKeys keys).1)
    (fault : faulty → ∀ x, Q (.error (.ledger (.store x))) c t) :
    Always faulty (register keys) c t Q := by
  unfold register
  cases invalid : keys.find? fun key => !key.isBls with
  | some key =>
    have short : key.isBls = false := by simpa using List.find?_some invalid
    exact always_throw.2 (refused key (List.mem_of_find?_eq_some invalid) short)
  | none =>
    have bls : ∀ key ∈ keys, key.isBls := by simpa using invalid
    refine always_bind.2 (always_ledger.2 (Ledger.always_registerAll wf keys ?_ fault))
    exact always_modifyGuard.2 (done bls)

/-! ## Decisions -/

/-- The context after an answer was counted. -/
def counted (c : Context) (kind : DutyKind) (decision : Decision) : Context :=
  { c with metrics := c.metrics.countDecision kind decision }

/-- A request is decided and counted if protection is on, the key is known and the lock is
    free; otherwise nothing happens. -/
theorem always_answer {kind : DutyKind} {key : PublicKey}
    {decide : ValidatorId → LedgerWork Decision}
    {Q : Except GuardError Decision → Context → Table Bytes → Prop}
    (unchecked : c.guard.config.enabled = false → Q (.ok .permit) c t)
    (unknown : c.guard.validatorId? key = none → Q (.error (.unknownKey key)) c t)
    (locked : ∀ id, c.guard.validatorId? key = some id → (id, kind) ∈ c.guard.held →
      Q (.error (.ledger (.lockTimeout id kind c.guard.config.lockTimeout))) c t)
    (decided : ∀ id, c.guard.config.enabled → c.guard.validatorId? key = some id →
      (decide id).run.Always faulty t fun r t' => match r with
        | .ok decision => Q (.ok decision) (counted c kind decision) t'
        | .error e => Q (.error (.ledger e)) c t') :
    Always faulty (answer kind key decide) c t Q := by
  unfold answer
  rw [always_theGuard_bind]
  split
  · next enabled =>
    refine always_bind.2 ?_
    unfold resolve
    rw [always_theGuard_bind]
    split
    · next id known =>
      refine always_pure.2 (always_bind.2 ?_)
      by_cases held : (id, kind) ∈ c.guard.held
      · exact always_withLock_held held (locked id known held)
      · refine always_withLock_ledger held ((decided id enabled known).mono fun r t' post => ?_)
        cases r with
        | ok decision => exact post
        | error e => exact post
    · next unresolved => exact always_throw.2 (unknown unresolved)
  · next disabled => exact always_pure.2 (unchecked (by simpa using disabled))

/-! ## Prunes -/

theorem always_pruneHalf {lock : LockName} {work : LedgerWork (Option UInt64 × Nat)}
    {Q : Except GuardError (Option UInt64 × Nat) → Context → Table Bytes → Prop}
    (locked : lock ∈ c.guard.held →
      Q (.error (.ledger (.lockTimeout lock.1 lock.2 c.guard.config.lockTimeout))) c t)
    (h : work.run.Always faulty t fun r t' => match r with
      | .ok (floor, removed) => Q (.ok (floor, removed))
          { c with metrics := c.metrics.countPruned lock.2 removed } t'
      | .error e => Q (.error (.ledger e)) c t') :
    Always faulty (pruneHalf lock work) c t Q := by
  by_cases held : lock ∈ c.guard.held
  · exact always_withLock_held held (locked held)
  · refine always_withLock held (always_bind.2 (always_ledger.2 (h.mono fun r t' post => ?_)))
    cases r with
    | ok result =>
      refine always_bind.2 (always_modifyMetrics.2 (always_pure.2 ?_))
      rw [freed_holding_metrics]
      exact post
    | error e =>
      rw [freed_holding]
      exact post

theorem checkTunables_eq_ok_iff {epochsToKeep slotsPerEpoch : UInt64} :
    checkTunables epochsToKeep slotsPerEpoch = .ok () ↔ epochsToKeep ≠ 0 ∧ slotsPerEpoch ≠ 0 := by
  by_cases he : epochsToKeep = 0
  · simp [checkTunables, he]
  · by_cases hp : slotsPerEpoch = 0 <;> simp [checkTunables, he, hp]

/-- Usable settings keep something. -/
theorem tunables_of_check {config : PruningConfig} (usable : config.check = .ok ()) :
    config.epochsToKeep ≠ 0 ∧ config.slotsPerEpoch ≠ 0 := by
  unfold PruningConfig.check at usable
  split at usable
  · contradiction
  · exact checkTunables_eq_ok_iff.1 usable

/-- A prune of one validator thins the ledger, wherever it is cut, and leaves the guard. -/
theorem thinned_pruneValidator (wf : t.WellFormed) (id : ValidatorId)
    (epochsToKeep slotsPerEpoch : UInt64) :
    Always faulty (pruneValidator id epochsToKeep slotsPerEpoch) c t fun _ c' t' =>
      c'.guard = c.guard ∧ t.Thinned t' := by
  unfold pruneValidator
  refine always_bind.2 (always_conclude.2 ?_)
  split
  · next checked =>
    have accepted : checkTunables epochsToKeep slotsPerEpoch = .ok () := by
      cases result : checkTunables epochsToKeep slotsPerEpoch with
      | ok _ => rfl
      | error _ => rw [result] at checked; contradiction
    have keepsEpoch := (checkTunables_eq_ok_iff.1 accepted).1
    refine always_bind.2 (always_pruneHalf (fun _ => ⟨rfl, .refl t⟩) ?_)
    have keepsSlot := slotsKept_ne_zero epochsToKeep slotsPerEpoch
    refine (Ledger.thinned_pruneBlocks wf id keepsSlot).mono fun r t' thinned => ?_
    cases r with
    | error e => exact ⟨rfl, thinned⟩
    | ok blocks =>
      -- The half for attestations starts from what the half for blocks has left.
      refine always_bind.2 (always_pruneHalf (fun _ => ⟨rfl, thinned⟩) ?_)
      have wf' := thinned.wellFormed wf
      refine (Ledger.thinned_pruneAttestations wf' id keepsEpoch).mono fun r t'' thinned' => ?_
      cases r with
      | error e => exact ⟨rfl, thinned.trans thinned'⟩
      | ok attestations => exact ⟨rfl, thinned.trans thinned'⟩
  · exact ⟨rfl, .refl t⟩

/-- So does a prune of any validators in order, which the first error ends. -/
theorem thinned_pruneAll (wf : t.WellFormed) (epochsToKeep slotsPerEpoch : UInt64)
    (summary : PruneSummary) (ids : List ValidatorId) :
    Always faulty (pruneAll epochsToKeep slotsPerEpoch summary ids) c t fun _ c' t' =>
      c'.guard = c.guard ∧ t.Thinned t' := by
  induction ids generalizing c t summary with
  | nil => exact always_pure.2 ⟨rfl, .refl t⟩
  | cons id rest ih =>
    unfold pruneAll
    refine always_bind.2 ((thinned_pruneValidator wf id _ _).mono ?_)
    rintro r c' t' ⟨same, thinned⟩
    cases r with
    | error e => exact ⟨same, thinned⟩
    | ok outcome =>
      refine (ih (thinned.wellFormed wf) _).mono ?_
      rintro r c'' t'' ⟨same', thinned'⟩
      exact ⟨same'.trans same, thinned.trans thinned'⟩

theorem thinned_prune (wf : t.WellFormed) :
    Always faulty prune c t fun _ c' t' => c'.guard = c.guard ∧ t.Thinned t' := by
  unfold prune
  rw [always_theGuard_bind]
  refine always_bind.2 (always_conclude.2 ?_)
  split
  · exact thinned_pruneAll wf _ _ _ _
  · exact ⟨rfl, .refl t⟩

end Guard

end SlashingGuard
