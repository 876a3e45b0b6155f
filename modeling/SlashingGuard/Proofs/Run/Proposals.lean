import SlashingGuard.Proofs.Run.World

/-! # No double proposal

    Over a whole run, with any number of guards on one store, whatever they
    are asked in whatever order and whichever calls fail, all permits for one
    key and one slot are for one signing root.

    What links a permit of the past to the ledger of the present is that its
    block is still recorded, or that its slot lies below the slot floor.  In
    the first case the rules permit no other root, in the second they permit
    nothing at all.  A prune takes the first away only where it has made the
    second hold. -/

namespace SlashingGuard

/-! ## Blocks that stay covered -/

/-- A block that is recorded with its root, or can no longer be asked for. -/
def Account.CoversBlock (a : Account) (slot : Slot) (root : SigningRoot) : Prop :=
  a.block slot = some root ∨ a.HidesBlock slot

namespace Account

variable {a b : Account} {slot : Slot} {root : SigningRoot}

/-- Where a block is covered, only its own root is permitted. -/
theorem CoversBlock.root_eq (h : a.CoversBlock slot root) {other : SigningRoot}
    (permit : a.judgeBlock slot other = .permit) : root = other := by
  obtain ⟨visible, same⟩ := judgeBlock_eq_permit_iff.1 permit
  rcases h with stored | hidden
  · exact same root stored
  · exact absurd hidden visible

/-- A block stays covered when floors are raised and records below them are forgotten. -/
theorem CoversBlock.pruned (h : a.CoversBlock slot root) (pruned : a.Pruned b) :
    b.CoversBlock slot root := by
  rcases h with stored | hidden
  · rcases pruned.block slot with same | ⟨-, hidden⟩
    · exact .inl (same.trans stored)
    · exact .inr hidden
  · exact .inr (pruned.hidesBlock hidden)

/-- A block stays covered when another one is put at a slot that was free. -/
theorem CoversBlock.recordBlock (h : a.CoversBlock slot root) {slot' : Slot}
    (free : a.block slot' = none) (root' : SigningRoot) :
    (a.recordBlock slot' root').CoversBlock slot root := by
  refine CoversBlock.pruned ?_ (.raiseSlot (a.putBlock slot' root') 0)
  rcases h with stored | hidden
  · have other : slot ≠ slot' := by
      rintro rfl
      rw [free] at stored
      contradiction
    exact .inl (by simpa [other] using stored)
  · exact .inr hidden

theorem coversBlock_recordBlock (a : Account) (slot : Slot) (root : SigningRoot) :
    (a.recordBlock slot root).CoversBlock slot root :=
  .inl (by simp [Account.recordBlock])

/-- Votes do not bear on blocks. -/
theorem CoversBlock.recordVote (h : a.CoversBlock slot root) (vote : Vote) (root' : SigningRoot) :
    (a.recordVote vote root').CoversBlock slot root := h

end Account

namespace Outcome

variable {g g' : Guard} {t t' : Table Bytes} {op : Operation}
  {reply : Except GuardError Reply} {slot : Slot} {root : SigningRoot}

/-- No operation uncovers a block. -/
theorem coversBlock (h : Outcome g t op reply g' t') {id : ValidatorId}
    (covered : (t.account id).CoversBlock slot root) :
    (t'.account id).CoversBlock slot root := by
  cases h with
  | registered _ => rwa [Table.account_registerKeys]
  | block _ _ free _ =>
    rw [Table.account_recordBlock]
    split
    · next same => exact (same ▸ covered).recordBlock free _
    · exact covered
  | vote _ _ _ _ =>
    rw [Table.account_recordVote]
    split
    · next same => exact (same ▸ covered).recordVote _ _
    · exact covered
  | thinned thinned _ => exact covered.pruned (thinned.account id)
  | _ => exact covered

/-- A permit of a guard that checks is one of the rules, and leaves its block covered. -/
theorem permittedBlock {key : PublicKey}
    (h : Outcome g t (.signBlock key slot root) (.ok .permit) g' t')
    (enabled : g.config.enabled) :
    ∃ id, g.validatorId? key = some id ∧ (t.account id).judgeBlock slot root = .permit ∧
      (t'.account id).CoversBlock slot root := by
  cases h with
  | idle refused => exact absurd rfl refused
  | thinned _ refused => exact absurd rfl refused
  | unchecked disabled => rw [enabled] at disabled; contradiction
  | block known _ _ permit =>
    refine ⟨_, known, permit, ?_⟩
    rw [Table.account_recordBlock, if_pos rfl]
    exact Account.coversBlock_recordBlock _ slot root
  | blockAgain known again permit => exact ⟨_, known, permit, .inl again⟩

end Outcome

namespace World

variable {run : Run} {w w' : World}

/-- A block request of the run that was permitted. -/
def PermittedBlock (w : World) (key : PublicKey) (slot : Slot) (root : SigningRoot) : Prop :=
  ⟨.signBlock key slot root, .ok .permit⟩ ∈ w.log

/-- Every permitted block is covered in the account of its key, and no two of them contradict each
    other. -/
structure BlocksCovered (w : World) : Prop where
  covered : ∀ key slot root, w.PermittedBlock key slot root →
    ∃ id, w.table.registry.idOf key = some id ∧ (w.table.account id).CoversBlock slot root
  agree : ∀ key slot root root', w.PermittedBlock key slot root →
    w.PermittedBlock key slot root' → root = root'

/-- Where every permitted block is covered, the rules permit only the root that was permitted. -/
theorem BlocksCovered.root_eq (h : w.BlocksCovered) {key : PublicKey} {slot : Slot}
    {root root' : SigningRoot} (before : w.PermittedBlock key slot root) {id : ValidatorId}
    (number : w.table.registry.idOf key = some id)
    (permit : (w.table.account id).judgeBlock slot root' = .permit) : root = root' := by
  obtain ⟨id', number', covered⟩ := h.covered key slot root before
  obtain rfl : id' = id := Option.some.inj (number'.symm.trans number)
  exact covered.root_eq permit

/-- A permit after a step is an earlier one, or the step gave it on what the rules say and left its
    block covered. -/
theorem Protected.permittedBlock_cases (w_ok : w.Protected run) {g g' : Guard}
    (hg : g ∈ w.guards) {op : Operation} {reply : Except GuardError Reply}
    (outcome : Outcome g w.table op reply g' w'.table) (log : w'.log = w.log ++ [⟨op, reply⟩])
    {key : PublicKey} {slot : Slot} {root : SigningRoot}
    (permitted : w'.PermittedBlock key slot root) :
    w.PermittedBlock key slot root ∨ op = .signBlock key slot root ∧
      ∃ id, w.table.registry.idOf key = some id ∧
        (w.table.account id).judgeBlock slot root = .permit ∧
          (w'.table.account id).CoversBlock slot root := by
  rw [PermittedBlock, log] at permitted
  rcases List.mem_append.1 permitted with before | now
  · exact .inl before
  · obtain ⟨rfl, rfl⟩ := Event.mk.inj (List.mem_singleton.1 now)
    obtain ⟨id, known, permit, covered⟩ := outcome.permittedBlock (w_ok.enabled g hg)
    exact .inr ⟨rfl, id, w_ok.agrees g hg key id known, permit, covered⟩

/-- One step keeps every permitted block covered, and permits none that contradicts another. -/
theorem BlocksCovered.step (h : w.BlocksCovered) (w_ok : w.Protected run)
    (storable : run.Storable) {s : Step} (hs : s ∈ run) (guarded : s.Guarded) :
    (w.step s).BlocksCovered := by
  obtain ⟨-, ⟨table, log⟩ | ⟨g, hg, op, reply, g', -, outcome, log⟩⟩ :=
    w_ok.step_cases storable hs guarded
  · obtain ⟨covered, agree⟩ := h
    simp only [PermittedBlock, ← table, ← log] at covered agree
    exact ⟨covered, agree⟩
  constructor
  · intro key slot root permitted
    rcases w_ok.permittedBlock_cases hg outcome log permitted with
      before | ⟨-, id, number, -, covered⟩
    · obtain ⟨id, number, covered⟩ := h.covered key slot root before
      exact ⟨id, outcome.remembers.idOf key id number, outcome.coversBlock covered⟩
    · exact ⟨id, outcome.remembers.idOf key id number, covered⟩
  -- Two permits of one key and slot: each may be an earlier one or the new one.
  · intro key slot root root' permitted permitted'
    rcases w_ok.permittedBlock_cases hg outcome log permitted with
        before | ⟨same, id, number, permit, -⟩ <;>
      rcases w_ok.permittedBlock_cases hg outcome log permitted' with
        before' | ⟨same', id', number', permit', -⟩
    · exact h.agree key slot root root' before before'
    · exact h.root_eq before number' permit'
    · exact (h.root_eq before' number permit).symm
    · exact (Operation.signBlock.inj (same.symm.trans same')).2.2

/-- All permits of a run for one key and one slot are for one root: also of different guards, after
    prunes whole or cut, after failed calls and across reopenings.  What a run that is reopened
    brings in has to be storable, that is shorter than a ledger file can say; a root that is longer
    may be read back as the record of another one, as `double_proposal_longRoot` shows. -/
theorem no_double_proposal {run : Run} (guarded : ∀ s ∈ run, s.Guarded) (storable : run.Storable)
    {key : PublicKey} {slot : Slot} {root root' : SigningRoot}
    (permitted : (after run).PermittedBlock key slot root)
    (permitted' : (after run).PermittedBlock key slot root') : root = root' := by
  have invariant := after_induction (P := fun w => w.Protected run ∧ w.BlocksCovered)
    ⟨protected_empty run, fun _ _ _ h => (by contradiction), fun _ _ _ _ h => (by contradiction)⟩
    fun w s hs ⟨w_ok, covered⟩ => ⟨(w_ok.step_cases storable hs (guarded s hs)).1,
      covered.step w_ok storable hs (guarded s hs)⟩
  exact invariant.2.agree key slot root root' permitted permitted'

/-- Two guards permit the same block, one before a reopening and the other after it. -/
theorem no_double_proposal_twoGuards :
    (after Run.twoGuards).log[2]? = some ⟨.signBlock Run.oneKey 5 ⟨[1]⟩, .ok .permit⟩ ∧
      (after Run.twoGuards).log[5]? = some ⟨.signBlock Run.oneKey 5 ⟨[1]⟩, .ok .permit⟩ ∧
        (⟨[1]⟩ : SigningRoot) = ⟨[1]⟩ := by
  have first : (after Run.twoGuards).log[2]? =
      some ⟨.signBlock Run.oneKey 5 ⟨[1]⟩, .ok .permit⟩ := by
    decide +kernel
  have second : (after Run.twoGuards).log[5]? =
      some ⟨.signBlock Run.oneKey 5 ⟨[1]⟩, .ok .permit⟩ := by
    decide +kernel
  exact ⟨first, second, no_double_proposal Run.guarded_twoGuards Run.storable_twoGuards
    (List.mem_of_getElem? first) (List.mem_of_getElem? second)⟩

end World

end SlashingGuard
