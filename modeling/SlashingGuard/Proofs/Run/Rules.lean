import SlashingGuard.Proofs.Run.World

/-! # Guards follow the rules

    A ledger is bytes under one ordered map of keys, with one key space for
    all validators, read through the writes of a transaction.  What it holds
    of a validator is an account, and a guard that is asked to sign does what
    the rules do on the account of the key: it answers as they judge, it
    records what they record, and it leaves all other accounts alone.

    This holds in every world that a run leads to, also of runs in which calls
    fail, guards are started anew, and transactions are taken past the
    guards. -/

namespace SlashingGuard

/-! ## Requests on an account -/

namespace Account

/-- A block request by the rules: the answer, and the account after it.  A block is recorded if it
    is permitted at a slot where none was signed. -/
noncomputable def signBlock (a : Account) (slot : Slot) (root : SigningRoot) :
    Decision × Account :=
  (a.judgeBlock slot root,
    if a.judgeBlock slot root = .permit ∧ a.block slot = none then a.recordBlock slot root else a)

/-- An attestation request by the rules: the answer, and the account after it.  The root is kept
    as a ledger keeps it, which is whole if it fits into the memory of a 64-bit machine. -/
noncomputable def signVote (a : Account) (vote : Vote) (root : SigningRoot) :
    Decision × Account :=
  (a.judgeVote vote root,
    if a.judgeVote vote root = .permit ∧ a.vote vote.target = none then
      a.recordVote vote root.stored
    else a)

end Account

/-! ## One request -/

/-- A guard that was asked about the validator `id` has answered as it is ruled, and the ledger
    holds of everybody what it is ruled to hold. -/
structure FollowsRule (g : Guard) (t : Table Bytes) (id : ValidatorId) (ruled : Decision × Account)
    (result : Except GuardError Decision × Context × Table Bytes) : Prop where
  answer : result.1 = .ok ruled.1
  guard : result.2.1.guard = g
  registry : result.2.2.registry = t.registry
  account : result.2.2.account id = ruled.2
  others : ∀ other, other ≠ id → result.2.2.account other = t.account other

namespace Guard

open GuardWork

variable {c : Context} {t : Table Bytes} {key : PublicKey} {id : ValidatorId}

/-- What is answered without a record leaves the ledger. -/
theorem followsRule_unchanged {decision : Decision} (metrics : Metrics) :
    FollowsRule c.guard t id (decision, t.account id)
      (.ok decision, { c with metrics := metrics }, t) :=
  ⟨rfl, rfl, rfl, rfl, fun _ _ => rfl⟩

/-- A request of a known key under a free lock comes to what is decided about its validator. -/
theorem followsRule_answer {kind : DutyKind} {decide : ValidatorId → LedgerWork Decision}
    {ruled : Decision × Account} (enabled : c.guard.config.enabled)
    (known : c.guard.validatorId? key = some id) (free : (id, kind) ∉ c.guard.held)
    (decided : (decide id).run.Always False t fun r t' => ∃ decision, r = .ok decision ∧
      FollowsRule c.guard t id ruled (.ok decision, counted c kind decision, t')) :
    FollowsRule c.guard t id ruled ((answer kind key decide).onTable c t) := by
  have always : GuardWork.Always False (answer kind key decide) c t fun reply c' t' =>
      FollowsRule c.guard t id ruled (reply, c', t') := by
    refine always_answer (fun disabled => ?_) (fun unknown => ?_) (fun id' known' held => ?_)
      fun id' _ known' => ?_
    · rw [enabled] at disabled; contradiction
    · rw [known] at unknown; contradiction
    · obtain rfl := Option.some.inj (known.symm.trans known')
      exact absurd held free
    · obtain rfl := Option.some.inj (known.symm.trans known')
      refine decided.mono ?_
      rintro r t' ⟨decision, rfl, follows⟩
      exact follows
  exact always.onTable

theorem followsRule_signBlock (wf : t.WellFormed) (registered : t.isRegistered id)
    (enabled : c.guard.config.enabled) (known : c.guard.validatorId? key = some id)
    (free : (id, .block) ∉ c.guard.held) (slot : Slot) (root : SigningRoot) :
    FollowsRule c.guard t id ((t.account id).signBlock slot root)
      ((signBlock key slot root).onTable c t) := by
  refine followsRule_answer enabled known free (Ledger.always_signBlock wf
    (fun reason denied => ?_) (fun permit again => ?_) (fun _ permit unsigned => ?_)
    (fun gone => ?_) fun no => no.elim)
  · refine ⟨_, rfl, ?_⟩
    rw [Account.signBlock, denied, if_neg (by simp)]
    exact followsRule_unchanged _
  · refine ⟨_, rfl, ?_⟩
    rw [Account.signBlock, permit, if_neg (by simp [again])]
    exact followsRule_unchanged _
  · refine ⟨_, rfl, ?_⟩
    rw [Account.signBlock, permit, if_pos ⟨rfl, unsigned⟩]
    exact ⟨rfl, rfl, by simp, by simp, fun other ne => by simp [ne]⟩
  · rw [registered] at gone; contradiction

theorem followsRule_signAttestation (wf : t.WellFormed) (registered : t.isRegistered id)
    (enabled : c.guard.config.enabled) (known : c.guard.validatorId? key = some id)
    (free : (id, .attestation) ∉ c.guard.held) (vote : Vote) (root : SigningRoot) :
    FollowsRule c.guard t id ((t.account id).signVote vote root)
      ((signAttestation key vote root).onTable c t) := by
  refine followsRule_answer enabled known free (Ledger.always_signAttestation wf
    (fun reason denied => ?_) (fun permit again => ?_) (fun _ permit unsigned => ?_)
    (fun gone => ?_) fun no => no.elim)
  · refine ⟨_, rfl, ?_⟩
    rw [Account.signVote, denied, if_neg (by simp)]
    exact followsRule_unchanged _
  · obtain ⟨source, again⟩ := again
    refine ⟨_, rfl, ?_⟩
    rw [Account.signVote, permit, if_neg (by simp [again])]
    exact followsRule_unchanged _
  · refine ⟨_, rfl, ?_⟩
    rw [Account.signVote, permit, if_pos ⟨rfl, unsigned⟩]
    exact ⟨rfl, rfl, by simp, by simp, fun other ne => by simp [ne]⟩
  · rw [registered] at gone; contradiction

end Guard

/-! ## Requests after a run -/

namespace World

/-- After any run, whatever happened in it, a guard with protection that knows a key answers every
    request of the key as the rules say on the account that the ledger has of it. -/
theorem requests_follow_rules {run : Run} (storable : run.Storable) {g : Guard}
    (hg : g ∈ (after run).guards) (enabled : g.config.enabled) {key : PublicKey}
    {id : ValidatorId} (known : g.validatorId? key = some id) (metrics : Metrics) :
    (after run).table.registry.idOf key = some id ∧
      (∀ slot root, FollowsRule g (after run).table id
        (((after run).table.account id).signBlock slot root)
        ((Guard.signBlock key slot root).onTable ⟨g, metrics⟩ (after run).table)) ∧
      ∀ vote root, FollowsRule g (after run).table id
        (((after run).table.account id).signVote vote root)
        ((Guard.signAttestation key vote root).onTable ⟨g, metrics⟩ (after run).table) := by
  have sound := sound_after storable
  have number := sound.agrees g hg key id known
  have registered := sound.linked key id number
  have free : ∀ lock, lock ∉ g.held := by simp [sound.idle g hg]
  exact ⟨number,
    Guard.followsRule_signBlock (c := ⟨g, metrics⟩) sound.wellFormed registered enabled known
      (free _),
    Guard.followsRule_signAttestation (c := ⟨g, metrics⟩) sound.wellFormed registered enabled known
      (free _)⟩

/-- After the run of two guards the rules deny another block at the slot of the one signed. -/
theorem requests_follow_rules_twoGuards :
    ∃ g ∈ (after Run.twoGuards).guards, g.config.enabled ∧ g.validatorId? Run.oneKey = some ⟨1⟩ ∧
      ((after Run.twoGuards).table.account ⟨1⟩).judgeBlock 5 ⟨[2]⟩ =
        .deny .doubleBlockProposal := by
  have guard : ((after Run.twoGuards).guards[0]?.map fun g =>
      (g.config.enabled, g.validatorId? Run.oneKey,
        ((Guard.signBlock Run.oneKey 5 ⟨[2]⟩).onTable ⟨g, .zero⟩ (after Run.twoGuards).table).1)) =
      some (true, some ⟨1⟩, .ok (.deny .doubleBlockProposal)) := by
    decide +kernel
  obtain ⟨g, found, facts⟩ := Option.map_eq_some_iff.1 guard
  obtain ⟨enabled, known, denied⟩ : g.config.enabled ∧ g.validatorId? Run.oneKey = some ⟨1⟩ ∧ _ :=
    ⟨congrArg Prod.fst facts, congrArg (·.2.1) facts, congrArg (·.2.2) facts⟩
  have hg := List.mem_of_getElem? found
  obtain ⟨-, blocks, -⟩ := requests_follow_rules Run.storable_twoGuards hg enabled known .zero
  exact ⟨g, hg, enabled, known, Except.ok.inj ((blocks 5 ⟨[2]⟩).answer.symm.trans denied)⟩

end World

end SlashingGuard
