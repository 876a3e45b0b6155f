import SlashingGuard.Proofs.Run.World

/-! # No double vote and no surround vote

    Over a whole run, with any number of guards on one store, whatever they
    are asked in whatever order and whichever calls fail, the permitted votes
    of one key contradict each other in no way: no two of them have one target
    and different roots, and none surrounds another.

    What links a permit of the past to the ledger of the present is that its
    vote is still recorded, or that its target lies below both epoch floors.
    A recorded vote is one that the rules compare a request with.  A target
    below both floors is behind the source and the target of everything that
    is still permitted, and such a vote can neither surround nor be
    surrounded. -/

namespace SlashingGuard

/-! ## Votes that stay covered -/

/-- A vote that is recorded with its root, or whose target lies below both epoch floors. -/
def Account.CoversVote (a : Account) (vote : Vote) (root : SigningRoot) : Prop :=
  a.vote vote.target = some (vote.source, root) ∨
    ∃ s t, a.epochFloors = some (s, t) ∧ vote.target < s ∧ vote.target < t

namespace Account

variable {a b : Account} {vote new : Vote} {root : SigningRoot}

/-- Where a vote is covered, only its own root is permitted at its target. -/
theorem CoversVote.root_eq (h : a.CoversVote vote root) (same : new.target = vote.target)
    {other : SigningRoot} (permit : a.judgeVote new other = .permit) : root = other := by
  obtain ⟨-, visible, stored⟩ := judgeVote_eq_permit_iff.1 permit
  rcases h with recorded | ⟨s, t, floors, -, below⟩
  · rw [same, recorded] at stored
    rcases stored with ⟨source, stored⟩ | ⟨free, -⟩
    · exact (Prod.mk.inj (Option.some.inj stored)).2
    · contradiction
  · exact absurd ⟨s, t, floors, .inl (same ▸ below)⟩ visible

/-- Where a vote is covered, no vote at a new target is permitted that it surrounds or that
    surrounds it. -/
theorem CoversVote.not_surrounds (h : a.CoversVote vote root) (ordered : vote.source ≤ vote.target)
    (free : a.vote new.target = none) {other : SigningRoot}
    (permit : a.judgeVote new other = .permit) :
    ¬ vote.surrounds new ∧ ¬ new.surrounds vote := by
  obtain ⟨ordered', visible, stored⟩ := judgeVote_eq_permit_iff.1 permit
  simp only [Vote.surrounds_iff]
  rcases h with recorded | ⟨s, t, floors, belowSource, belowTarget⟩
  · obtain ⟨-, outer, inner⟩ := stored.resolve_left (by simp [free])
    exact ⟨fun ⟨lt, gt⟩ => outer ⟨_, _, root, recorded, lt, gt⟩,
      fun ⟨lt, gt⟩ => inner ⟨_, _, root, recorded, lt, gt⟩⟩
  · -- The new vote starts at the source floor or later, and the covered one ends before it.
    have source : s ≤ new.source :=
      UInt64.not_lt.1 fun lt => visible ⟨s, t, floors, .inr lt⟩
    have target : t ≤ new.target :=
      UInt64.not_lt.1 fun lt => visible ⟨s, t, floors, .inl lt⟩
    refine ⟨fun ⟨_, gt⟩ => ?_, fun ⟨lt, _⟩ => ?_⟩
    · exact UInt64.lt_irrefl _
        (UInt64.lt_trans gt (UInt64.lt_of_lt_of_le belowTarget target))
    · exact UInt64.lt_irrefl _ (UInt64.lt_of_lt_of_le
        (UInt64.lt_of_lt_of_le (UInt64.lt_of_lt_of_le lt ordered) (UInt64.le_of_lt belowSource))
        source)

theorem CoversVote.pruned (h : a.CoversVote vote root) (pruned : a.Pruned b) :
    b.CoversVote vote root := by
  rcases h with recorded | ⟨s, t, floors, hs, ht⟩
  · rcases pruned.vote vote.target with same | ⟨-, below⟩
    · exact .inl (same.trans recorded)
    · exact .inr below
  · obtain ⟨s', t', floors', les, let'⟩ := pruned.epochFloors s t floors
    exact .inr ⟨s', t', floors', UInt64.lt_of_lt_of_le hs les, UInt64.lt_of_lt_of_le ht let'⟩

/-- A vote stays covered when another one is put at a target that was free. -/
theorem CoversVote.recordVote (h : a.CoversVote vote root) (free : a.vote new.target = none)
    (root' : SigningRoot) : (a.recordVote new root').CoversVote vote root := by
  refine CoversVote.pruned ?_ (.raiseEpochs (a.putVote new root') 0 0)
  rcases h with recorded | below
  · have other : vote.target ≠ new.target := by
      intro same
      rw [same, free] at recorded
      contradiction
    exact .inl (by simpa [other] using recorded)
  · exact .inr below

theorem coversVote_recordVote (a : Account) (vote : Vote) (root : SigningRoot) :
    (a.recordVote vote root).CoversVote vote root :=
  .inl (by simp [Account.recordVote])

/-- Blocks do not bear on votes. -/
theorem CoversVote.recordBlock (h : a.CoversVote vote root) (slot : Slot) (root' : SigningRoot) :
    (a.recordBlock slot root').CoversVote vote root := h

end Account

namespace Outcome

variable {g g' : Guard} {t t' : Table Bytes} {op : Operation}
  {reply : Except GuardError Reply} {vote : Vote} {root : SigningRoot}

/-- No operation uncovers a vote. -/
theorem coversVote (h : Outcome g t op reply g' t') {id : ValidatorId}
    (covered : (t.account id).CoversVote vote root) :
    (t'.account id).CoversVote vote root := by
  cases h with
  | registered _ => rwa [Table.account_registerKeys]
  | block _ _ _ _ =>
    rw [Table.account_recordBlock]
    split
    · next same => exact (same ▸ covered).recordBlock _ _
    · exact covered
  | vote _ _ free _ =>
    rw [Table.account_recordVote]
    split
    · next same => exact (same ▸ covered).recordVote free _
    · exact covered
  | thinned thinned _ => exact covered.pruned (thinned.account id)
  | _ => exact covered

/-- A permit of a guard that checks is one of the rules: for the root that is recorded at the
    target, or for a vote at a free target, which is then recorded. -/
theorem permittedVote {key : PublicKey}
    (h : Outcome g t (.signAttestation key vote root) (.ok .permit) g' t')
    (enabled : g.config.enabled) :
    ∃ id, g.validatorId? key = some id ∧ (t.account id).judgeVote vote root = .permit ∧
      ((∃ source, (t.account id).vote vote.target = some (source, root)) ∧ t' = t ∨
        (t.account id).vote vote.target = none ∧ t' = t.recordVote id vote root) := by
  cases h with
  | idle refused => exact absurd rfl refused
  | thinned _ refused => exact absurd rfl refused
  | unchecked disabled => rw [enabled] at disabled; contradiction
  | vote known _ free permit => exact ⟨_, known, permit, .inr ⟨free, rfl⟩⟩
  | voteAgain known again permit => exact ⟨_, known, permit, .inl ⟨⟨_, again⟩, rfl⟩⟩

/-- A recorded vote was recorded before, or is the one that was just permitted. -/
theorem vote_origin (h : Outcome g t op reply g' t') {id : ValidatorId} {target source : Epoch}
    (recorded : (t'.account id).vote target = some (source, root)) :
    (t.account id).vote target = some (source, root) ∨
      ∃ key signed, op = .signAttestation key ⟨source, target⟩ signed ∧ reply = .ok .permit ∧
        g.validatorId? key = some id ∧ root = signed.stored := by
  cases h with
  | registered _ => rw [Table.account_registerKeys] at recorded; exact .inl recorded
  | block _ _ _ _ =>
    rw [Table.account_recordBlock] at recorded
    split at recorded
    · next same => exact .inl (same ▸ recorded)
    · exact .inl recorded
  | @vote key id' new signed known _ _ _ =>
    rw [Table.account_recordVote] at recorded
    split at recorded
    · next same =>
      subst same
      simp only [Account.recordVote, Account.raiseEpochs_vote, Account.putVote_vote] at recorded
      split at recorded
      · next same =>
        obtain ⟨rfl, rfl⟩ := Prod.mk.inj (Option.some.inj recorded)
        subst same
        exact .inr ⟨key, signed, rfl, rfl, known, rfl⟩
      · exact .inl recorded
    · exact .inl recorded
  | thinned thinned _ =>
    rcases (thinned.account id).vote target with same | ⟨gone, -⟩
    · exact .inl (same ▸ recorded)
    · rw [gone] at recorded; contradiction
  | _ => exact .inl recorded

/-- Only registration changes the registry. -/
theorem registry_cases (h : Outcome g t op reply g' t') :
    t'.registry = t.registry ∨ ∃ keys, op = .register keys ∧ t' = (t.registerKeys keys).1 := by
  cases h with
  | registered _ => exact .inr ⟨_, rfl, rfl⟩
  | block _ _ _ _ => exact .inl (Table.registry_recordBlock _ _)
  | vote _ _ _ _ => exact .inl (Table.registry_recordVote _ _)
  | thinned thinned _ => exact .inl thinned.registry
  | _ => exact .inl rfl

end Outcome

/-- How many keys an operation registers. -/
def Operation.keyCount : Operation → Nat
  | .register keys => keys.length
  | _ => 0

namespace World

variable {run : Run} {w w' : World}

/-! ## Votes of a run -/

/-- An attestation request of the run. -/
def AskedVote (w : World) (key : PublicKey) (vote : Vote) (root : SigningRoot) : Prop :=
  ∃ reply, ⟨.signAttestation key vote root, reply⟩ ∈ w.log

/-- An attestation request of the run that was permitted. -/
def PermittedVote (w : World) (key : PublicKey) (vote : Vote) (root : SigningRoot) : Prop :=
  ⟨.signAttestation key vote root, .ok .permit⟩ ∈ w.log

/-- A signing root stands for all of what is signed, the source epoch included. -/
def RootsNameSources (w : World) : Prop :=
  ∀ key vote vote' root, w.AskedVote key vote root → w.AskedVote key vote' root →
    vote.target = vote'.target → vote.source = vote'.source

/-- How many keys guards were asked to register. -/
def keysAsked (w : World) : Nat := (w.log.map fun e => e.operation.keyCount).sum

theorem PermittedVote.asked {key : PublicKey} {vote : Vote} {root : SigningRoot}
    (h : w.PermittedVote key vote root) : w.AskedVote key vote root := ⟨_, h⟩

/-- A permit after a step is an earlier one, or the step gave it on what the rules say: again for
    the recorded root, or for a vote at a free target. -/
theorem Protected.permittedVote_cases (w_ok : w.Protected run) {g g' : Guard} (hg : g ∈ w.guards)
    {op : Operation} {reply : Except GuardError Reply}
    (outcome : Outcome g w.table op reply g' w'.table) (log : w'.log = w.log ++ [⟨op, reply⟩])
    {key : PublicKey} {vote : Vote} {root : SigningRoot}
    (permitted : w'.PermittedVote key vote root) :
    w.PermittedVote key vote root ∨ op = .signAttestation key vote root ∧
      ∃ id, w.table.registry.idOf key = some id ∧
        (w.table.account id).judgeVote vote root = .permit ∧
          ((∃ source, (w.table.account id).vote vote.target = some (source, root)) ∧
              w'.table = w.table ∨
            (w.table.account id).vote vote.target = none ∧
              w'.table = w.table.recordVote id vote root) := by
  rw [PermittedVote, log] at permitted
  rcases List.mem_append.1 permitted with before | now
  · exact .inl before
  · obtain ⟨rfl, rfl⟩ := Event.mk.inj (List.mem_singleton.1 now)
    obtain ⟨id, known, permit, done⟩ := outcome.permittedVote (w_ok.enabled g hg)
    exact .inr ⟨rfl, id, w_ok.agrees g hg key id known, permit, done⟩

/-! ## Double votes -/

/-- Every permitted vote has its epochs in order and its root covered in the account of its key,
    and no two permitted votes at one target have different roots. -/
structure TargetsCovered (w : World) : Prop where
  ordered : ∀ key vote root, w.PermittedVote key vote root → vote.source ≤ vote.target
  covered : ∀ key vote root, w.PermittedVote key vote root →
    ∃ id, w.table.registry.idOf key = some id ∧
      ∃ source, (w.table.account id).CoversVote ⟨source, vote.target⟩ root
  agree : ∀ key vote vote' root root', w.PermittedVote key vote root →
    w.PermittedVote key vote' root' → vote.target = vote'.target → root = root'

theorem TargetsCovered.root_eq (h : w.TargetsCovered) {key : PublicKey} {vote new : Vote}
    {root root' : SigningRoot} (before : w.PermittedVote key vote root)
    (same : vote.target = new.target) {id : ValidatorId}
    (number : w.table.registry.idOf key = some id)
    (permit : (w.table.account id).judgeVote new root' = .permit) : root = root' := by
  obtain ⟨id', number', source, covered⟩ := h.covered key vote root before
  obtain rfl : id' = id := Option.some.inj (number'.symm.trans number)
  exact covered.root_eq same.symm permit

theorem TargetsCovered.step (h : w.TargetsCovered) (w_ok : w.Protected run)
    (storable : run.Storable) {s : Step} (hs : s ∈ run) (guarded : s.Guarded)
    (fits : ∀ bytes ∈ s.payload, bytes.length < 2 ^ 64) : (w.step s).TargetsCovered := by
  obtain ⟨-, ⟨table, log⟩ | ⟨g, hg, op, reply, g', payload, outcome, log⟩⟩ :=
    w_ok.step_cases storable hs guarded
  · obtain ⟨ordered, covered, agree⟩ := h
    simp only [PermittedVote, ← table, ← log] at ordered covered agree
    exact ⟨ordered, covered, agree⟩
  constructor
  -- Epochs in order.
  · intro key vote root permitted
    rcases w_ok.permittedVote_cases hg outcome log permitted with before | ⟨-, _, -, permit, -⟩
    · exact h.ordered key vote root before
    · exact (Account.judgeVote_eq_permit_iff.1 permit).1
  -- Targets covered.
  · intro key vote root permitted
    rcases w_ok.permittedVote_cases hg outcome log permitted with
      before | ⟨rfl, id, number, permit, ⟨⟨source, again⟩, table⟩ | ⟨free, table⟩⟩
    · obtain ⟨id, number, source, covered⟩ := h.covered key vote root before
      exact ⟨id, outcome.remembers.idOf key id number, source, outcome.coversVote covered⟩
    · exact ⟨id, outcome.remembers.idOf key id number, source, .inl (by rw [table]; exact again)⟩
    · have whole : root.stored = root :=
        SigningRoot.stored_eq (fits _ (payload ▸ List.mem_cons_self))
      refine ⟨id, outcome.remembers.idOf key id number, vote.source, ?_⟩
      rw [table, Table.account_recordVote, if_pos rfl, whole]
      exact Account.coversVote_recordVote _ vote root
  -- One root at a target.
  · intro key vote vote' root root' permitted permitted' same
    rcases w_ok.permittedVote_cases hg outcome log permitted with
        before | ⟨now, id, number, permit, -⟩ <;>
      rcases w_ok.permittedVote_cases hg outcome log permitted' with
        before' | ⟨now', id', number', permit', -⟩
    · exact h.agree key vote vote' root root' before before' same
    · exact h.root_eq before same number' permit'
    · exact (h.root_eq before' same.symm number permit).symm
    · exact (Operation.signAttestation.inj (now.symm.trans now')).2.2

/-! ## Numbers and records -/

/-- Keys have different numbers, and no more numbers are given out than keys were asked for. -/
def KeysNumbered (w : World) : Prop :=
  ∃ n ≤ w.keysAsked, w.table.registry.Numbered n ∧ w.table.registry.next = UInt64.ofNat (n + 1)

/-- Every recorded vote was permitted, for a key of the validator that it is recorded of. -/
def VotesPermitted (w : World) : Prop :=
  ∀ id target source root, (w.table.account id).vote target = some (source, root) →
    ∃ key, w.table.registry.idOf key = some id ∧ w.PermittedVote key ⟨source, target⟩ root

theorem keysAsked_append {e : Event} (log : w'.log = w.log ++ [e]) :
    w'.keysAsked = w.keysAsked + e.operation.keyCount := by
  rw [keysAsked, log, List.map_append, List.sum_append]
  rfl

theorem KeysNumbered.step (h : w.KeysNumbered) {g g' : Guard} {op : Operation}
    {reply : Except GuardError Reply} (outcome : Outcome g w.table op reply g' w'.table)
    (log : w'.log = w.log ++ [⟨op, reply⟩]) (room : w'.keysAsked < 2 ^ 64) : w'.KeysNumbered := by
  obtain ⟨n, le, numbered, next⟩ := h
  rw [KeysNumbered, keysAsked_append log]
  rw [keysAsked_append log] at room
  rcases outcome.registry_cases with same | ⟨keys, rfl, table⟩
  · rw [same]
    exact ⟨n, Nat.le_add_right_of_le le, numbered, next⟩
  · simp only [Operation.keyCount] at room ⊢
    obtain ⟨m, le', numbered'⟩ :=
      Table.numbered_registerKeys numbered next keys (by omega)
    rw [table]
    exact ⟨m, by omega, numbered'⟩

theorem keysNumbered_empty : KeysNumbered empty :=
  ⟨0, Nat.le_refl 0, ⟨fun _ _ h => by contradiction, fun _ _ _ h => by contradiction⟩, rfl⟩

theorem VotesPermitted.step (h : w.VotesPermitted) (w_ok : w.Protected run) {g g' : Guard}
    (hg : g ∈ w.guards) {op : Operation} {reply : Except GuardError Reply}
    (outcome : Outcome g w.table op reply g' w'.table) (log : w'.log = w.log ++ [⟨op, reply⟩])
    (whole : ∀ {key vote root}, op = .signAttestation key vote root → root.stored = root) :
    w'.VotesPermitted := by
  intro id target source root recorded
  rcases outcome.vote_origin recorded with before | ⟨key, signed, now, permit, known, stored⟩
  · obtain ⟨key, number, permitted⟩ := h id target source root before
    refine ⟨key, outcome.remembers.idOf key id number, ?_⟩
    rw [PermittedVote, log]
    exact List.mem_append_left _ permitted
  · have number := w_ok.agrees g hg key id known
    refine ⟨key, outcome.remembers.idOf key id number, ?_⟩
    rw [PermittedVote, log, stored, whole now, now, permit]
    exact List.mem_append_right _ List.mem_cons_self

/-! ## Surround votes -/

/-- Numbers are not mixed up, every permitted vote is covered with its own source, every recorded
    vote was permitted, and no permitted vote surrounds another. -/
structure VotesCovered (w : World) : Prop where
  numbered : w.KeysNumbered
  covered : ∀ key vote root, w.PermittedVote key vote root →
    ∃ id, w.table.registry.idOf key = some id ∧ (w.table.account id).CoversVote vote root
  origin : w.VotesPermitted
  free : ∀ key vote vote' root root', w.PermittedVote key vote root →
    w.PermittedVote key vote' root' → ¬ vote.surrounds vote'

/-- What is permitted again for a recorded root was permitted before: the root stands for the
    source, and the number for the key. -/
theorem VotesPermitted.permitted_again (h : w.VotesPermitted) (numbered : w.KeysNumbered)
    {key : PublicKey} {vote : Vote} {root : SigningRoot} {id : ValidatorId}
    (number : w.table.registry.idOf key = some id) {source : Epoch}
    (again : (w.table.account id).vote vote.target = some (source, root))
    (names : ∀ vote', w.AskedVote key vote' root → vote'.target = vote.target →
      vote'.source = vote.source) : source = vote.source ∧ w.PermittedVote key vote root := by
  obtain ⟨key', number', permitted⟩ := h id vote.target source root again
  obtain ⟨n, -, numbered, -⟩ := numbered
  obtain rfl := numbered.injective key' key id number' number
  obtain rfl : source = vote.source := names _ permitted.asked rfl
  exact ⟨rfl, permitted⟩

/-- A permit after a step is an earlier one, or was given for a vote at a free target: what is
    permitted again was permitted before. -/
theorem VotesCovered.permittedVote_cases (h : w.VotesCovered) (w_ok : w.Protected run)
    {g g' : Guard} (hg : g ∈ w.guards) {op : Operation} {reply : Except GuardError Reply}
    (outcome : Outcome g w.table op reply g' w'.table) (log : w'.log = w.log ++ [⟨op, reply⟩])
    (names : w'.RootsNameSources) {key : PublicKey} {vote : Vote} {root : SigningRoot}
    (permitted : w'.PermittedVote key vote root) :
    w.PermittedVote key vote root ∨ op = .signAttestation key vote root ∧
      ∃ id, w.table.registry.idOf key = some id ∧
        (w.table.account id).judgeVote vote root = .permit ∧
          (w.table.account id).vote vote.target = none ∧
            w'.table = w.table.recordVote id vote root := by
  rcases w_ok.permittedVote_cases hg outcome log permitted with
    before | ⟨now, id, number, permit, ⟨⟨source, again⟩, -⟩ | ⟨free, table⟩⟩
  · exact .inl before
  · refine .inl (h.origin.permitted_again h.numbered number again fun vote' asked same => ?_).2
    obtain ⟨reply', asked⟩ := asked
    have asked : w'.AskedVote key vote' root :=
      ⟨reply', by rw [log]; exact List.mem_append_left _ asked⟩
    exact names key vote' vote root asked permitted.asked same
  · exact .inr ⟨now, id, number, permit, free, table⟩

/-- What is permitted at a free target is not around an earlier permit, nor inside one. -/
theorem VotesCovered.not_surrounds (h : w.VotesCovered) (targets : w.TargetsCovered)
    {key : PublicKey} {vote new : Vote} {root root' : SigningRoot}
    (before : w.PermittedVote key vote root) {id : ValidatorId}
    (number : w.table.registry.idOf key = some id)
    (permit : (w.table.account id).judgeVote new root' = .permit)
    (free : (w.table.account id).vote new.target = none) :
    ¬ vote.surrounds new ∧ ¬ new.surrounds vote := by
  obtain ⟨id', number', covered⟩ := h.covered key vote root before
  obtain rfl : id' = id := Option.some.inj (number'.symm.trans number)
  exact covered.not_surrounds (targets.ordered key vote root before) free permit

theorem VotesCovered.step (h : w.VotesCovered) (targets : w.TargetsCovered)
    (w_ok : w.Protected run) (storable : run.Storable) {s : Step} (hs : s ∈ run)
    (guarded : s.Guarded) (fits : ∀ bytes ∈ s.payload, bytes.length < 2 ^ 64)
    (names : (w.step s).RootsNameSources) (room : (w.step s).keysAsked < 2 ^ 64) :
    (w.step s).VotesCovered := by
  obtain ⟨-, ⟨table, log⟩ | ⟨g, hg, op, reply, g', payload, outcome, log⟩⟩ :=
    w_ok.step_cases storable hs guarded
  · obtain ⟨numbered, covered, origin, free⟩ := h
    simp only [KeysNumbered, VotesPermitted, PermittedVote, keysAsked, ← table, ← log]
      at numbered covered origin free
    exact ⟨numbered, covered, origin, free⟩
  have whole : ∀ {key vote root}, op = .signAttestation key vote root → root.stored = root := by
    rintro key vote root rfl
    exact SigningRoot.stored_eq (fits _ (payload ▸ List.mem_cons_self))
  refine ⟨h.numbered.step outcome log room, ?_, h.origin.step w_ok hg outcome log whole, ?_⟩
  -- Votes covered with their sources.
  · intro key vote root permitted
    rcases h.permittedVote_cases w_ok hg outcome log names permitted with
      before | ⟨now, id, number, permit, free, table⟩
    · obtain ⟨id, number, covered⟩ := h.covered key vote root before
      exact ⟨id, outcome.remembers.idOf key id number, outcome.coversVote covered⟩
    · refine ⟨id, outcome.remembers.idOf key id number, ?_⟩
      rw [table, Table.account_recordVote, if_pos rfl, whole now]
      exact Account.coversVote_recordVote _ vote root
  -- No vote around another.
  · intro key vote vote' root root' permitted permitted'
    rcases h.permittedVote_cases w_ok hg outcome log names permitted with
        before | ⟨now, id, number, permit, free, -⟩ <;>
      rcases h.permittedVote_cases w_ok hg outcome log names permitted' with
        before' | ⟨now', id', number', permit', free', -⟩
    · exact h.free key vote vote' root root' before before'
    · exact (h.not_surrounds targets before number' permit' free').1
    · exact (h.not_surrounds targets before' number permit free).2
    · obtain ⟨-, rfl, -⟩ := Operation.signAttestation.inj (now.symm.trans now')
      exact fun surrounds => UInt64.lt_irrefl _ (Vote.surrounds_iff.1 surrounds).1

/-! ## Whole runs -/

/-- A step only adds to the log. -/
theorem Protected.log_step (w_ok : w.Protected run) (storable : run.Storable) {s : Step}
    (hs : s ∈ run) (guarded : s.Guarded) : ∃ more, (w.step s).log = w.log ++ more := by
  obtain ⟨-, ⟨-, log⟩ | ⟨_, _, op, reply, _, _, _, log⟩⟩ := w_ok.step_cases storable hs guarded
  · exact ⟨[], by rw [log, List.append_nil]⟩
  · exact ⟨[⟨op, reply⟩], log⟩

theorem RootsNameSources.of_append (h : w'.RootsNameSources) {more : List Event}
    (log : w'.log = w.log ++ more) : w.RootsNameSources := by
  have asked : ∀ {key vote root}, w.AskedVote key vote root → w'.AskedVote key vote root := by
    rintro key vote root ⟨reply, asked⟩
    exact ⟨reply, log ▸ List.mem_append_left _ asked⟩
  exact fun key vote vote' root h₁ h₂ => h key vote vote' root (asked h₁) (asked h₂)

theorem keysAsked_le_of_append {more : List Event} (log : w'.log = w.log ++ more) :
    w.keysAsked ≤ w'.keysAsked := by
  rw [keysAsked, keysAsked, log, List.map_append, List.sum_append]
  exact Nat.le_add_right _ _

/-- Keys are numbered after a run that has asked for fewer keys than there are numbers. -/
theorem keysNumbered_after {run : Run} (guarded : ∀ s ∈ run, s.Guarded) (storable : run.Storable)
    (room : (after run).keysAsked < 2 ^ 64) : (after run).KeysNumbered := by
  have numbered := protected_induction (P := fun w => w.keysAsked < 2 ^ 64 → w.KeysNumbered)
    guarded storable (fun _ => keysNumbered_empty) ?_ ?_
  · exact numbered.2 room
  · intro w w' table log numbered room
    simp only [KeysNumbered, keysAsked, table, log] at numbered room ⊢
    exact numbered room
  · intro w w' _ s _ g _ op reply g' _ outcome log numbered room
    have before := numbered (Nat.lt_of_le_of_lt (keysAsked_le_of_append log) room)
    exact before.step outcome log room

end World

/-- Every byte string that comes from outside fits into the memory of a 64-bit machine. -/
def Run.FitsMemory (run : Run) : Prop :=
  ∀ s ∈ run, ∀ bytes ∈ s.payload, bytes.length < 2 ^ 64

namespace World

theorem votesCovered_empty : VotesCovered empty where
  numbered := keysNumbered_empty
  covered _ _ _ h := by contradiction
  origin _ _ _ _ h := by contradiction
  free _ _ _ _ _ h := by contradiction

/-- Two permits of a run for votes of one key have their epochs in order, and at one target they
    are for one root.  If roots stand for sources, and fewer keys were registered than there are
    numbers, neither vote surrounds the other.  This holds of permits of different guards, after
    prunes whole or cut, after failed calls and across reopenings.  As with proposals, what a run
    that is reopened brings in has to be storable; see `double_vote_longRoot`. -/
theorem no_slashable_votes {run : Run} (guarded : ∀ s ∈ run, s.Guarded)
    (storable : run.Storable) (fits : run.FitsMemory) {key : PublicKey} {vote vote' : Vote}
    {root root' : SigningRoot} (permitted : (after run).PermittedVote key vote root)
    (permitted' : (after run).PermittedVote key vote' root') :
    vote.source ≤ vote.target ∧ vote'.source ≤ vote'.target ∧
      (vote.target = vote'.target → root = root') ∧
        ((after run).keysAsked < 2 ^ 64 → (after run).RootsNameSources →
          ¬ vote.surrounds vote' ∧ ¬ vote'.surrounds vote) := by
  have invariant : (after run).Protected run ∧ (after run).TargetsCovered ∧
      ((after run).keysAsked < 2 ^ 64 → (after run).RootsNameSources →
        (after run).VotesCovered) := by
    refine after_induction (P := fun w => w.Protected run ∧ w.TargetsCovered ∧
      (w.keysAsked < 2 ^ 64 → w.RootsNameSources → w.VotesCovered)) ?_ ?_
    · exact ⟨protected_empty run, ⟨fun _ _ _ h => (by contradiction),
        fun _ _ _ h => (by contradiction), fun _ _ _ _ _ h => (by contradiction)⟩,
        fun _ _ => votesCovered_empty⟩
    · rintro w s hs ⟨w_ok, targets, votes⟩
      refine ⟨(w_ok.step_cases storable hs (guarded s hs)).1,
        targets.step w_ok storable hs (guarded s hs) (fits s hs), fun room names => ?_⟩
      obtain ⟨more, log⟩ := w_ok.log_step storable hs (guarded s hs)
      have before := votes (Nat.lt_of_le_of_lt (keysAsked_le_of_append log) room)
        (names.of_append log)
      exact before.step targets w_ok storable hs (guarded s hs) (fits s hs) names room
  obtain ⟨-, targets, votes⟩ := invariant
  refine ⟨targets.ordered key vote root permitted, targets.ordered key vote' root' permitted',
    targets.agree key vote vote' root root' permitted permitted', fun room names => ?_⟩
  have free := (votes room names).free
  exact ⟨free key vote vote' root root' permitted permitted',
    free key vote' vote root' root permitted' permitted⟩

/-- The votes that two guards are asked for. -/
theorem askedVote_twoGuards {key : PublicKey} {vote : Vote} {root : SigningRoot}
    (asked : (after Run.twoGuards).AskedVote key vote root) :
    vote = ⟨2, 3⟩ ∧ root = ⟨[2]⟩ ∨ vote = ⟨3, 8⟩ ∧ root = ⟨[3]⟩ ∨
      vote = ⟨8, 9⟩ ∧ root = ⟨[4]⟩ := by
  obtain ⟨reply, asked⟩ := asked
  have operations : (after Run.twoGuards).log.map Event.operation =
      [.register [Run.oneKey], .register [Run.oneKey], .signBlock Run.oneKey 5 ⟨[1]⟩,
        .signAttestation Run.oneKey ⟨2, 3⟩ ⟨[2]⟩, .signBlock Run.oneKey 5 ⟨[1]⟩,
        .signBlock Run.oneKey 5 ⟨[1]⟩, .signAttestation Run.oneKey ⟨3, 8⟩ ⟨[3]⟩,
        .pruneValidator ⟨1⟩ 2 1, .signAttestation Run.oneKey ⟨8, 9⟩ ⟨[4]⟩] := by
    decide +kernel
  have asked := List.mem_map_of_mem (f := Event.operation) asked
  rw [operations] at asked
  simp only [List.mem_cons, List.not_mem_nil, reduceCtorEq, false_or, or_false,
    Operation.signAttestation.injEq] at asked
  exact asked.imp And.right (Or.imp And.right And.right)

/-- Of two votes the first was forgotten before the second was permitted, and neither surrounds
    the other. -/
theorem no_slashable_votes_twoGuards :
    (after Run.twoGuards).PermittedVote Run.oneKey ⟨2, 3⟩ ⟨[2]⟩ ∧
      (after Run.twoGuards).PermittedVote Run.oneKey ⟨8, 9⟩ ⟨[4]⟩ ∧
        ¬ Vote.surrounds ⟨2, 3⟩ ⟨8, 9⟩ ∧ ¬ Vote.surrounds ⟨8, 9⟩ ⟨2, 3⟩ := by
  have first : (after Run.twoGuards).PermittedVote Run.oneKey ⟨2, 3⟩ ⟨[2]⟩ := by
    unfold PermittedVote
    decide +kernel
  have last : (after Run.twoGuards).PermittedVote Run.oneKey ⟨8, 9⟩ ⟨[4]⟩ := by
    unfold PermittedVote
    decide +kernel
  have fits : Run.twoGuards.FitsMemory := by
    simp [Run.FitsMemory, Run.twoGuards, Step.payload, Operation.payload]
  have names : (after Run.twoGuards).RootsNameSources := by
    intro key vote vote' root asked asked' same
    rcases askedVote_twoGuards asked with ⟨rfl, rfl⟩ | ⟨rfl, rfl⟩ | ⟨rfl, rfl⟩ <;>
      rcases askedVote_twoGuards asked' with ⟨rfl, h⟩ | ⟨rfl, h⟩ | ⟨rfl, h⟩ <;>
        first | rfl | simp at h
  obtain ⟨-, -, -, free⟩ := no_slashable_votes Run.guarded_twoGuards Run.storable_twoGuards fits
    first last
  exact ⟨first, last, free (by decide +kernel) names⟩

end World

end SlashingGuard
