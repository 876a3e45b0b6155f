import SlashingGuard.Proofs.Guard.Operation
import SlashingGuard.Proofs.Guard.ServicePrune

/-! # What is counted

    A guard counts each decision once, permits by their kind and denials also
    by their reason, and it counts the records that its prunes remove.

    A prune that is cut counts the halves that it has done and no others.  So
    whatever becomes of a prune, the records that are left and those that were
    counted as removed are together as many as before. -/

namespace SlashingGuard

/-! ## Counters -/

namespace Metrics

variable {m m' m'' : Metrics} {t t' t'' : Table Bytes}

theorem permitted_countDecision (m : Metrics) (kind k : DutyKind) (d : Decision) :
    (m.countDecision kind d).permitted k =
      m.permitted k + if k = kind ∧ d = .permit then 1 else 0 := by
  cases d with
  | permit => by_cases same : k = kind <;> simp [countDecision, same]
  | deny reason => simp [countDecision]

theorem prevented_countDecision (m : Metrics) (kind k : DutyKind) (d : Decision)
    (reason : DenialReason) :
    (m.countDecision kind d).prevented k reason =
      m.prevented k reason + if k = kind ∧ d = .deny reason then 1 else 0 := by
  cases d with
  | permit => simp [countDecision]
  | deny r =>
    by_cases same : k = kind ∧ reason = r
    · simp [countDecision, same]
    · have other : ¬ (k = kind ∧ r = reason) := fun h => same ⟨h.1, h.2.symm⟩
      simp [countDecision, same, other]

theorem pruned_countDecision (m : Metrics) (kind : DutyKind) (d : Decision) :
    (m.countDecision kind d).pruned = m.pruned := by
  cases d <;> rfl

/-- No answer was counted meanwhile, and as many records were counted as removed as are missing. -/
structure Balances (m : Metrics) (t : Table Bytes) (m' : Metrics) (t' : Table Bytes) : Prop where
  permitted : m'.permitted = m.permitted
  prevented : m'.prevented = m.prevented
  records : ∀ kind, t'.recordCount kind + m'.pruned kind = t.recordCount kind + m.pruned kind

namespace Balances

theorem of_recordCount_eq (same : ∀ kind, t'.recordCount kind = t.recordCount kind) :
    Balances m t m t' where
  permitted := rfl
  prevented := rfl
  records kind := by rw [same]

theorem refl (m : Metrics) (t : Table Bytes) : Balances m t m t := of_recordCount_eq fun _ => rfl

theorem trans (h : Balances m t m' t') (h' : Balances m' t' m'' t'') : Balances m t m'' t'' where
  permitted := h'.permitted.trans h.permitted
  prevented := h'.prevented.trans h.prevented
  records kind := (h'.records kind).trans (h.records kind)

/-- Half a prune is counted when it is done. -/
theorem pruneHalf (m : Metrics) (t : Table Bytes) (id : ValidatorId) (kind : DutyKind)
    (keep : UInt64) :
    Balances m t (m.countPruned kind (t.removed id kind keep)) (t.pruneHalf id kind keep) where
  permitted := rfl
  prevented := rfl
  records k := by
    by_cases same : k = kind
    · subst same
      have counts := t.recordCount_pruneHalf id k keep
      simp only [countPruned, if_true]
      omega
    · have other := t.recordCount_pruneHalf_of_ne id same keep
      simp [countPruned, same, other]

end Balances

end Metrics

/-! ## Prunes -/

namespace Guard

open GuardWork

variable {faulty : Prop} {c c' : Context} {t t' : Table Bytes} {id : ValidatorId} {e p : UInt64}
  {r : Except GuardError PruneOutcome}

theorem PruneEnds.regular (regular : t.Regular) (h : PruneEnds faulty c t id e p r c' t') :
    t'.Regular := by
  cases h with
  | done => exact regular.pruned id e p
  | inBlocks _ cut => exact cut.regular regular
  | inAttestations _ cut => exact cut.regular (regular.pruneHalf id .block _)

/-- However a prune of one validator ends, it has counted what it removed. -/
theorem PruneEnds.balances (legible : t.Legible) (h : PruneEnds faulty c t id e p r c' t') :
    c.metrics.Balances t c'.metrics t' := by
  have ne : DutyKind.attestation ≠ .block := nofun
  have blocks := Metrics.Balances.pruneHalf c.metrics t id .block (slotsKept e p)
  cases h with
  | done =>
    have attestations := Metrics.Balances.pruneHalf
      (c.metrics.countPruned .block (t.removed id .block (slotsKept e p)))
      (t.pruneHalf id .block (slotsKept e p)) id .attestation e
    rw [Table.removed_pruneHalf_of_ne legible ne] at attestations
    exact blocks.trans attestations
  | inBlocks _ cut => exact .of_recordCount_eq fun _ => cut.recordCount_eq
  | inAttestations _ cut => exact blocks.trans (.of_recordCount_eq fun _ => cut.recordCount_eq)

theorem always_pruneValidator_balances (regular : t.Regular) (id : ValidatorId) (e p : UInt64) :
    Always faulty (pruneValidator id e p) c t fun _ c' t' =>
      t'.Regular ∧ c.metrics.Balances t c'.metrics t' := by
  by_cases zero : e = 0 ∨ p = 0
  · -- Such a prune is refused before it has done anything.
    unfold Always
    rw [run_pruneValidator_refused c zero]
    exact ⟨regular, .refl _ t⟩
  · obtain ⟨he, hp⟩ := not_or.1 zero
    exact (always_pruneValidator_ends regular he hp).mono fun _ _ _ ends =>
      ⟨ends.regular regular, ends.balances regular.toLegible⟩

/-- So it is with prunes of several validators, up to the error that ends them. -/
theorem always_pruneAll_balances (regular : t.Regular) (e p : UInt64) (summary : PruneSummary)
    (ids : List ValidatorId) :
    Always faulty (pruneAll e p summary ids) c t fun _ c' t' =>
      c.metrics.Balances t c'.metrics t' := by
  induction ids generalizing c t summary with
  | nil => exact always_pure.2 (.refl _ t)
  | cons id rest ih =>
    unfold pruneAll
    refine always_bind.2 ((always_pruneValidator_balances regular id e p).mono ?_)
    rintro r c' t' ⟨regular', balances⟩
    cases r with
    | error _ => exact balances
    | ok outcome => exact (ih regular' _).mono fun _ _ _ later => balances.trans later

theorem always_prune_balances (regular : t.Regular) :
    Always faulty prune c t fun _ c' t' => c.metrics.Balances t c'.metrics t' := by
  unfold prune
  rw [always_theGuard_bind]
  refine always_bind.2 (always_conclude.2 ?_)
  split
  · exact always_pruneAll_balances regular _ _ _ _
  · exact .refl _ t

/-! ### Summaries -/

/-- A summary reports, of each kind, as many records as the validators have lost, and no others are
    lost. -/
structure Reports (summary : PruneSummary) (t t' : Table Bytes) (ids : List ValidatorId) :
    Prop where
  removed : ∀ kind, summary.removed kind =
    (ids.map fun id => t.recordsOf kind id - t'.recordsOf kind id).sum
  kept : ∀ kind id, id ∈ ids → t'.recordsOf kind id ≤ t.recordsOf kind id
  total : ∀ kind, t'.recordCount kind + summary.removed kind = t.recordCount kind

theorem reports_prunedAll (regular : t.Regular) {ids : List ValidatorId} (once : ids.Nodup)
    (e p : UInt64) :
    Reports ((ids.map fun id => t.outcome id e p).foldl .record .empty) t (t.prunedAll e p ids)
      ids := by
  have removed : ∀ kind, PruneSummary.removed ((ids.map fun id => t.outcome id e p).foldl .record
      .empty) kind = (ids.map fun id => (t.outcome id e p).removed kind).sum := by
    intro kind
    rw [(PruneSummary.foldl_record _ _).2, List.map_map]
    cases kind <;> exact Nat.zero_add _
  constructor
  · intro kind
    rw [removed]
    congr 1
    apply List.map_congr_left
    intro id member
    have lost := Table.recordsOf_prunedAll regular once member e p kind
    omega
  · intro kind id member
    have lost := Table.recordsOf_prunedAll regular once member e p kind
    omega
  · intro kind
    rw [removed]
    exact Table.recordCount_prunedAll regular once e p kind

/-- A prune that succeeds, whatever calls might have failed, reports what it removed. -/
theorem always_prune_reports (regular : t.Regular) :
    Always faulty prune c t fun r _ t' =>
      ∀ summary, r = .ok summary → Reports summary t t' c.guard.registeredIds := by
  unfold prune
  rw [always_theGuard_bind]
  refine always_bind.2 (always_conclude.2 ?_)
  cases usable : c.guard.config.pruning.check with
  | error _ => exact nofun
  | ok _ =>
    obtain ⟨he, hp⟩ := tunables_of_check usable
    have once : c.guard.registeredIds.Nodup := nodup_eraseDups _
    refine (always_pruneAll regular he hp once _).mono ?_
    rintro r c' t' ⟨-, done⟩ summary rfl
    obtain ⟨rfl, rfl⟩ := done
    exact reports_prunedAll regular once _ _

end Guard

/-! ## Operations -/

namespace Operation

open GuardWork

/-- The kind of duty that a request is about. -/
def kind? : Operation → Option DutyKind
  | .signBlock .. => some .block
  | .signAttestation .. => some .attestation
  | _ => none

/-- What an operation does to the counters, with its reply: a decision is counted, and records are
    counted as removed when they go.  A request that is not permitted leaves the ledger. -/
structure Counts (op : Operation) (m : Metrics) (t : Table Bytes) (reply : Except GuardError Reply)
    (m' : Metrics) (t' : Table Bytes) : Prop where
  permitted : ∀ kind, m'.permitted kind = m.permitted kind +
    if op.kind? = some kind ∧ reply = .ok .permit then 1 else 0
  prevented : ∀ kind reason, m'.prevented kind reason = m.prevented kind reason +
    if op.kind? = some kind ∧ reply = .ok (.answered (.deny reason)) then 1 else 0
  asked : op.kind?.isSome → m'.pruned = m.pruned ∧ (reply ≠ .ok .permit → t' = t)
  others : op.kind? = none → ∀ kind,
    t'.recordCount kind + m'.pruned kind = t.recordCount kind + m.pruned kind

variable {faulty : Prop} {c : Context} {op : Operation} {m m' : Metrics} {t t' : Table Bytes}
  {kind : DutyKind} {reply : Except GuardError Reply}

theorem Counts.of_balances (other : op.kind? = none) (h : m.Balances t m' t') :
    op.Counts m t reply m' t' where
  permitted kind := by simp [h.permitted, other]
  prevented kind reason := by simp [h.prevented, other]
  asked asked := by simp [other] at asked
  others _ := h.records

theorem Counts.of_decision (asked : op.kind? = some kind) {d : Decision}
    (refused : d ≠ .permit → t' = t) :
    op.Counts m t (.ok (.answered d)) (m.countDecision kind d) t' where
  permitted k := by
    rw [Metrics.permitted_countDecision, asked]
    simp [eq_comm]
  prevented k reason := by
    rw [Metrics.prevented_countDecision, asked]
    simp [eq_comm]
  asked _ := by
    refine ⟨m.pruned_countDecision kind d, fun reply => refused fun permit => reply ?_⟩
    rw [permit]
  others other := by simp [asked] at other

theorem Counts.of_error (asked : op.kind? = some kind) (e : GuardError) :
    op.Counts m t (.error e) m t where
  permitted k := by simp
  prevented k reason := by simp
  asked _ := ⟨rfl, fun _ => rfl⟩
  others other := by simp [asked] at other

/-- Without a permit, what is gone was counted as removed. -/
theorem Counts.records_of_refused (h : op.Counts m t reply m' t') (refused : reply ≠ .ok .permit)
    (kind : DutyKind) :
    t'.recordCount kind + m'.pruned kind = t.recordCount kind + m.pruned kind := by
  cases asked : op.kind? with
  | none => exact h.others asked kind
  | some _ =>
    obtain ⟨pruned, same⟩ := h.asked (by rw [asked]; rfl)
    rw [pruned, same refused]

/-- A request for a duty is counted if what it asks for is decided without a change but for
    permits. -/
theorem always_answer_counts (enabled : c.guard.config.enabled) (asked : op.kind? = some kind)
    (key : PublicKey) {decide : ValidatorId → LedgerWork Decision}
    (decides : ∀ id, (decide id).run.Always faulty t fun r t' => r ≠ .ok .permit → t' = t) :
    Always faulty (Guard.answer kind key decide >>= fun d => pure (Reply.answered d)) c t
      fun reply c' t' => op.Counts c.metrics t reply c'.metrics t' := by
  refine always_reply (Guard.always_answer ?_ ?_ ?_ ?_)
  · intro disabled
    rw [enabled] at disabled
    contradiction
  · intro _
    exact .of_error asked _
  · intro _ _ _
    exact .of_error asked _
  · intro id _ _
    refine (decides id).mono fun r t' refused => ?_
    cases r with
    | ok d => exact .of_decision asked fun denied => refused fun same => denied (Except.ok.inj same)
    | error e =>
      obtain rfl : t' = t := refused nofun
      exact .of_error asked _

/-- Whatever calls fail, an operation of a guard that checks what it permits counts its answer and
    what it removes. -/
theorem always_counts (wf : t.WellFormed) (enabled : c.guard.config.enabled) (op : Operation) :
    Always faulty op.perform c t fun reply c' t' =>
      op.Counts c.metrics t reply c'.metrics t' := by
  cases op with
  | register keys =>
    refine always_reply (Guard.always_register wf keys ?_ ?_ ?_)
    · intro _ _ _
      exact .of_balances rfl (.refl _ t)
    · intro _
      exact .of_balances rfl (.of_recordCount_eq (t.recordCount_registerKeys keys))
    · intro _ _
      exact .of_balances rfl (.refl _ t)
  | signBlock key slot root =>
    refine always_answer_counts enabled rfl key fun id => ?_
    exact Ledger.always_signBlock wf (fun _ _ _ => rfl) (fun _ _ permit => absurd rfl permit)
      (fun _ _ _ permit => absurd rfl permit) (fun _ _ _ => rfl) fun _ _ _ => rfl
  | signAttestation key vote root =>
    refine always_answer_counts enabled rfl key fun id => ?_
    exact Ledger.always_signAttestation wf (fun _ _ _ => rfl) (fun _ _ permit => absurd rfl permit)
      (fun _ _ _ permit => absurd rfl permit) (fun _ _ _ => rfl) fun _ _ _ => rfl
  | prune =>
    exact always_reply ((Guard.always_prune_balances wf.regular).mono fun _ _ _ balances =>
      .of_balances rfl balances)
  | pruneValidator id e p =>
    refine always_reply ((Guard.always_pruneValidator_balances wf.regular id e p).mono ?_)
    rintro _ _ _ ⟨-, balances⟩
    exact .of_balances rfl balances
  | exportTo sink =>
    refine always_bind.2 (always_lift.2 ((Interchange.quiet_exportAll faulty sink c t).mono ?_))
    rintro ⟨⟨r, s⟩, c'⟩ t' ⟨rfl, rfl⟩
    exact .of_balances rfl (.refl _ _)
  | importDocument => exact .of_balances rfl (.refl _ t)

end Operation

end SlashingGuard
