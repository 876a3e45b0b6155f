import SlashingGuard.Proofs.Guard.Requests

/-! # A prune weakens no answer

    Requests are compared before and after a prune of one validator, which may
    be cut anywhere by a failing call.  Above the floors that it leaves every
    request is answered as before, with the same reason if it is denied; below
    them every request is denied.  So nothing that was denied is permitted
    because a record was forgotten.

    Nothing is asked of the ledger but that it is well formed: floors may be
    missing, they may lie below or above any record, and the source floor and
    the target floor need not agree. -/

namespace SlashingGuard

/-! ## Answers on a ledger -/

namespace Table

/-- What a block request of a validator is answered if no call on the store fails. -/
def blockAnswer (t : Table Bytes) (id : ValidatorId) (slot : Slot) (root : SigningRoot) :
    Except LedgerError Decision :=
  ((Ledger.signBlock id slot root).onTable t).1

/-- What an attestation request of a validator is answered if no call on the store fails. -/
def voteAnswer (t : Table Bytes) (id : ValidatorId) (vote : Vote) (root : SigningRoot) :
    Except LedgerError Decision :=
  ((Ledger.signAttestation id vote root).onTable t).1

variable {t t' : Table Bytes} {id : ValidatorId} {slot : Slot} {vote : Vote} {root : SigningRoot}

theorem blockAnswer_of_hides (wf : t.WellFormed) (hidden : (t.account id).HidesBlock slot) :
    t.blockAnswer id slot root = .ok (.deny .belowWatermark) := by
  rw [blockAnswer, Ledger.signBlock_answer wf, Account.judgeBlock_of_hides hidden]
  rfl

/-- A vote below the floors is denied; that its source is after its target comes first. -/
theorem voteAnswer_of_hides (wf : t.WellFormed) (hidden : (t.account id).HidesVote vote) :
    t.voteAnswer id vote root =
      .ok (.deny (if vote.target < vote.source then .sourceAfterTarget else .belowWatermark)) := by
  rw [voteAnswer, Ledger.signAttestation_answer wf]
  by_cases disordered : vote.target < vote.source
  · rw [Account.judgeVote_of_lt disordered, if_pos disordered]
    rfl
  · rw [Account.judgeVote_of_hides disordered hidden, if_neg disordered]
    rfl

/-! ## Thinned ledgers answer alike -/

namespace Thinned

/-- The same judgement of a validator is answered in the same way. -/
theorem answer_eq (h : t.Thinned t') (id : ValidatorId) (decision : Decision) :
    Ledger.answer t' id decision = Ledger.answer t id decision := by
  have same : t'.isRegistered id = t.isRegistered id := by
    rw [isRegistered, isRegistered, h.registry]
  cases decision with
  | permit => rw [Ledger.answer, Ledger.answer, same]
  | deny reason => rfl

theorem blockAnswer_eq (h : t.Thinned t') (wf : t.WellFormed)
    (visible : ¬ (t'.account id).HidesBlock slot) :
    t'.blockAnswer id slot root = t.blockAnswer id slot root := by
  rw [blockAnswer, blockAnswer, Ledger.signBlock_answer wf,
    Ledger.signBlock_answer (h.wellFormed wf), h.answer_eq, (h.account id).judgeBlock_eq visible]

theorem voteAnswer_eq (h : t.Thinned t') (wf : t.WellFormed)
    (visible : ¬ (t'.account id).HidesVote vote) :
    t'.voteAnswer id vote root = t.voteAnswer id vote root := by
  rw [voteAnswer, voteAnswer, Ledger.signAttestation_answer wf,
    Ledger.signAttestation_answer (h.wellFormed wf), h.answer_eq,
    (h.account id).judgeVote_eq (wf.ordered id) visible]

end Thinned

/-- How the answers to the requests of a validator on a ledger bear on those on the ledger that was
    left of it: above the floors left they are the same, below them all are denials, and what
    was denied stays unpermitted. -/
structure AnswersKept (t left : Table Bytes) (id : ValidatorId) : Prop where
  block : ∀ slot root, ¬ (left.account id).HidesBlock slot →
    left.blockAnswer id slot root = t.blockAnswer id slot root
  blockBelow : ∀ slot root, (left.account id).HidesBlock slot →
    left.blockAnswer id slot root = .ok (.deny .belowWatermark)
  blockDenied : ∀ slot root reason, t.blockAnswer id slot root = .ok (.deny reason) →
    left.blockAnswer id slot root ≠ .ok .permit
  vote : ∀ vote root, ¬ (left.account id).HidesVote vote →
    left.voteAnswer id vote root = t.voteAnswer id vote root
  voteBelow : ∀ vote root, (left.account id).HidesVote vote → left.voteAnswer id vote root =
    .ok (.deny (if vote.target < vote.source then .sourceAfterTarget else .belowWatermark))
  voteDenied : ∀ vote root reason, t.voteAnswer id vote root = .ok (.deny reason) →
    left.voteAnswer id vote root ≠ .ok .permit

theorem Thinned.answersKept (h : t.Thinned t') (wf : t.WellFormed) (id : ValidatorId) :
    t.AnswersKept t' id where
  block _ _ visible := h.blockAnswer_eq wf visible
  blockBelow _ _ hidden := blockAnswer_of_hides (h.wellFormed wf) hidden
  blockDenied slot root reason denied := by
    by_cases hidden : (t'.account id).HidesBlock slot
    · simp [blockAnswer_of_hides (h.wellFormed wf) hidden]
    · simp [h.blockAnswer_eq wf hidden, denied]
  vote _ _ visible := h.voteAnswer_eq wf visible
  voteBelow _ _ hidden := voteAnswer_of_hides (h.wellFormed wf) hidden
  voteDenied vote root reason denied := by
    by_cases hidden : (t'.account id).HidesVote vote
    · simp [voteAnswer_of_hides (h.wellFormed wf) hidden]
    · simp [h.voteAnswer_eq wf hidden, denied]

end Table

/-! ## Prunes of one validator -/

namespace Guard

/-- The ledger that a prune of one validator leaves when calls on the store fail as scheduled. -/
def leftByPrune (c : Context) (id : ValidatorId) (epochsToKeep slotsPerEpoch : UInt64)
    (faults : Store.FaultSchedule) (t : Table Bytes) : Table Bytes :=
  (((pruneValidator id epochsToKeep slotsPerEpoch).run.run c).runFaulty faults t).2

/-- Wherever a prune is cut, it keeps the answers of the validator it is of, and those of all
    others. -/
theorem answersKept_leftByPrune {t : Table Bytes} (wf : t.WellFormed) (c : Context)
    (id : ValidatorId) (epochsToKeep slotsPerEpoch : UInt64) (faults : Store.FaultSchedule)
    (asking : ValidatorId) :
    t.AnswersKept (leftByPrune c id epochsToKeep slotsPerEpoch faults t) asking := by
  have thinned := (thinned_pruneValidator (c := c) wf id epochsToKeep slotsPerEpoch).runFaulty
    faults
  exact thinned.2.answersKept wf asking

/-- A ledger with two votes of its one validator. -/
def votedTwice : Table Bytes :=
  ((Table.empty.enroll ⟨[1]⟩ 1).recordVote ⟨1⟩ ⟨2, 3⟩ ⟨[7]⟩).recordVote ⟨1⟩ ⟨3, 8⟩ ⟨[6]⟩

/-- A vote around one that a prune forgets was denied and is not permitted. -/
theorem answersKept_votedTwice :
    votedTwice.WellFormed ∧ votedTwice.voteAnswer ⟨1⟩ ⟨1, 4⟩ ⟨[5]⟩ = .ok (.deny .surroundingVote) ∧
      let left := leftByPrune ⟨⟨.standard, [], []⟩, .zero⟩ ⟨1⟩ 2 1 [] votedTwice
      left.get? (Place.attestation ⟨1⟩ 3).bytes = none ∧
        left.voteAnswer ⟨1⟩ ⟨1, 4⟩ ⟨[5]⟩ ≠ .ok .permit := by
  have wf : votedTwice.WellFormed :=
    ((Table.WellFormed.empty.enroll ⟨[1]⟩ 1).recordVote rfl (by decide) _).recordVote rfl
      (by decide) _
  have denied : votedTwice.voteAnswer ⟨1⟩ ⟨1, 4⟩ ⟨[5]⟩ = .ok (.deny .surroundingVote) := rfl
  have kept := answersKept_leftByPrune wf ⟨⟨.standard, [], []⟩, .zero⟩ ⟨1⟩ 2 1 [] ⟨1⟩
  exact ⟨wf, denied, rfl, kept.voteDenied _ _ _ denied⟩

end Guard

end SlashingGuard
