import SlashingGuard.Ledger.Decision
import SlashingGuard.Proofs.Ledger.Writes

/-! # Decisions follow the rules

    A request is decided as the rules judge it on the account of its
    validator, and a permit is recorded in the commit that it is answered
    after.  A denial, an error and a permit for what is signed already leave
    the ledger as it was. -/

namespace SlashingGuard

/-! ## Rows of floors -/

namespace Account

variable (a : Account) (id : ValidatorId)

@[simp] theorem row?_bind_slot : (a.row? id).bind Watermark.slot = a.slotFloor := by
  obtain ⟨block, vote, slotFloor, epochFloors⟩ := a
  cases slotFloor <;> cases epochFloors <;> rfl

@[simp] theorem row?_bind_target : (a.row? id).bind Watermark.target = a.targetFloor := by
  obtain ⟨block, vote, slotFloor, epochFloors⟩ := a
  cases slotFloor <;> cases epochFloors <;> rfl

theorem row?_hidesBlock_iff {slot : Slot} :
    ((a.row? id).any fun row => row.hidesBlock slot) ↔ a.HidesBlock slot := by
  obtain ⟨block, vote, slotFloor, epochFloors⟩ := a
  cases slotFloor <;> cases epochFloors <;>
    simp [row?, HidesBlock, Watermark.hidesBlock, Floor.isAbove]

theorem row?_hidesAttestation_iff {vote : Vote} :
    ((a.row? id).any fun row => row.hidesAttestation vote.source vote.target) ↔
      a.HidesVote vote := by
  obtain ⟨block, votes, slotFloor, _ | ⟨source, target⟩⟩ := a <;> cases slotFloor <;>
    simp [row?, HidesVote, sourceFloor, targetFloor, Watermark.hidesAttestation, Floor.isAbove]

end Account

namespace Table

/-- The ledger after a block was permitted. -/
def recordBlock (t : Table Bytes) (id : ValidatorId) (slot : Slot) (root : SigningRoot) :
    Table Bytes :=
  (t.putBlock id slot root).raiseSlot id 0

/-- The ledger after a vote was permitted. -/
def recordVote (t : Table Bytes) (id : ValidatorId) (vote : Vote) (root : SigningRoot) :
    Table Bytes :=
  (t.putVote id vote root).raiseEpochs id 0 0

variable {t : Table Bytes} {id : ValidatorId}

/-- A floor that is set is not moved by zero. -/
theorem raiseSlot_zero (h : (t.account id).slotFloor.isSome) : t.raiseSlot id 0 = t := by
  obtain ⟨floor, hf⟩ := Option.isSome_iff_exists.1 h
  rw [raiseSlot, hf, if_neg (by simp [Floor.moves])]

theorem raiseEpochs_zero (h : (t.account id).targetFloor.isSome) : t.raiseEpochs id 0 0 = t := by
  obtain ⟨⟨source, target⟩, hf⟩ : ∃ floors, (t.account id).epochFloors = some floors := by
    simpa [Account.targetFloor, Option.isSome_iff_exists] using h
  rw [raiseEpochs, Account.sourceFloor, Account.targetFloor, hf, if_neg (by simp [Floor.moves])]

@[simp] theorem account_recordBlock (id' : ValidatorId) (slot : Slot) (root : SigningRoot) :
    (t.recordBlock id slot root).account id' =
      if id' = id then (t.account id).recordBlock slot root else t.account id' := by
  by_cases h : id' = id <;> simp [recordBlock, Account.recordBlock, h]

@[simp] theorem account_recordVote (id' : ValidatorId) (vote : Vote) (root : SigningRoot) :
    (t.recordVote id vote root).account id' =
      if id' = id then (t.account id).recordVote vote root.stored else t.account id' := by
  by_cases h : id' = id <;> simp [recordVote, Account.recordVote, h]

@[simp] theorem registry_recordBlock (slot : Slot) (root : SigningRoot) :
    (t.recordBlock id slot root).registry = t.registry := by
  simp [recordBlock]

@[simp] theorem registry_recordVote (vote : Vote) (root : SigningRoot) :
    (t.recordVote id vote root).registry = t.registry := by
  simp [recordVote]

theorem WellFormed.recordBlock (wf : t.WellFormed) (registered : t.isRegistered id) (slot : Slot)
    (root : SigningRoot) : (t.recordBlock id slot root).WellFormed :=
  (wf.putBlock registered slot root).raiseSlot (by simpa [isRegistered] using registered) 0

theorem WellFormed.recordVote (wf : t.WellFormed) (registered : t.isRegistered id) {vote : Vote}
    (ordered : vote.source ≤ vote.target) (root : SigningRoot) :
    (t.recordVote id vote root).WellFormed :=
  (wf.putVote registered ordered root).raiseEpochs (by simpa [isRegistered] using registered) 0 0

end Table

namespace Ledger

open Transaction

variable {faulty : Prop} {t : Table Bytes} {id : ValidatorId} {root : SigningRoot}

/-! ## Blocks -/

theorem always_admitBlock (wf : t.WellFormed) {slot : Slot}
    (free : (t.account id).block slot = none) {Q : Decision → Table Bytes → Prop}
    {E : LedgerError → Prop}
    (recorded : t.isRegistered id → Q .permit (t.recordBlock id slot root))
    (unregistered : t.isRegistered id = false → E (.breach (.unregistered id)))
    (fault : faulty → ∀ x, E (.store x)) :
    Transaction.Always faulty (admitBlock id slot root (t.account id).slotFloor.isSome) t Q
      fun e _ => E e := by
  unfold admitBlock
  refine Always.bind (always_insertBlock unregistered (fun registered _ => ?_)
    (fun _ again => ?_) (fun _ signed taken => ?_) fault)
  · cases set : (t.account id).slotFloor.isSome with
    | true =>
      -- There is a floor, so the step that would set one is not taken.
      have still : t.recordBlock id slot root = t.putBlock id slot root :=
        Table.raiseSlot_zero (by simpa using set)
      exact always_pure (still ▸ recorded registered)
    | false =>
      refine Always.bind (always_raiseSlotFloor (wf.putBlock registered slot root).legible
        (fun gone => ?_) (fun _ _ _ => always_pure (recorded registered)) fault
        fun f x _ => fault f x)
      simp [Table.isRegistered] at gone registered
      simp [gone] at registered
  · rw [free] at again; contradiction
  · rw [free] at taken; contradiction

/-- A block request is answered as the rules judge it; what is permitted and new is recorded. -/
theorem always_signBlock (wf : t.WellFormed) {slot : Slot}
    {Q : Except LedgerError Decision → Table Bytes → Prop}
    (denied : ∀ reason, (t.account id).judgeBlock slot root = .deny reason →
      Q (.ok (.deny reason)) t)
    (again : (t.account id).judgeBlock slot root = .permit →
      (t.account id).block slot = some root → Q (.ok .permit) t)
    (recorded : t.isRegistered id → (t.account id).judgeBlock slot root = .permit →
      (t.account id).block slot = none → Q (.ok .permit) (t.recordBlock id slot root))
    (unregistered : t.isRegistered id = false → (t.account id).judgeBlock slot root = .permit →
      Q (.error (.breach (.unregistered id))) t)
    (fault : faulty → ∀ x, Q (.error (.store x)) t) :
    (signBlock id slot root).run.Always faulty t Q := by
  refine LedgerWork.always_atomically ?_
  unfold decideBlock
  refine Always.query_bind (yields_watermark? wf.legible id) fault ?_
  simp only [Account.row?_bind_slot]
  -- From here on the cases are those of the rules, in their order.
  by_cases hidden : (t.account id).HidesBlock slot
  · rw [blockFloorDenial, if_pos ((Account.row?_hidesBlock_iff _ id).2 hidden)]
    exact always_pure (denied _ (Account.judgeBlock_of_hides hidden root))
  · rw [blockFloorDenial, if_neg (mt (Account.row?_hidesBlock_iff _ id).1 hidden)]
    refine Always.query_bind (yields_blockAt? t id slot) fault ?_
    cases stored : (t.account id).block slot with
    | some signed =>
      have judged := Account.judgeBlock_of_some hidden stored root
      simp only [Option.map_some]
      refine always_pure ?_
      cases decision : resolveExisting signed root .doubleBlockProposal with
      | permit =>
        have same : signed = root := resolveExisting_eq_permit_iff.1 decision
        exact ⟨again (judged.trans decision) (same ▸ stored), fault⟩
      | deny reason => exact denied reason (judged.trans decision)
    | none =>
      have permit := Account.judgeBlock_of_none hidden stored root
      exact always_admitBlock wf stored
        (fun registered => ⟨recorded registered permit stored, fault⟩)
        (fun gone => unregistered gone permit) fault

/-! ## Attestations -/

theorem always_admitAttestation (wf : t.WellFormed) {vote : Vote}
    (ordered : vote.source ≤ vote.target) (free : (t.account id).vote vote.target = none)
    {Q : Decision → Table Bytes → Prop} {E : LedgerError → Prop}
    (recorded : t.isRegistered id → Q .permit (t.recordVote id vote root))
    (unregistered : t.isRegistered id = false → E (.breach (.unregistered id)))
    (fault : faulty → ∀ x, E (.store x)) :
    Transaction.Always faulty
      (admitAttestation id vote root (t.account id).targetFloor.isSome) t Q fun e _ => E e := by
  unfold admitAttestation
  refine Always.bind (always_insertAttestation wf.legible unregistered
    (fun _ lt => absurd ordered (UInt64.not_le.2 lt)) (fun registered _ _ => ?_)
    (fun _ _ again => ?_) (fun _ _ source signed taken => ?_) fault)
  · cases set : (t.account id).targetFloor.isSome with
    | true =>
      have still : t.recordVote id vote root = t.putVote id vote root :=
        Table.raiseEpochs_zero (by simpa [Account.targetFloor] using set)
      exact always_pure (still ▸ recorded registered)
    | false =>
      refine Always.bind (always_raiseEpochFloors (wf.putVote registered ordered root).legible
        (fun gone => ?_) (fun _ _ _ => always_pure (recorded registered)) fault
        fun f x _ => fault f x)
      simp [Table.isRegistered] at gone registered
      simp [gone] at registered
  · rw [free] at again; contradiction
  · rw [free] at taken; contradiction

/-- A vote is answered as the rules judge it; what is permitted and new is recorded. -/
theorem always_signAttestation (wf : t.WellFormed) {vote : Vote}
    {Q : Except LedgerError Decision → Table Bytes → Prop}
    (denied : ∀ reason, (t.account id).judgeVote vote root = .deny reason →
      Q (.ok (.deny reason)) t)
    (again : (t.account id).judgeVote vote root = .permit →
      (∃ source, (t.account id).vote vote.target = some (source, root)) → Q (.ok .permit) t)
    (recorded : t.isRegistered id → (t.account id).judgeVote vote root = .permit →
      (t.account id).vote vote.target = none → Q (.ok .permit) (t.recordVote id vote root))
    (unregistered : t.isRegistered id = false → (t.account id).judgeVote vote root = .permit →
      Q (.error (.breach (.unregistered id))) t)
    (fault : faulty → ∀ x, Q (.error (.store x)) t) :
    (signAttestation id vote root).run.Always faulty t Q := by
  refine LedgerWork.always_atomically ?_
  unfold decideAttestation
  refine Always.query_bind (yields_watermark? wf.legible id) fault ?_
  simp only [Account.row?_bind_target]
  -- From here on the cases are those of the rules, in their order.
  by_cases disordered : vote.target < vote.source
  · rw [voteFloorDenial, if_pos disordered]
    exact always_pure (denied _ (Account.judgeVote_of_lt disordered root))
  have ordered := UInt64.not_lt.1 disordered
  by_cases hidden : (t.account id).HidesVote vote
  · rw [voteFloorDenial, if_neg disordered,
      if_pos ((Account.row?_hidesAttestation_iff _ id).2 hidden)]
    exact always_pure (denied _ (Account.judgeVote_of_hides disordered hidden root))
  rw [voteFloorDenial, if_neg disordered,
    if_neg (mt (Account.row?_hidesAttestation_iff _ id).1 hidden)]
  refine Always.query_bind (yields_attestationAt? wf.legible id vote.target) fault ?_
  cases stored : (t.account id).vote vote.target with
  | some signed =>
    obtain ⟨source, signed⟩ := signed
    have judged := Account.judgeVote_of_some disordered hidden stored root
    simp only [Option.map_some]
    refine always_pure ?_
    cases decision : resolveExisting signed root .doubleVote with
    | permit =>
      have same : signed = root := resolveExisting_eq_permit_iff.1 decision
      exact ⟨again (judged.trans decision) ⟨source, same ▸ stored⟩, fault⟩
    | deny reason => exact denied reason (judged.trans decision)
  | none =>
    have judged := Account.judgeVote_of_none disordered hidden stored root
    refine Always.query_bind (yields_surrounding wf.legible id vote) fault ?_
    split
    · next outer =>
      have outer := (surrounding_isEmpty_iff wf.legible).1 outer
      exact always_pure (denied _ (judged.trans (if_pos outer)))
    · next notOuter =>
      have notOuter := mt (surrounding_isEmpty_iff wf.legible).2 notOuter
      refine Always.query_bind (yields_surrounded wf.legible id vote) fault ?_
      split
      · next inner =>
        have inner := (surrounded_isEmpty_iff wf.legible).1 inner
        exact always_pure (denied _ (judged.trans ((if_neg notOuter).trans (if_pos inner))))
      · next notInner =>
        have notInner := mt (surrounded_isEmpty_iff wf.legible).2 notInner
        have permit := judged.trans ((if_neg notOuter).trans (if_neg notInner))
        exact always_admitAttestation wf ordered stored
          (fun registered => ⟨recorded registered permit stored, fault⟩)
          (fun gone => unregistered gone permit) fault

/-! ## Answers -/

/-- What a registered validator is answered is what the rules say; for anybody else a permit fails
    to be recorded. -/
def answer (t : Table Bytes) (id : ValidatorId) : Decision → Except LedgerError Decision
  | .permit => if t.isRegistered id then .ok .permit else .error (.breach (.unregistered id))
  | .deny reason => .ok (.deny reason)

theorem signBlock_answer (wf : t.WellFormed) (id : ValidatorId) (slot : Slot)
    (root : SigningRoot) :
    ((signBlock id slot root).onTable t).1 =
      answer t id ((t.account id).judgeBlock slot root) := by
  have always : (signBlock id slot root).run.Always False t fun r _ =>
      r = answer t id ((t.account id).judgeBlock slot root) := by
    refine always_signBlock wf (fun reason deny => ?_) (fun permit again => ?_)
      (fun registered permit _ => ?_) (fun gone permit => ?_) fun no => no.elim
    · rw [deny]; rfl
    · rw [permit, answer, if_pos (wf.regular.registered_of_readAt (.block id slot) rfl again)]
    · rw [permit, answer, if_pos registered]
    · rw [permit, answer, if_neg (by simp [gone])]
  exact always.run_serve

theorem signAttestation_answer (wf : t.WellFormed) (id : ValidatorId) (vote : Vote)
    (root : SigningRoot) :
    ((signAttestation id vote root).onTable t).1 =
      answer t id ((t.account id).judgeVote vote root) := by
  have always : (signAttestation id vote root).run.Always False t fun r _ =>
      r = answer t id ((t.account id).judgeVote vote root) := by
    refine always_signAttestation wf (fun reason deny => ?_) (fun permit again => ?_)
      (fun registered permit _ => ?_) (fun gone permit => ?_) fun no => no.elim
    · rw [deny]; rfl
    · obtain ⟨source, again⟩ := again
      rw [permit, answer,
        if_pos (wf.regular.registered_of_readAt (.attestation id vote.target) rfl again)]
    · rw [permit, answer, if_pos registered]
    · rw [permit, answer, if_neg (by simp [gone])]
  exact always.run_serve

end Ledger

end SlashingGuard
