import SlashingGuard.Proofs.Ledger.Records

/-! # Archives

    What a ledger records, kept in two plain lists: blocks, of which a
    validator has one a slot, and attestations, of which it has one a target.
    Keys and their order, scans and pending writes do not occur.

    An archive answers the calls that put records in and delete them, with the
    same refusals as a ledger.  A record is in it just if a call that succeeded
    has put it in and no call has deleted it since. -/

namespace SlashingGuard

/-! ## Calls -/

/-- The calls on a ledger that put records in and delete them. -/
inductive RecordCall where
  | insertBlock (id : ValidatorId) (slot : Slot) (root : SigningRoot)
  | insertAttestation (id : ValidatorId) (vote : Vote) (root : SigningRoot)
  | deleteBlocksBelow (id : ValidatorId) (slot : Slot)
  | deleteAttestationsBelow (id : ValidatorId) (target : Epoch)
  deriving DecidableEq, Repr

/-- A call in the current transaction, or the end of the transaction by a commit. -/
inductive RecordStep where
  | call (c : RecordCall)
  | commit
  deriving DecidableEq, Repr

namespace RecordStep

/-- Whether a step deletes a block. -/
def DeletesBlock (b : SignedBlock) : RecordStep → Prop
  | .call (.deleteBlocksBelow id slot) => b.validator = id ∧ b.slot < slot
  | _ => False

/-- Whether a step deletes an attestation. -/
def DeletesAttestation (a : SignedAttestation) : RecordStep → Prop
  | .call (.deleteAttestationsBelow id target) => a.validator = id ∧ a.target < target
  | _ => False

end RecordStep

/-- Takes steps in order: their answers, and the state left. -/
def takeEach {σ ι α : Type} (take : σ → ι → α × σ) (s : σ) : List ι → List α × σ
  | [] => ([], s)
  | step :: rest =>
    let (answer, s') := take s step
    let (answers, s'') := takeEach take s' rest
    (answer :: answers, s'')

/-! ## Archives -/

/-- The validators that are registered, and their records in any order. -/
structure Archive where
  validators : List ValidatorId
  blocks : List SignedBlock
  attestations : List SignedAttestation

namespace Archive

/-- What an archive answers to a call, and the archive left.  A deletion answers how many records
    it has deleted, any other call 0. -/
def call (m : Archive) : RecordCall → Except LedgerError Nat × Archive
  | .insertBlock id slot root =>
    if id ∉ m.validators then (.error (.breach (.unregistered id)), m)
    else
      let (answer, blocks) := Records.put m.blocks ⟨id, slot, root⟩ fun held =>
        .breach (.takenSlot id slot held.root root)
      (answer, { m with blocks })
  | .insertAttestation id vote root =>
    if id ∉ m.validators then (.error (.breach (.unregistered id)), m)
    else if vote.target < vote.source then
      (.error (.breach (.sourceAfterTarget vote.source vote.target)), m)
    else
      let (answer, attestations) :=
        Records.put m.attestations ⟨id, vote.source, vote.target, root⟩ fun held =>
          .breach (.takenTarget id vote.target held.root root)
      (answer, { m with attestations })
  | .deleteBlocksBelow id slot =>
    let (answer, blocks) := Records.deleteBelow m.blocks id slot
    (answer, { m with blocks })
  | .deleteAttestationsBelow id target =>
    let (answer, attestations) := Records.deleteBelow m.attestations id target
    (answer, { m with attestations })

section Answers

variable {m : Archive} {id : ValidatorId}

theorem call_insertBlock_unknown {slot : Slot} {root : SigningRoot} (unknown : id ∉ m.validators) :
    m.call (.insertBlock id slot root) = (.error (.breach (.unregistered id)), m) := by
  simp only [call, if_pos unknown]

theorem call_insertBlock_free {slot : Slot} {root : SigningRoot} (known : id ∈ m.validators)
    (free : Records.at? m.blocks id slot = none) :
    m.call (.insertBlock id slot root) =
      (.ok 0, { m with blocks := ⟨id, slot, root⟩ :: m.blocks }) := by
  simp [call, known, Records.put, Numbered.validator, Numbered.number, free]

theorem call_insertBlock_taken {slot : Slot} {signed : SigningRoot} (known : id ∈ m.validators)
    (taken : Records.at? m.blocks id slot = some ⟨id, slot, signed⟩) (root : SigningRoot) :
    m.call (.insertBlock id slot root) =
      (if signed = root then .ok 0 else .error (.breach (.takenSlot id slot signed root)), m) := by
  by_cases same : signed = root <;>
    simp [call, known, Records.put, Numbered.validator, Numbered.number, taken, same]

theorem call_insertAttestation_unknown {vote : Vote} {root : SigningRoot}
    (unknown : id ∉ m.validators) :
    m.call (.insertAttestation id vote root) = (.error (.breach (.unregistered id)), m) := by
  simp only [call, if_pos unknown]

theorem call_insertAttestation_disordered {vote : Vote} {root : SigningRoot}
    (known : id ∈ m.validators) (disordered : vote.target < vote.source) :
    m.call (.insertAttestation id vote root) =
      (.error (.breach (.sourceAfterTarget vote.source vote.target)), m) := by
  simp only [call, known, not_true, if_false, if_pos disordered]

theorem call_insertAttestation_free {vote : Vote} {root : SigningRoot} (known : id ∈ m.validators)
    (ordered : vote.source ≤ vote.target)
    (free : Records.at? m.attestations id vote.target = none) :
    m.call (.insertAttestation id vote root) = (.ok 0,
      { m with attestations := ⟨id, vote.source, vote.target, root⟩ :: m.attestations }) := by
  simp [call, known, UInt64.not_lt.2 ordered, Records.put, Numbered.validator, Numbered.number,
    free]

theorem call_insertAttestation_taken {vote : Vote} {signed : SigningRoot} {source : Epoch}
    (known : id ∈ m.validators) (ordered : vote.source ≤ vote.target)
    (taken : Records.at? m.attestations id vote.target = some ⟨id, source, vote.target, signed⟩)
    (root : SigningRoot) :
    m.call (.insertAttestation id vote root) =
      (if signed = root ∧ source = vote.source then .ok 0
        else .error (.breach (.takenTarget id vote.target signed root)), m) := by
  by_cases same : signed = root <;> by_cases same' : source = vote.source <;>
    simp [call, known, UInt64.not_lt.2 ordered, Records.put, Numbered.validator, Numbered.number,
      taken, same, same']

end Answers

/-- For an archive a commit is nothing. -/
def take (m : Archive) : RecordStep → Except LedgerError Nat × Archive
  | .call c => m.call c
  | .commit => (.ok 0, m)

def takeAll (m : Archive) (steps : List RecordStep) :
    List (Except LedgerError Nat) × Archive :=
  takeEach take m steps

/-! ## What is in an archive -/

theorem mem_blocks_take {m : Archive} {step : RecordStep} {b : SignedBlock} :
    b ∈ (m.take step).2.blocks ↔ b ∈ m.blocks ∧ ¬ step.DeletesBlock b ∨
      step = .call (.insertBlock b.validator b.slot b.root) ∧ (m.take step).1 = .ok 0 := by
  match step with
  | .commit => simp [take, RecordStep.DeletesBlock]
  | .call (.insertBlock id slot root) =>
    obtain ⟨validator, slot', root'⟩ := b
    by_cases known : id ∈ m.validators
    · simp [take, call, known, RecordStep.DeletesBlock, Records.mem_put]
    · simp [take, call, known, RecordStep.DeletesBlock]
  | .call (.insertAttestation id vote root) =>
    simp only [take, call, RecordStep.DeletesBlock]
    split
    · simp
    · split <;> simp
  | .call (.deleteBlocksBelow id slot) =>
    simp [take, call, RecordStep.DeletesBlock, Records.mem_deleteBelow, Numbered.validator,
      Numbered.number]
  | .call (.deleteAttestationsBelow id target) => simp [take, call, RecordStep.DeletesBlock]

theorem mem_attestations_take {m : Archive} {step : RecordStep} {a : SignedAttestation} :
    a ∈ (m.take step).2.attestations ↔ a ∈ m.attestations ∧ ¬ step.DeletesAttestation a ∨
      step = .call (.insertAttestation a.validator a.vote a.root) ∧ (m.take step).1 = .ok 0 := by
  match step with
  | .commit => simp [take, RecordStep.DeletesAttestation]
  | .call (.insertBlock id slot root) =>
    simp only [take, call, RecordStep.DeletesAttestation]
    split <;> simp
  | .call (.insertAttestation id vote root) =>
    obtain ⟨validator, source, target, root'⟩ := a
    obtain ⟨source', target'⟩ := vote
    by_cases known : id ∈ m.validators
    · by_cases disordered : target' < source'
      · simp [take, call, known, disordered, RecordStep.DeletesAttestation]
      · simp [take, call, known, disordered, RecordStep.DeletesAttestation, Records.mem_put,
          SignedAttestation.vote, and_assoc]
    · simp [take, call, known, RecordStep.DeletesAttestation]
  | .call (.deleteBlocksBelow id slot) => simp [take, call, RecordStep.DeletesAttestation]
  | .call (.deleteAttestationsBelow id target) =>
    simp [take, call, RecordStep.DeletesAttestation, Records.mem_deleteBelow, Numbered.validator,
      Numbered.number]

/-- Where each step keeps what it does not remove and adds what it puts in, a record is there
    after some steps just if it was there, or was put in, and has not been removed since. -/
theorem mem_takeEach {σ ι α R : Type} (take : σ → ι → α × σ) (shelf : σ → List R)
    {puts : σ → ι → R → Prop} {removes : ι → R → Prop}
    (law : ∀ s step r, r ∈ shelf (take s step).2 ↔
      r ∈ shelf s ∧ ¬ removes step r ∨ puts s step r) (s : σ) (steps : List ι) (r : R) :
    r ∈ shelf (takeEach take s steps).2 ↔
      (r ∈ shelf s ∧ ∀ step ∈ steps, ¬ removes step r) ∨
      ∃ before step after, steps = before ++ step :: after ∧
        puts (takeEach take s before).2 step r ∧ ∀ later ∈ after, ¬ removes later r := by
  induction steps generalizing s with
  | nil => simp [takeEach]
  | cons step rest ih =>
    show r ∈ shelf (takeEach take (take s step).2 rest).2 ↔ _
    rw [ih, law]
    constructor
    · rintro (⟨⟨there, stays⟩ | put, kept⟩ | ⟨before, step', after, rfl, put, kept⟩)
      · exact .inl ⟨there, List.forall_mem_cons.2 ⟨stays, kept⟩⟩
      · exact .inr ⟨[], step, rest, rfl, put, kept⟩
      · exact .inr ⟨step :: before, step', after, rfl, put, kept⟩
    · rintro (⟨there, kept⟩ | ⟨before, step', after, parts, put, kept⟩)
      · obtain ⟨stays, kept⟩ := List.forall_mem_cons.1 kept
        exact .inl ⟨.inl ⟨there, stays⟩, kept⟩
      · cases before with
        | nil =>
          obtain ⟨rfl, rfl⟩ := List.cons.inj parts
          exact .inl ⟨.inr put, kept⟩
        | cons first before =>
          obtain ⟨rfl, rfl⟩ := List.cons.inj parts
          exact .inr ⟨before, step', after, rfl, put, kept⟩

/-- A block that was there before the steps or was put in by one that succeeded, and that none
    has deleted since. -/
def BlockStands (m : Archive) (steps : List RecordStep) (b : SignedBlock) : Prop :=
  (b ∈ m.blocks ∧ ∀ step ∈ steps, ¬ step.DeletesBlock b) ∨
  ∃ before after, steps = before ++ .call (.insertBlock b.validator b.slot b.root) :: after ∧
    ((m.takeAll before).2.call (.insertBlock b.validator b.slot b.root)).1 = .ok 0 ∧
    ∀ later ∈ after, ¬ later.DeletesBlock b

/-- The same of an attestation. -/
def AttestationStands (m : Archive) (steps : List RecordStep) (a : SignedAttestation) : Prop :=
  (a ∈ m.attestations ∧ ∀ step ∈ steps, ¬ step.DeletesAttestation a) ∨
  ∃ before after, steps = before ++ .call (.insertAttestation a.validator a.vote a.root) :: after ∧
    ((m.takeAll before).2.call (.insertAttestation a.validator a.vote a.root)).1 = .ok 0 ∧
    ∀ later ∈ after, ¬ later.DeletesAttestation a

theorem mem_blocks_takeAll {m : Archive} {steps : List RecordStep} {b : SignedBlock} :
    b ∈ (m.takeAll steps).2.blocks ↔ m.BlockStands steps b := by
  refine (mem_takeEach take Archive.blocks (fun _ _ _ => mem_blocks_take) m steps _).trans ?_
  refine or_congr Iff.rfl ?_
  constructor
  · rintro ⟨before, _, after, split, ⟨rfl, done⟩, kept⟩
    exact ⟨before, after, split, done, kept⟩
  · rintro ⟨before, after, split, done, kept⟩
    exact ⟨before, _, after, split, ⟨rfl, done⟩, kept⟩

theorem mem_attestations_takeAll {m : Archive} {steps : List RecordStep} {a : SignedAttestation} :
    a ∈ (m.takeAll steps).2.attestations ↔ m.AttestationStands steps a := by
  refine (mem_takeEach take Archive.attestations
    (fun _ _ _ => mem_attestations_take) m steps _).trans ?_
  refine or_congr Iff.rfl ?_
  constructor
  · rintro ⟨before, _, after, split, ⟨rfl, done⟩, kept⟩
    exact ⟨before, after, split, done, kept⟩
  · rintro ⟨before, after, split, done, kept⟩
    exact ⟨before, _, after, split, ⟨rfl, done⟩, kept⟩

end Archive

end SlashingGuard
