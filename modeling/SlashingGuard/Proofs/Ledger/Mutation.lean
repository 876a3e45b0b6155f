import SlashingGuard.Proofs.Ledger.Numbering

/-! # Transactions of any steps

    Whoever holds a ledger may begin a transaction, take any writing steps in
    it, go on after a step that failed, and commit or drop it.  Whatever the
    steps and whatever calls fail, such a transaction makes changes of a
    ledger and nothing else.

    Whoever goes on after a registration that was cut in the middle commits
    keys without the counter behind them.  A transaction that is dropped at
    its first error does not, so the registry stays a list of keys. -/

namespace SlashingGuard

/-- A writing step of a ledger transaction. -/
inductive Mutation where
  | register (keys : List PublicKey)
  | insertBlock (id : ValidatorId) (slot : Slot) (root : SigningRoot)
  | insertAttestation (id : ValidatorId) (vote : Vote) (root : SigningRoot)
  | deleteBlocksBelow (id : ValidatorId) (slot : Slot)
  | deleteAttestationsBelow (id : ValidatorId) (target : Epoch)
  | raiseSlotFloor (id : ValidatorId) (slot : Slot)
  | raiseEpochFloors (id : ValidatorId) (source target : Epoch)
  deriving DecidableEq

namespace Mutation

/-- Takes the step; its value does not count. -/
def perform : Mutation → Transaction Unit
  | .register keys => do let _ ← Ledger.register keys
  | .insertBlock id slot root => Ledger.insertBlock id slot root
  | .insertAttestation id vote root => Ledger.insertAttestation id vote root
  | .deleteBlocksBelow id slot => do let _ ← Ledger.deleteBlocksBelow id slot
  | .deleteAttestationsBelow id target => do let _ ← Ledger.deleteAttestationsBelow id target
  | .raiseSlotFloor id slot => do let _ ← Ledger.raiseSlotFloor id slot
  | .raiseEpochFloors id source target => do let _ ← Ledger.raiseEpochFloors id source target

/-- Takes steps in order.  What a failed step has pending stays, and the next one is taken. -/
def performAll : List Mutation → Transaction Unit
  | [] => return ()
  | m :: rest => do
    tryCatch m.perform fun _ => return ()
    performAll rest

/-- A transaction of some steps, committed or dropped. -/
def transact (mutations : List Mutation) (commit : Bool) : LedgerWork Unit :=
  LedgerWork.atomically (performAll mutations) fun _ => commit

/-- Takes steps in order up to the first that fails. -/
def performWhole : List Mutation → Transaction Unit
  | [] => return ()
  | m :: rest => do
    m.perform
    performWhole rest

/-- A transaction of some steps, committed or dropped, that is dropped if one of them fails. -/
def transactWhole (mutations : List Mutation) (commit : Bool) : LedgerWork Unit :=
  LedgerWork.atomically (performWhole mutations) fun _ => commit

/-- The byte strings that a step brings from outside. -/
def payload : Mutation → List Bytes
  | .register keys => keys.map PublicKey.bytes
  | .insertBlock _ _ root => [root.bytes]
  | .insertAttestation _ _ root => [root.bytes]
  | _ => []

open Transaction Ledger

variable {faulty : Prop} {allowed : Bytes → Prop} {v : Table Bytes}

/-- However a step ends, it has made changes of a ledger; if it succeeds, any keys that it
    registered were registered as a whole. -/
theorem always_perform (wf : v.WellFormed) (m : Mutation)
    (admitted : ∀ bytes ∈ m.payload, allowed bytes) :
    Transaction.Always faulty m.perform v
      (fun _ v' => v.Reaches allowed v' ∧ v.RegistersWhole v')
      fun _ v' => v.Reaches allowed v' := by
  cases m with
  | register keys =>
    have admitted : ∀ key ∈ keys, allowed key.bytes := by simpa [payload] using admitted
    refine Always.bind (always_register allowed wf admitted (always_pure ?_) fun _ _ _ h => h)
    exact ⟨Table.reaches_registerKeys allowed v admitted, .inr ⟨keys, rfl⟩⟩
  | insertBlock id slot root =>
    have admitted : allowed root.bytes := by simpa [payload] using admitted
    exact always_insertBlock (fun _ => .refl) (fun registered _ =>
      ⟨.single (.block slot registered admitted), .inl (Table.registry_putBlock ..)⟩)
      (fun _ _ => ⟨.refl, .inl rfl⟩) (fun _ _ _ _ => .refl) fun _ _ => .refl
  | insertAttestation id vote root =>
    have admitted : allowed root.bytes := by simpa [payload] using admitted
    exact always_insertAttestation wf.legible (fun _ => .refl) (fun _ _ => .refl)
      (fun registered ordered _ =>
        ⟨.single (.vote registered ordered admitted), .inl (Table.registry_putVote ..)⟩)
      (fun _ _ _ => ⟨.refl, .inl rfl⟩) (fun _ _ _ _ _ _ => .refl) fun _ _ => .refl
  | deleteBlocksBelow id slot =>
    refine Always.bind (always_deleteBelow (wf.legible.indexed_records .block id) _ _ (always_pure ?_)
      fun _ _ => .refl)
    exact ⟨.single (.dropBlocks v id slot), .inl (Table.registry_dropBlocks ..)⟩
  | deleteAttestationsBelow id target =>
    refine Always.bind (always_deleteBelow (wf.legible.indexed_records .attestation id) _ _ (always_pure ?_)
      fun _ _ => .refl)
    exact ⟨.single (.dropVotes v id target), .inl (Table.registry_dropVotes ..)⟩
  | raiseSlotFloor id slot =>
    exact Always.bind (always_raiseSlotFloor wf.legible (fun _ => .refl)
      (fun registered _ _ => always_pure
        ⟨.single (.slotFloor slot registered), .inl (Table.registry_raiseSlot ..)⟩)
      (fun _ _ => .refl) fun _ _ registered => .single (.slotFloor slot registered))
  | raiseEpochFloors id source target =>
    exact Always.bind (always_raiseEpochFloors wf.legible (fun _ => .refl)
      (fun registered _ _ => always_pure
        ⟨.single (.epochFloors source target registered), .inl (Table.registry_raiseEpochs ..)⟩)
      (fun _ _ => .refl) fun _ _ registered =>
        .single (.epochFloors source target registered))

/-- An error that is ignored leaves what was seen when it came up. -/
theorem always_tryCatch {tx : Transaction Unit} {Q : Unit → Table Bytes → Prop}
    {E : LedgerError → Table Bytes → Prop} (h : Transaction.Always faulty tx v Q fun _ => Q ()) :
    Transaction.Always faulty (tryCatch tx fun _ => return ()) v Q E := by
  intro t p hv
  show Program.Always faulty (Program.bind (tx.run.run p) _) t _
  rw [Program.always_bind]
  refine (h t p hv).mono fun ⟨r, p'⟩ t' post => ?_
  cases r with
  | ok u => exact post
  | error e => exact post

theorem always_performAll (wf : v.WellFormed) (mutations : List Mutation)
    (admitted : ∀ m ∈ mutations, ∀ bytes ∈ m.payload, allowed bytes)
    {E : LedgerError → Table Bytes → Prop} :
    Transaction.Always faulty (performAll mutations) v (fun _ v' => v.Reaches allowed v') E := by
  induction mutations generalizing v with
  | nil => exact always_pure .refl
  | cons m rest ih =>
    obtain ⟨first, others⟩ := List.forall_mem_cons.1 admitted
    have step : Transaction.Always faulty m.perform v _ _ := always_perform wf m first
    -- The other steps are taken also after this one failed.
    have next : ∀ v', v.Reaches allowed v' →
        Transaction.Always faulty (performAll rest) v' (fun _ v'' => v.Reaches allowed v'') E :=
      fun v' reaches => (ih (reaches.wellFormed wf) others).mono
        (fun _ _ more => reaches.trans more) fun _ _ h => h
    exact Always.bind (always_tryCatch (step.mono (fun _ v' done => next v' done.1) fun _ => next))

/-- Whatever its steps and whatever calls fail, a transaction makes changes of a ledger. -/
theorem always_transact {t : Table Bytes} (wf : t.WellFormed) (mutations : List Mutation)
    (commit : Bool) (admitted : ∀ m ∈ mutations, ∀ bytes ∈ m.payload, allowed bytes) :
    (transact mutations commit).run.Always faulty t fun _ t' => t.Reaches allowed t' := by
  refine LedgerWork.always_atomically
    ((always_performAll wf mutations admitted).mono (fun _ v reaches => ?_) fun _ _ h => h)
  cases commit with
  | true => exact ⟨reaches, fun _ _ => .refl⟩
  | false => exact .refl

/-! ## Transactions that an error drops -/

theorem always_performWhole (wf : v.WellFormed) (tidy : v.Tidy) (mutations : List Mutation)
    (admitted : ∀ m ∈ mutations, ∀ bytes ∈ m.payload, allowed bytes) :
    Transaction.Always faulty (performWhole mutations) v
      (fun _ v' => v.Reaches allowed v' ∧ v'.Tidy) fun _ _ => True := by
  induction mutations generalizing v with
  | nil => exact always_pure ⟨.refl, tidy⟩
  | cons m rest ih =>
    obtain ⟨first, others⟩ := List.forall_mem_cons.1 admitted
    have step : Transaction.Always faulty m.perform v _ _ := always_perform wf m first
    refine Always.bind (step.mono (fun _ v' done => ?_) fun _ _ _ => trivial)
    have more := ih (done.1.wellFormed wf) (tidy.registersWhole done.2) others
    exact more.mono (fun _ _ last => ⟨done.1.trans last.1, last.2⟩) fun _ _ _ => trivial

/-- Whatever its steps and whatever calls fail, such a transaction makes changes of a ledger and
    keeps its registry tidy. -/
theorem always_transactWhole {t : Table Bytes} (wf : t.WellFormed) (tidy : t.Tidy)
    (mutations : List Mutation) (commit : Bool)
    (admitted : ∀ m ∈ mutations, ∀ bytes ∈ m.payload, allowed bytes) :
    (transactWhole mutations commit).run.Always faulty t fun _ t' =>
      t.Reaches allowed t' ∧ t'.Tidy := by
  refine LedgerWork.always_atomically ((always_performWhole wf tidy mutations admitted).mono
    (fun _ v done => ?_) fun _ _ _ => ⟨.refl, tidy⟩)
  cases commit with
  | true => exact ⟨done, fun _ _ => ⟨.refl, tidy⟩⟩
  | false => exact ⟨.refl, tidy⟩

end Mutation

end SlashingGuard
