import SlashingGuard.Proofs.Ledger.Making

/-! # What a failed step leaves pending

    A step of a transaction may fail when it has put some of its writes
    already, and nothing takes them back: rolling back is dropping the whole
    transaction.  Putting a record in and deleting records write behind their
    last call that can fail, so they leave what was pending.  Two kinds of
    steps read once more behind a write: registering keys reads each key, and
    raising a floor reads the row back.  What these can leave, and behind
    which error, is said here on any table, with any writes pending and
    whatever calls fail. -/

namespace SlashingGuard

/-! ## Steps that leave nothing behind -/

/-- A step that makes its changes behind everything that can fail leaves what was pending. -/
theorem Transaction.MakesLast.leaves {α : Type} {faulty : Prop} {tx : Transaction α}
    {t : Table Bytes} {p : Pending} {changes : List Change} {E : LedgerError → Pending → Prop}
    (h : MakesLast faulty tx t p changes) (kept : ∀ e, E e p) :
    Leaves faulty tx t p (fun _ _ => True) E := by
  refine h.mono (fun _ _ _ => trivial) ?_
  rintro e q ⟨rfl, -⟩
  exact kept e

/-! ## Every step -/

/-- What may be pending on the table `t` behind a step that failed with an error, if `p` was pending
    before it. -/
inductive Leftover (t : Table Bytes) (p : Pending) : Mutation → LedgerError → Pending → Prop
  /-- What was pending. -/
  | nothing (m : Mutation) (e : LedgerError) : Leftover t p m e p
  /-- The keys before one that could not be looked up, under their numbers; the counter as it
      was. -/
  | keys {first rest : List PublicKey} {key : PublicKey} {e : LedgerError} {q : Pending}
      (enrolled : q = p.enrollFrom t (t.overlaid p).registry.next first)
      (counter : q.get? Place.nextId.bytes = p.get? Place.nextId.bytes)
      (unread : e.Stops ((t.overlaid q).tryId key)) :
      Leftover t p (.register (first ++ key :: rest)) e q
  /-- The slot floor, raised, when the row could not be read back. -/
  | slotFloor {id : ValidatorId} {slot : Slot} {floor : Floor} {e : LedgerError} {q : Pending}
      (registered : (t.overlaid p).isRegistered id)
      (found : (t.overlaid p).tryRead (.floor id .block) (LedgerKey.readWord .slotFloor) =
        .ok floor)
      (raised : q = p.raise (.floor id .block) (fun floor => Floor.moves floor slot)
        (fun floor => Bytes.ofWord (Floor.raised floor slot)) floor)
      (unread : e.Stops ((t.overlaid q).tryRow? id)) :
      Leftover t p (.raiseSlotFloor id slot) e q
  /-- Both epoch floors, raised, when the row could not be read back. -/
  | epochFloors {id : ValidatorId} {source target : Epoch} {floors : Option (Epoch × Epoch)}
      {e : LedgerError} {q : Pending} (registered : (t.overlaid p).isRegistered id)
      (found : (t.overlaid p).tryRead (.floor id .attestation) LedgerValue.readEpochFloors =
        .ok floors)
      (raised : q = p.raise (.floor id .attestation)
        (fun floors => Floor.moves (floors.map Prod.fst) source ||
          Floor.moves (floors.map Prod.snd) target)
        (fun floors => LedgerValue.writeEpochFloors (Floor.raised (floors.map Prod.fst) source)
          (Floor.raised (floors.map Prod.snd) target)) floors)
      (unread : e.Stops ((t.overlaid q).tryRow? id)) :
      Leftover t p (.raiseEpochFloors id source target) e q

namespace Mutation

open Transaction Ledger

variable {faulty : Prop} {t : Table Bytes}

/-- A step that fails leaves what was pending, or one of the leftovers. -/
theorem leaves_perform (m : Mutation) (p : Pending) :
    Leaves faulty m.perform t p (fun _ _ => True) (Leftover t p m) := by
  have kept : ∀ e, Leftover t p m e p := .nothing m
  cases m with
  | register keys =>
    refine (leaves_register keys kept (leaves_pure trivial) ?_).bind
    rintro first key rest e rfl unread
    exact .keys rfl (Pending.get?_enrollFrom_nextId t p _ first) unread
  | insertBlock id slot root => exact (makesLast_insertBlock id slot root).leaves kept
  | insertAttestation id vote root => exact (makesLast_insertAttestation id vote root).leaves kept
  | deleteBlocksBelow id slot => exact (makesLast_deleteBelow _ _ id slot).discard.leaves kept
  | deleteAttestationsBelow id target =>
    exact (makesLast_deleteBelow _ _ id target).discard.leaves kept
  | raiseSlotFloor id slot =>
    rw [perform, raiseSlotFloor_eq]
    exact (leaves_raising (fun _ => kept _) (fun e _ => kept e)
      (fun _ _ _ _ _ => leaves_pure trivial)
      (fun registered _ _ found unread => .slotFloor registered found rfl (.inl unread))
      (fun _ x => kept (.store x))
      fun _ registered _ x found => .slotFloor registered found rfl (.inr ⟨x, rfl⟩)).bind
  | raiseEpochFloors id source target =>
    rw [perform, raiseEpochFloors_eq]
    exact (leaves_raising (fun _ => kept _) (fun e _ => kept e)
      (fun _ _ _ _ _ => leaves_pure trivial)
      (fun registered _ _ found unread => .epochFloors registered found rfl (.inl unread))
      (fun _ x => kept (.store x))
      fun _ registered _ x found => .epochFloors registered found rfl (.inr ⟨x, rfl⟩)).bind

/-- Steps up to the first that fails write nothing to the store. -/
theorem leaves_performWhole (mutations : List Mutation) (p : Pending) :
    Leaves faulty (performWhole mutations) t p (fun _ _ => True) fun _ _ => True := by
  induction mutations generalizing p with
  | nil => exact leaves_pure trivial
  | cons m rest ih =>
    exact ((leaves_perform m p).mono (fun _ q _ => ih q) fun _ _ _ => trivial).bind

end Mutation

/-- A transaction that fails, at one of its steps or at its commit, leaves the store. -/
theorem LedgerWork.always_atomically_error {α : Type} {faulty : Prop} {t : Table Bytes}
    {tx : Transaction α} (keep : α → Bool)
    (h : tx.Leaves faulty t Table.empty (fun _ _ => True) fun _ _ => True) :
    (atomically tx keep).run.Always faulty t fun r t' => ∀ e, r = .error e → t' = t := by
  rw [atomically, always_bind]
  show Program.Always faulty (Program.bind (tx.run.run Table.empty) _) t _
  rw [Program.always_bind]
  refine Program.Always.mono h ?_
  rintro ⟨r, p⟩ t' ⟨rfl, -⟩
  cases r with
  | error e => exact fun _ _ => rfl
  | ok a =>
    show Program.Always faulty
      (ExceptT.run (if keep a then commit p >>= fun _ => pure a else pure a)) t' _
    split
    · rw [always_bind]
      refine always_commit (fun e done => ?_) fun _ _ _ _ => rfl
      cases done
    · intro e done
      cases done

/-- Whatever is stored and pending and whatever calls fail: a step that fails leaves what was
    pending, or one of the leftovers, and the store; and a transaction that is dropped at its first
    error leaves the store. -/
theorem failures_are_rolled_back (t : Table Bytes) (faults : Store.FaultSchedule) :
    (∀ (m : Mutation) (p q : Pending) (e : LedgerError) (t' : Table Bytes),
      (m.perform.run.run p).runFaulty faults t = ((.error e, q), t') →
        Leftover t p m e q ∧ t' = t) ∧
    ∀ (mutations : List Mutation) (commit : Bool) (e : LedgerError) (t' : Table Bytes),
      (Mutation.transactWhole mutations commit).run.runFaulty faults t = (.error e, t') →
        t' = t := by
  constructor
  · intro m p q e t' failed
    have leaves : Transaction.Leaves True m.perform t p (fun _ _ => True) (Leftover t p m) :=
      Mutation.leaves_perform m p
    have out := Program.Always.runFaulty leaves faults
    rw [failed] at out
    exact out.symm
  · intro mutations commit e t' failed
    have leaves : Transaction.Leaves True (Mutation.performWhole mutations) t Table.empty
        (fun _ _ => True) fun _ _ => True := Mutation.leaves_performWhole mutations Table.empty
    have out := (LedgerWork.always_atomically_error (fun _ => commit) leaves).runFaulty faults
    rw [← Mutation.transactWhole, failed] at out
    exact out e rfl

/-- Two keys are registered in a new ledger, and looking up the second one fails. -/
theorem failures_are_rolled_back_secondKey :
    ((Mutation.register [⟨[1]⟩, ⟨[2]⟩]).perform.run.run Table.empty).runFaulty
        [none, none, some (.io "gone")] Table.empty =
      ((.error (.store (.io "gone")), Pending.enroll Table.empty ⟨[1]⟩ 1), Table.empty) ∧
    (Leftover Table.empty Table.empty (.register [⟨[1]⟩, ⟨[2]⟩]) (.store (.io "gone"))
      (Pending.enroll Table.empty ⟨[1]⟩ 1) ∧ (Table.empty : Table Bytes) = Table.empty) ∧
    (Mutation.transactWhole [.register [⟨[1]⟩, ⟨[2]⟩]] true).run.runFaulty
        [none, none, some (.io "gone")] Table.empty =
      (.error (.store (.io "gone")), Table.empty) ∧
    (Table.empty : Table Bytes) = Table.empty := by
  have cut := failures_are_rolled_back Table.empty [none, none, some (.io "gone")]
  refine ⟨rfl, cut.1 _ _ _ _ _ rfl, rfl, ?_⟩
  exact cut.2 [.register [⟨[1]⟩, ⟨[2]⟩]] true (.store (.io "gone")) Table.empty rfl

/-- What two failed steps leave pending, and what is stored if it is committed: a key under a number
    that the counter has not passed, and a slot floor beside epoch floors that cannot be read. -/
theorem failed_steps_leave_writes :
    ((Mutation.register [⟨[1]⟩, ⟨[2]⟩]).perform.run.run Table.empty).runFaulty
        [none, none, some (.io "gone")] Table.empty =
      ((.error (.store (.io "gone")), Pending.enroll Table.empty ⟨[1]⟩ 1), Table.empty) ∧
    Pending.enroll Table.empty ⟨[1]⟩ 1 ≠ Table.empty ∧
    (let ledger := (Table.empty : Table Bytes).overlaid (Pending.enroll Table.empty ⟨[1]⟩ 1)
    ledger.registry.idOf ⟨[1]⟩ = some ⟨1⟩ ∧ ledger.registry.next = 1) ∧
    let damaged : Table Bytes := Table.ofEntries
      [((Place.keyOf ⟨1⟩).bytes, [1]), ((Place.floor ⟨1⟩ .attestation).bytes, [])]
    ((Mutation.raiseSlotFloor ⟨1⟩ 5).perform.run.run Table.empty).runFaulty [] damaged =
      ((.error (.corrupt .epochFloors .truncated),
        Table.empty.insert (Place.floor ⟨1⟩ .block).bytes (some (Bytes.ofWord 5))), damaged) := by
  refine ⟨rfl, fun same => ?_, ⟨?_, ?_⟩, rfl⟩
  · have same : Table.isEmpty _ = Table.isEmpty _ := congrArg Table.isEmpty same
    revert same
    decide +kernel
  · decide +kernel
  · decide +kernel

end SlashingGuard
