import SlashingGuard.Proofs.Guard.Atomicity

/-! # The first fault

    Nothing in a prune makes up for a call that failed: the first such call is
    its last call, and the prune ends with the fault of that call as its error.
    So a run in which no call failed is a run on the store that never fails,
    and of a run in which one did it is known where it stopped. -/

namespace SlashingGuard

variable {α β : Type}

/-! ## Programs that end at the first fault -/

namespace Program

/-- On any table a call that fails is the last call of the program, whose value is then as `E`
    says. -/
def EndsAtFault (E : StoreFault → α → Prop) : StoreProgram α → Prop
  | .done _ => True
  | .call request next => (∀ fault, ∃ a, next (.error fault) = .done a ∧ E fault a) ∧
      ∀ answer : request.Answer, (next (.ok answer)).EndsAtFault E

variable {E : StoreFault → α → Prop} {p : StoreProgram α}

/-- One program after another; the second has nothing to do if a call of the first failed. -/
theorem EndsAtFault.bind {E' : StoreFault → β → Prop} {f : α → StoreProgram β}
    (h : p.EndsAtFault E) (stop : ∀ fault a, E fault a → ∃ b, f a = .done b ∧ E' fault b)
    (hf : ∀ a, (f a).EndsAtFault E') : (p.bind f).EndsAtFault E' := by
  induction p with
  | done a => exact hf a
  | call request next ih =>
    obtain ⟨stops, rest⟩ := h
    refine ⟨fun fault => ?_, fun answer => ih _ (rest answer)⟩
    obtain ⟨a, ends, post⟩ := stops fault
    obtain ⟨b, ends', post'⟩ := stop fault a post
    have both : (next (.error fault)).bind f = .done b := by rw [ends]; exact ends'
    exact ⟨b, both, post'⟩

/-- If a call of a run failed, its value is as is fixed for the fault. -/
theorem EndsAtFault.runFaulty (h : p.EndsAtFault E) {faults : Store.FaultSchedule}
    {t : Table Bytes} {e : Store.Exchange} (he : e ∈ p.exchanges faults t) {fault : StoreFault}
    (failed : e.fault = some fault) : E fault (p.runFaulty faults t).1 := by
  induction p generalizing faults t with
  | done a => contradiction
  | call request next ih =>
    obtain ⟨stops, rest⟩ := h
    rcases runFaulty_call request next faults t with ⟨first, after, -, run, made⟩ | ⟨run, made⟩
    · -- The first call failed, and there is no other.
      obtain ⟨a, ends, post⟩ := stops first
      rw [made, ends] at he
      obtain rfl := List.mem_singleton.1 he
      obtain rfl : first = fault := Option.some.inj failed
      rw [run, ends]
      exact post
    · rw [made] at he
      rw [run]
      rcases List.mem_cons.1 he with rfl | later
      · contradiction
      · exact ih _ (rest _) later

end Program

/-! ## Queries and transactions -/

/-- The first call of the query that fails ends it with the fault. -/
def Query.EndsAtFault (q : Query α) : Prop :=
  ∀ p : Pending, (q p).run.EndsAtFault fun x r => r = .error (.store x)

/-- So does the first call of the transaction. -/
def Transaction.EndsAtFault (tx : Transaction α) : Prop :=
  ∀ p : Pending, (tx.run.run p).EndsAtFault fun x r => r.1 = .error (.store x)

namespace Query

theorem endsAtFault_ofExcept (r : Except LedgerError α) : (ofExcept r).EndsAtFault := by
  intro _
  cases r <;> trivial

theorem endsAtFault_pure (a : α) : (pure a : Query α).EndsAtFault := fun _ => trivial

theorem endsAtFault_throw (e : LedgerError) : (throw e : Query α).EndsAtFault := fun _ => trivial

theorem EndsAtFault.bind {q : Query α} {k : α → Query β} (h : q.EndsAtFault)
    (hk : ∀ a, (k a).EndsAtFault) : (q >>= k).EndsAtFault := by
  intro p
  show Program.EndsAtFault _ (Program.bind (q p).run _)
  refine (h p).bind ?_ fun r => ?_
  · rintro x r rfl
    exact ⟨_, rfl, rfl⟩
  · cases r with
    | ok a => exact hk a p
    | error e => trivial

theorem endsAtFault_get (key : Bytes) : (get key).EndsAtFault := by
  intro p
  unfold get
  split
  · trivial
  · exact ⟨fun _ => ⟨_, rfl, rfl⟩, fun _ => trivial⟩

theorem endsAtFault_contains (key : Bytes) : (contains key).EndsAtFault := by
  intro p
  unfold contains
  split
  · trivial
  · exact ⟨fun _ => ⟨_, rfl, rfl⟩, fun _ => trivial⟩

theorem endsAtFault_scan (scope : Bytes) : (scan scope).EndsAtFault :=
  fun _ => ⟨fun _ => ⟨_, rfl, rfl⟩, fun _ => trivial⟩

theorem endsAtFault_record (key : Bytes) (read : Bytes → Except LedgerError α) :
    (record key read).EndsAtFault := by
  refine (endsAtFault_get key).bind fun value => ?_
  cases value with
  | none => exact endsAtFault_pure none
  | some bytes => exact (endsAtFault_ofExcept (read bytes)).bind fun a => endsAtFault_pure (some a)

end Query

namespace Transaction

theorem endsAtFault_pure (a : α) : (pure a : Transaction α).EndsAtFault := fun _ => trivial

theorem endsAtFault_ofExcept (r : Except LedgerError α) : (ofExcept r).EndsAtFault :=
  fun _ => trivial

theorem endsAtFault_put (key value : Bytes) : (put key value).EndsAtFault := fun _ => trivial

theorem endsAtFault_delete (key : Bytes) : (delete key).EndsAtFault := fun _ => trivial

theorem EndsAtFault.bind {tx : Transaction α} {k : α → Transaction β} (h : tx.EndsAtFault)
    (hk : ∀ a, (k a).EndsAtFault) : (tx >>= k).EndsAtFault := by
  intro p
  show Program.EndsAtFault _ (Program.bind (tx.run.run p) _)
  refine (h p).bind ?_ ?_
  · rintro x ⟨r, q⟩ stopped
    obtain rfl : r = .error (.store x) := stopped
    exact ⟨_, rfl, rfl⟩
  · rintro ⟨r, q⟩
    cases r with
    | ok a => exact hk a q
    | error e => trivial

theorem endsAtFault_query {q : Query α} (h : q.EndsAtFault) :
    (liftM q : Transaction α).EndsAtFault := by
  intro p
  show Program.EndsAtFault _ (Program.bind (q p).run _)
  refine (h p).bind ?_ fun r => trivial
  rintro x r rfl
  exact ⟨_, rfl, rfl⟩

/-- A query, and what follows it. -/
theorem EndsAtFault.query_bind {q : Query α} {k : α → Transaction β} (h : q.EndsAtFault)
    (hk : ∀ a, (k a).EndsAtFault) : (liftM q >>= k : Transaction β).EndsAtFault :=
  (endsAtFault_query h).bind hk

end Transaction

/-! ## Work on the ledger -/

/-- The first call of the work that fails ends it with the fault. -/
def LedgerWork.EndsAtFault (w : LedgerWork α) : Prop :=
  w.run.EndsAtFault fun x r => r = .error (.store x)

namespace LedgerWork

theorem endsAtFault_pure (a : α) : (pure a : LedgerWork α).EndsAtFault := trivial

theorem EndsAtFault.bind {w : LedgerWork α} {k : α → LedgerWork β} (h : w.EndsAtFault)
    (hk : ∀ a, (k a).EndsAtFault) : (w >>= k).EndsAtFault := by
  show Program.EndsAtFault _ (Program.bind w.run _)
  refine Program.EndsAtFault.bind h ?_ fun r => ?_
  · rintro x r rfl
    exact ⟨_, rfl, rfl⟩
  · cases r with
    | ok a => exact hk a
    | error e => trivial

theorem endsAtFault_commit (p : Pending) : (commit p).EndsAtFault := by
  unfold commit
  split
  · trivial
  · exact ⟨fun _ => ⟨_, rfl, rfl⟩, fun _ => trivial⟩

theorem endsAtFault_atomically {tx : Transaction α} (h : tx.EndsAtFault) (keep : α → Bool) :
    (atomically tx keep).EndsAtFault := by
  have started : tx.start.EndsAtFault := by
    show Program.EndsAtFault _ (Program.bind (tx.run.run Table.empty) _)
    refine (h Table.empty).bind ?_ fun _ => trivial
    rintro x ⟨r, q⟩ stopped
    obtain rfl : r = .error (.store x) := stopped
    exact ⟨_, rfl, rfl⟩
  refine started.bind ?_
  rintro ⟨a, p⟩
  show LedgerWork.EndsAtFault (if keep a then commit p >>= fun _ => pure a else pure a)
  split
  · exact (endsAtFault_commit p).bind fun _ => endsAtFault_pure a
  · exact endsAtFault_pure a

end LedgerWork

namespace Ledger

open Transaction

theorem endsAtFault_requireRegistered (id : ValidatorId) :
    (requireRegistered id).EndsAtFault := by
  refine (Query.endsAtFault_contains _).bind fun registered => ?_
  cases registered with
  | true => exact Query.endsAtFault_pure ()
  | false => exact Query.endsAtFault_throw _

theorem endsAtFault_watermark? (id : ValidatorId) : (watermark? id).EndsAtFault := by
  refine (Query.endsAtFault_record _ _).bind fun slot =>
    (Query.endsAtFault_record _ _).bind fun epochs => ?_
  cases slot <;> cases epochs <;> exact Query.endsAtFault_pure _

theorem endsAtFault_watermark (id : ValidatorId) : (watermark id).EndsAtFault :=
  (endsAtFault_watermark? id).bind fun _ => Query.endsAtFault_pure _

theorem endsAtFault_newest? (family : KeyFamily) (what : RecordKind) (id : ValidatorId) :
    (newest? family what id).EndsAtFault := by
  refine (Query.endsAtFault_scan _).bind fun entries => ?_
  cases entries.getLast? with
  | none => exact Query.endsAtFault_pure none
  | some entry =>
    exact (Query.endsAtFault_ofExcept _).bind fun n => Query.endsAtFault_pure (some n)

theorem endsAtFault_raiseSlotFloor (id : ValidatorId) (slot : Slot) :
    (raiseSlotFloor id slot).EndsAtFault := by
  have last := endsAtFault_query (endsAtFault_watermark id)
  unfold raiseSlotFloor
  refine EndsAtFault.query_bind (endsAtFault_requireRegistered id) fun _ =>
    EndsAtFault.query_bind (Query.endsAtFault_record _ _) fun floor => ?_
  split
  split
  · exact (endsAtFault_put _ _).bind fun _ => last
  · exact last

theorem endsAtFault_raiseEpochFloors (id : ValidatorId) (source target : Epoch) :
    (raiseEpochFloors id source target).EndsAtFault := by
  have last := endsAtFault_query (endsAtFault_watermark id)
  unfold raiseEpochFloors
  refine EndsAtFault.query_bind (endsAtFault_requireRegistered id) fun _ =>
    EndsAtFault.query_bind (Query.endsAtFault_record _ _) fun floors => ?_
  split
  split
  · exact (endsAtFault_put _ _).bind fun _ => last
  · exact last

theorem endsAtFault_deleteWhileBelow (what : RecordKind) (bound : UInt64)
    (entries : List (Entry Bytes)) : (deleteWhileBelow what bound entries).EndsAtFault := by
  induction entries with
  | nil => exact endsAtFault_pure 0
  | cons entry rest ih =>
    obtain ⟨key, value⟩ := entry
    unfold deleteWhileBelow
    refine (endsAtFault_ofExcept _).bind fun n => ?_
    split
    · exact endsAtFault_pure 0
    · exact (endsAtFault_delete key).bind fun _ => ih.bind fun n => endsAtFault_pure (n + 1)

theorem endsAtFault_deleteBelow (family : KeyFamily) (what : RecordKind) (id : ValidatorId)
    (bound : UInt64) : (deleteBelow family what id bound).EndsAtFault :=
  EndsAtFault.query_bind (Query.endsAtFault_scan _) fun entries =>
    endsAtFault_deleteWhileBelow what bound entries

/-! ### Prunes -/

theorem endsAtFault_pruneBelow {raise : Transaction (Option UInt64)}
    {delete : UInt64 → Transaction Nat} (h : raise.EndsAtFault)
    (hd : ∀ mark, (delete mark).EndsAtFault) : (pruneBelow raise delete).EndsAtFault := by
  refine (LedgerWork.endsAtFault_atomically h _).bind fun mark => ?_
  cases mark with
  | none => exact LedgerWork.endsAtFault_pure _
  | some mark =>
    exact (LedgerWork.endsAtFault_atomically (hd mark) _).bind fun deleted =>
      LedgerWork.endsAtFault_pure _

theorem endsAtFault_pruneBlocks (id : ValidatorId) (keep : UInt64) :
    (pruneBlocks id keep).EndsAtFault := by
  refine endsAtFault_pruneBelow ?_ fun mark => endsAtFault_deleteBelow _ _ id mark
  unfold raiseForBlocks
  refine EndsAtFault.query_bind (endsAtFault_watermark? id) fun row =>
    EndsAtFault.query_bind (endsAtFault_newest? _ _ id) fun newest => ?_
  split
  · exact endsAtFault_pure none
  · exact (endsAtFault_raiseSlotFloor id _).bind fun _ => endsAtFault_pure _

theorem endsAtFault_pruneAttestations (id : ValidatorId) (keep : UInt64) :
    (pruneAttestations id keep).EndsAtFault := by
  refine endsAtFault_pruneBelow ?_ fun mark => endsAtFault_deleteBelow _ _ id mark
  unfold raiseForAttestations
  refine EndsAtFault.query_bind (endsAtFault_watermark? id) fun row =>
    EndsAtFault.query_bind (endsAtFault_newest? _ _ id) fun newest => ?_
  split
  · exact endsAtFault_pure none
  · exact (endsAtFault_raiseEpochFloors id _ _).bind fun _ => endsAtFault_pure _

end Ledger

/-! ## Work of a guard -/

/-- The first call of the work that fails ends it with the fault as its error. -/
def GuardWork.EndsAtFault (w : GuardWork α) : Prop :=
  ∀ c : Context, (w.run.run c).EndsAtFault fun x r => r.1 = .error (.ledger (.store x))

namespace GuardWork

theorem endsAtFault_conclude (r : Except GuardError α) : (conclude r).EndsAtFault :=
  fun _ => trivial

theorem endsAtFault_pure (a : α) : (pure a : GuardWork α).EndsAtFault := fun _ => trivial

theorem endsAtFault_modifyMetrics (f : Metrics → Metrics) :
    (modifyMetrics f).EndsAtFault := fun _ => trivial

theorem EndsAtFault.bind {w : GuardWork α} {k : α → GuardWork β} (h : w.EndsAtFault)
    (hk : ∀ a, (k a).EndsAtFault) : (w >>= k).EndsAtFault := by
  intro c
  show Program.EndsAtFault _ (Program.bind (w.run.run c) _)
  refine (h c).bind ?_ ?_
  · rintro x ⟨r, c'⟩ stopped
    obtain rfl : r = .error (.ledger (.store x)) := stopped
    exact ⟨_, rfl, rfl⟩
  · rintro ⟨r, c'⟩
    cases r with
    | ok a => exact hk a c'
    | error e => trivial

theorem endsAtFault_ledger {w : LedgerWork α} (h : w.EndsAtFault) : (ledger w).EndsAtFault := by
  intro c
  show Program.EndsAtFault _ (Program.bind w.run _)
  refine Program.EndsAtFault.bind h ?_ fun _ => trivial
  rintro x r rfl
  exact ⟨_, rfl, rfl⟩

theorem endsAtFault_takeLock (lock : LockName) : (takeLock lock).EndsAtFault := by
  intro c
  unfold takeLock
  rw [run_theGuard_bind]
  split <;> trivial

/-- The lock is given back behind the fault, which takes no call. -/
theorem EndsAtFault.withLock {w : GuardWork α} (h : w.EndsAtFault) (lock : LockName) :
    (withLock lock w).EndsAtFault := by
  refine (endsAtFault_takeLock lock).bind fun _ c => ?_
  show Program.EndsAtFault _ (Program.bind (Program.bind (w.run.run c) _) _)
  rw [Program.bind_assoc]
  refine (h c).bind ?_ fun _ => trivial
  rintro x ⟨r, c'⟩ stopped
  obtain rfl : r = .error (.ledger (.store x)) := stopped
  exact ⟨_, rfl, rfl⟩

/-! ### Runs under faults -/

variable {w : GuardWork α} {k : α → GuardWork β} {c c' : Context} {faults : Store.FaultSchedule}
  {t t' : Table Bytes} {a : α}

/-- If a call of the work failed, that is its error. -/
theorem EndsAtFault.underFaults (h : w.EndsAtFault) {ex : Store.Exchange}
    (made : ex ∈ w.exchanges c faults t) {x : StoreFault} (failed : ex.fault = some x) :
    (w.underFaults c faults t).1 = .error (.ledger (.store x)) :=
  (h c).runFaulty made failed

theorem Always.underFaults {Q : Except GuardError α → Context → Table Bytes → Prop}
    (h : Always True w c t Q) (faults : Store.FaultSchedule) :
    Q (w.underFaults c faults t).1 (w.underFaults c faults t).2.1
      (w.underFaults c faults t).2.2 :=
  Program.Always.runFaulty h faults

theorem underFaults_of_unfailed (unfailed : ∀ ex ∈ w.exchanges c faults t, ex.fault = none) :
    w.underFaults c faults t = w.onTable c t := by
  unfold GuardWork.underFaults onTable
  rw [Program.runFaulty_of_unfailed unfailed]

theorem run_bind (w : GuardWork α) (k : α → GuardWork β) (c : Context) :
    (w >>= k).run.run c = (w.run.run c).bind fun (r, c') => match r with
      | .ok a => (k a).run.run c'
      | .error e => .done (.error e, c') := by
  show Program.bind (w.run.run c) _ = _
  congr 1
  funext ⟨r, c'⟩
  cases r <;> rfl

theorem runFaulty_of_underFaults {r : Except GuardError α}
    (h : w.underFaults c faults t = (r, c', t')) :
    (w.run.run c).runFaulty faults t = ((r, c'), t') := by
  unfold GuardWork.underFaults at h
  generalize (w.run.run c).runFaulty faults t = result at h ⊢
  obtain ⟨⟨r', c''⟩, t''⟩ := result
  cases h
  rfl

/-- What follows goes on from where the work has ended, with the faults that are left. -/
theorem underFaults_bind_ok (h : w.underFaults c faults t = (.ok a, c', t')) :
    (w >>= k).underFaults c faults t =
      (k a).underFaults c' (faults.drop (w.exchanges c faults t).length) t' := by
  unfold GuardWork.underFaults GuardWork.exchanges
  rw [run_bind, Program.runFaulty_bind, runFaulty_of_underFaults h]

theorem exchanges_bind_ok (h : w.underFaults c faults t = (.ok a, c', t')) :
    (w >>= k).exchanges c faults t = w.exchanges c faults t ++
      (k a).exchanges c' (faults.drop (w.exchanges c faults t).length) t' := by
  unfold GuardWork.exchanges
  rw [run_bind, Program.exchanges_bind, runFaulty_of_underFaults h]

/-- What is made of the value takes no call. -/
theorem exchanges_bind_pure (w : GuardWork α) (f : α → β) :
    (w >>= fun a => pure (f a)).exchanges c faults t = w.exchanges c faults t := by
  unfold GuardWork.exchanges
  rw [run_bind, Program.exchanges_bind]
  generalize (w.run.run c).runFaulty faults t = result
  obtain ⟨⟨r, c'⟩, t'⟩ := result
  cases r <;> exact List.append_nil _

/-- Nothing follows an error. -/
theorem underFaults_bind_error {e : GuardError}
    (h : w.underFaults c faults t = (.error e, c', t')) :
    (w >>= k).underFaults c faults t = (.error e, c', t') := by
  unfold GuardWork.underFaults
  rw [run_bind, Program.runFaulty_bind, runFaulty_of_underFaults h]
  rfl

end GuardWork

namespace Guard

open GuardWork

theorem endsAtFault_pruneHalf (lock : LockName) {work : LedgerWork (Option UInt64 × Nat)}
    (h : work.EndsAtFault) : (pruneHalf lock work).EndsAtFault := by
  refine EndsAtFault.withLock ((endsAtFault_ledger h).bind ?_) lock
  rintro ⟨floor, removed⟩
  exact (endsAtFault_modifyMetrics _).bind fun _ => endsAtFault_pure _

theorem endsAtFault_pruneValidator (id : ValidatorId) (e p : UInt64) :
    (pruneValidator id e p).EndsAtFault := by
  refine (endsAtFault_conclude _).bind fun _ =>
    (endsAtFault_pruneHalf _ (Ledger.endsAtFault_pruneBlocks id _)).bind ?_
  rintro ⟨slot, blocks⟩
  refine (endsAtFault_pruneHalf _ (Ledger.endsAtFault_pruneAttestations id _)).bind ?_
  rintro ⟨epoch, attestations⟩
  exact endsAtFault_pure _

end Guard

end SlashingGuard
