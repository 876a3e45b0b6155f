import SlashingGuard.Proofs.Guard.Requests
import SlashingGuard.Proofs.Ledger.Atomicity

/-! # Requests are atomic

    A signing request is one unit of work, on any store whatever: its keys and
    values may be garbage, and any of its calls may fail.  A request that is
    not permitted leaves the store as it was.  One that is permitted met no
    fault, has written at most one batch, and has put values only at two keys,
    the record of the duty and the floor of its kind, where there were none.
    Nothing that was there is changed, of whatever validator and kind. -/

namespace SlashingGuard

/-! ## The calls of a request -/

namespace GuardWork

variable {α β : Type} {c : Context}

/-- How work ends when calls on the store fail as scheduled, with the context and the ledger
    left. -/
def underFaults (w : GuardWork α) (c : Context) (faults : Store.FaultSchedule) (t : Table Bytes) :
    Except GuardError α × Context × Table Bytes :=
  let ((r, c'), t') := (w.run.run c).runFaulty faults t
  (r, c', t')

/-- The calls that work makes on the store then. -/
def exchanges (w : GuardWork α) (c : Context) (faults : Store.FaultSchedule) (t : Table Bytes) :
    List Store.Exchange :=
  (w.run.run c).exchanges faults t

theorem run_theGuard_bind (k : Guard → GuardWork β) :
    (theGuard >>= k).run.run c = (k c.guard).run.run c := rfl

/-- Work under a lock that is held makes no call. -/
theorem run_withLock_held {lock : LockName} (held : lock ∈ c.guard.held) (w : GuardWork α) :
    (withLock lock w).run.run c =
      .done (.error (.ledger (.lockTimeout lock.1 lock.2 c.guard.config.lockTimeout)), c) := by
  have refused : (takeLock lock).run.run c =
      .done (.error (.ledger (.lockTimeout lock.1 lock.2 c.guard.config.lockTimeout)), c) := by
    unfold takeLock
    rw [run_theGuard_bind, if_pos (by simpa using held)]
    rfl
  unfold withLock
  show Program.bind ((takeLock lock).run.run c) _ = _
  rw [refused]
  rfl

/-- Work on the ledger under a free lock makes the calls of the work, and no others. -/
theorem run_withLock_ledger {lock : LockName} (free : lock ∉ c.guard.held) (w : LedgerWork α) :
    (withLock lock (ledger w)).run.run c =
      w.run.bind fun r => .done (r.mapError GuardError.ledger, c) := by
  have taken : (takeLock lock).run.run c = .done (.ok (), holding c lock) := by
    unfold takeLock
    rw [run_theGuard_bind, if_neg (by simpa using free)]
    rfl
  unfold withLock
  show Program.bind ((takeLock lock).run.run c) _ = _
  rw [taken]
  show Program.bind (Program.bind (Program.bind w.run _) _) _ = _
  rw [Program.bind_assoc, Program.bind_assoc]
  congr 1
  funext r
  show Program.done (_, freed (holding c lock) lock) = _
  rw [freed_holding]

end GuardWork

namespace Guard

open GuardWork

variable {c : Context} {kind : DutyKind} {key : PublicKey} {id : ValidatorId}
  {decide : ValidatorId → LedgerWork Decision}

/-- The context after a request was decided, or failed to be. -/
def answered (c : Context) (kind : DutyKind) : Except LedgerError Decision → Context
  | .ok decision => counted c kind decision
  | .error _ => c

theorem run_resolve (known : c.guard.validatorId? key = some id) :
    (resolve key).run.run c = .done (.ok id, c) := by
  unfold resolve
  rw [run_theGuard_bind, known]
  rfl

/-- A request of a key that the guard does not know makes no call. -/
theorem run_answer_unknown (enabled : c.guard.config.enabled)
    (unknown : c.guard.validatorId? key = none) :
    (answer kind key decide).run.run c = .done (.error (.unknownKey key), c) := by
  have unresolved : (resolve key).run.run c = .done (.error (.unknownKey key), c) := by
    unfold resolve
    rw [run_theGuard_bind, unknown]
    rfl
  unfold answer
  rw [run_theGuard_bind, if_pos enabled]
  show Program.bind ((resolve key).run.run c) _ = _
  rw [unresolved]
  rfl

/-- Nor does one whose lock is held. -/
theorem run_answer_held (enabled : c.guard.config.enabled)
    (known : c.guard.validatorId? key = some id) (held : (id, kind) ∈ c.guard.held) :
    (answer kind key decide).run.run c =
      .done (.error (.ledger (.lockTimeout id kind c.guard.config.lockTimeout)), c) := by
  unfold answer
  rw [run_theGuard_bind, if_pos enabled]
  show Program.bind ((resolve key).run.run c) _ = _
  rw [run_resolve known]
  show Program.bind ((withLock (id, kind) (ledger (decide id))).run.run c) _ = _
  rw [run_withLock_held held]
  rfl

/-- A request that is decided makes the calls of the decision, and no others. -/
theorem run_answer_free (enabled : c.guard.config.enabled)
    (known : c.guard.validatorId? key = some id) (free : (id, kind) ∉ c.guard.held) :
    (answer kind key decide).run.run c =
      (decide id).run.bind fun r => .done (r.mapError .ledger, answered c kind r) := by
  unfold answer
  rw [run_theGuard_bind, if_pos enabled]
  show Program.bind ((resolve key).run.run c) _ = _
  rw [run_resolve known]
  show Program.bind ((withLock (id, kind) (ledger (decide id))).run.run c) _ = _
  rw [run_withLock_ledger free, Program.bind_assoc]
  congr 1
  funext r
  cases r <;> rfl

/-! ## Atomicity -/

/-- A request of a key was asked of a guard on the store `t`; it was answered with `reply` and made
    the calls `made`, which left the store `left`.  `record` is where its duty is recorded. -/
structure AtomicRequest (g : Guard) (key : PublicKey) (kind : DutyKind)
    (record : ValidatorId → Place) (t : Table Bytes) (reply : Except GuardError Decision)
    (made : List Store.Exchange) (left : Table Bytes) : Prop where
  /-- The store that is left is what the calls that did not fail made of it. -/
  written : left = made.foldl Store.Exchange.apply t
  /-- A denial or an error changes nothing. -/
  refused : reply ≠ .ok .permit → left = t
  oneBatch : (made.filter Store.Exchange.isWrite).length ≤ 1
  /-- No call that failed leads to a permit. -/
  unfailed : reply = .ok .permit → ∀ e ∈ made, e.fault = none
  /-- What a permit leaves has its record, and at most the record and the floor of the validator
      are new. -/
  recorded : reply = .ok .permit → ∃ id, g.validatorId? key = some id ∧
    t.Recorded left (record id) (.floor id kind)
  /-- What was there is there, with the same value. -/
  kept : ∀ k value, t.get? k = some value → left.get? k = some value
  /-- Nothing of another validator or of the other kind is changed. -/
  others : ∀ place, (∀ id, g.validatorId? key = some id →
    place ≠ record id ∧ place ≠ .floor id kind) → left.get? place.bytes = t.get? place.bytes

variable {record : ValidatorId → Place} {t : Table Bytes} {reply : Except GuardError Decision}
  {made : List Store.Exchange} {left : Table Bytes}

/-- A request that is refused and leaves the store is atomic if it writes at most once. -/
theorem AtomicRequest.of_refused (written : t = made.foldl Store.Exchange.apply t)
    (oneBatch : (made.filter Store.Exchange.isWrite).length ≤ 1)
    (refused : reply ≠ .ok .permit) :
    AtomicRequest c.guard key kind record t reply made t where
  written := written
  refused _ := rfl
  oneBatch := oneBatch
  unfailed permit := absurd permit refused
  recorded permit := absurd permit refused
  kept _ _ found := found
  others _ _ := rfl

/-- One that is permitted is atomic if only its record and its floor are new. -/
theorem AtomicRequest.of_recorded (known : c.guard.validatorId? key = some id)
    (written : left = made.foldl Store.Exchange.apply t)
    (oneBatch : (made.filter Store.Exchange.isWrite).length ≤ 1)
    (unfailed : ∀ e ∈ made, e.fault = none)
    (recorded : t.Recorded left (record id) (.floor id kind)) :
    AtomicRequest c.guard key kind record t (.ok .permit) made left where
  written := written
  refused refused := absurd rfl refused
  oneBatch := oneBatch
  unfailed _ := unfailed
  recorded _ := ⟨id, known, recorded⟩
  kept _ _ found := recorded.kept found
  others _ ne := recorded.other (ne id known).1 (ne id known).2

/-- A request is atomic if the decision that it asks for is. -/
theorem atomicRequest_answer (enabled : c.guard.config.enabled)
    (decided : ∀ id, Ledger.AtomicOn t (record id) (.floor id kind) (decide id))
    (faults : Store.FaultSchedule) :
    AtomicRequest c.guard key kind record t ((answer kind key decide).underFaults c faults t).1
      ((answer kind key decide).exchanges c faults t)
      ((answer kind key decide).underFaults c faults t).2.2 := by
  unfold underFaults GuardWork.exchanges
  cases known : c.guard.validatorId? key with
  | none =>
    rw [run_answer_unknown enabled known]
    exact .of_refused rfl (Nat.zero_le 1) nofun
  | some id =>
    by_cases held : (id, kind) ∈ c.guard.held
    · rw [run_answer_held enabled known held]
      exact .of_refused rfl (Nat.zero_le 1) nofun
    · rw [run_answer_free enabled known held, Program.runFaulty_bind_done,
        Program.exchanges_bind_done]
      have written := Program.runFaulty_table (decide id).run faults t
      have strict := (decided id).runFaulty faults
      -- From here the run of the decision matters only by what it gives.
      generalize (decide id).run.runFaulty faults t = result at written strict
      generalize (decide id).run.exchanges faults t = made at written strict
      obtain ⟨r, left⟩ := result
      obtain ⟨oneBatch, ⟨unfailed, changes⟩ | ⟨fault, failed, same⟩⟩ := strict
      · match r with
        | .ok .permit => exact .of_recorded known written oneBatch unfailed (changes.2 rfl)
        | .ok (.deny reason) =>
          obtain rfl : left = t := changes.1 nofun
          exact .of_refused written oneBatch nofun
        | .error e =>
          obtain rfl : left = t := changes.1 nofun
          exact .of_refused written oneBatch nofun
      · obtain rfl : left = t := same
        obtain rfl : r = .error (.store fault) := failed
        exact .of_refused written oneBatch nofun

/-- Every signing request to a guard that checks what it permits is atomic, on any store and under
    any faults. -/
theorem requests_atomic (enabled : c.guard.config.enabled) (key : PublicKey)
    (faults : Store.FaultSchedule) (t : Table Bytes) :
    (∀ slot root, AtomicRequest c.guard key .block (.block · slot) t
      ((signBlock key slot root).underFaults c faults t).1
      ((signBlock key slot root).exchanges c faults t)
      ((signBlock key slot root).underFaults c faults t).2.2) ∧
    (∀ vote root, AtomicRequest c.guard key .attestation (.attestation · vote.target) t
      ((signAttestation key vote root).underFaults c faults t).1
      ((signAttestation key vote root).exchanges c faults t)
      ((signAttestation key vote root).underFaults c faults t).2.2) := by
  constructor
  · intro slot root
    apply atomicRequest_answer enabled
    intro id
    exact Ledger.atomicOn_signBlock t id slot root
  · intro vote root
    apply atomicRequest_answer enabled
    intro id
    exact Ledger.atomicOn_signAttestation t id vote root

/-- A guard that knows one key, whose number is one. -/
def knowingOneKey : Context := ⟨⟨.standard, [(⟨[7]⟩, ⟨1⟩)], []⟩, .zero⟩

/-- A store that has this number, and a key of no family. -/
def strangeStore : Table Bytes :=
  (Table.empty.insert (Place.keyOf ⟨1⟩).bytes [7]).insert [0] [0]

/-- A full disk refuses the batch of a first block, after all reads. -/
def diskFull : Store.FaultSchedule := List.replicate 8 none ++ [some (.io "full")]

theorem requests_atomic_diskFull :
    knowingOneKey.guard.config.enabled ∧
    ((signBlock ⟨[7]⟩ 5 ⟨[1]⟩).underFaults knowingOneKey [] strangeStore).1 = .ok .permit ∧
    ((signBlock ⟨[7]⟩ 5 ⟨[1]⟩).underFaults knowingOneKey diskFull strangeStore).1 =
      .error (.ledger (.store (.io "full"))) ∧
    AtomicRequest knowingOneKey.guard ⟨[7]⟩ .block (.block · 5) strangeStore
      ((signBlock ⟨[7]⟩ 5 ⟨[1]⟩).underFaults knowingOneKey diskFull strangeStore).1
      ((signBlock ⟨[7]⟩ 5 ⟨[1]⟩).exchanges knowingOneKey diskFull strangeStore)
      ((signBlock ⟨[7]⟩ 5 ⟨[1]⟩).underFaults knowingOneKey diskFull strangeStore).2.2 :=
  ⟨rfl, by decide +kernel, by decide +kernel,
    (requests_atomic rfl ⟨[7]⟩ diskFull strangeStore).1 5 ⟨[1]⟩⟩

end Guard

end SlashingGuard
