import SlashingGuard.Proofs.Guard.Alike
import SlashingGuard.Proofs.Guard.FirstFault
import SlashingGuard.Proofs.Guard.PruneLaws
import SlashingGuard.Proofs.Ledger.Isolation

/-! # Prunes of all that a guard knows

    A guard prunes the validators whose keys it knows, each once, in the order
    of their numbers.  Each is pruned as if it were alone on the ledger, so
    the order makes no difference to what is left, and the summary adds up
    what the prunes report one by one.

    A call that fails ends it.  The validators before the one that was being
    pruned then are pruned completely, those behind it are untouched. -/

namespace SlashingGuard.Guard

open GuardWork

variable {c c' : Context} {t left : Table Bytes} {id : ValidatorId} {e p : UInt64}
  {ids done rest : List ValidatorId} {faults : Store.FaultSchedule} {x : StoreFault}

/-! ## One validator after another -/

/-- A prune of one validator, wherever its locks are free and no call fails, succeeds: it reports
    the outcome and leaves the ledger `left`, and the guard as it was. -/
def PrunesAlone (id : ValidatorId) (e p : UInt64) (t : Table Bytes) (outcome : PruneOutcome)
    (left : Table Bytes) : Prop :=
  ∀ c : Context, c.guard.Frees id → ∃ c', c'.guard = c.guard ∧
    (pruneValidator id e p).onTable c t = (.ok outcome, c', left)

/-- Validators are pruned one after the other, each on what the one before it has left. -/
inductive PrunesInTurn (e p : UInt64) :
    List ValidatorId → Table Bytes → List PruneOutcome → Table Bytes → Prop where
  | nil {t : Table Bytes} : PrunesInTurn e p [] t [] t
  | cons {id : ValidatorId} {rest : List ValidatorId} {t u left : Table Bytes}
      {outcome : PruneOutcome} {outcomes : List PruneOutcome} :
      PrunesAlone id e p t outcome u → PrunesInTurn e p rest u outcomes left →
        PrunesInTurn e p (id :: rest) t (outcome :: outcomes) left

/-- What a prune of one validator would leave alone and what it would report, and that it is so
    where the places of the validator are concerned. -/
def PrunedAsAlone (e p : UInt64) (t left : Table Bytes) (id : ValidatorId)
    (outcome : PruneOutcome) : Prop :=
  ∃ alone, PrunesAlone id e p t outcome alone ∧
    ∀ place : Place, place.owner? = some id → left.get? place.bytes = alone.get? place.bytes

theorem prunesAlone (regular : t.Regular) (he : e ≠ 0) (hp : p ≠ 0) (id : ValidatorId) :
    PrunesAlone id e p t (t.outcome id e p) (t.pruned id e p) :=
  fun _ free => onTable_pruneValidator regular he hp free

theorem prunesInTurn (regular : t.Regular) (he : e ≠ 0) (hp : p ≠ 0) (once : ids.Nodup) :
    PrunesInTurn e p ids t (ids.map fun id => t.outcome id e p) (t.prunedAll e p ids) := by
  induction ids generalizing t with
  | nil => exact .nil
  | cons id rest ih =>
    obtain ⟨absent, once⟩ := List.nodup_cons.1 once
    have later := ih (regular.pruned id e p) once
    rw [Table.map_outcome_pruned regular absent] at later
    exact .cons (prunesAlone regular he hp id) later

theorem prunedAsAlone (regular : t.Regular) (he : e ≠ 0) (hp : p ≠ 0) (once : ids.Nodup)
    (member : id ∈ ids) :
    PrunedAsAlone e p t (t.prunedAll e p ids) id (t.outcome id e p) :=
  ⟨_, prunesAlone regular he hp id, fun _ owner =>
    Table.get?_prunedAll_of_mem regular once member owner⟩

/-! ## The work itself -/

theorem pruneAll_append (e p : UInt64) (summary : PruneSummary) (done rest : List ValidatorId) :
    pruneAll e p summary (done ++ rest) =
      pruneAll e p summary done >>= fun s => pruneAll e p s rest := by
  induction done generalizing summary with
  | nil => exact (pure_bind _ _).symm
  | cons id done ih =>
    rw [List.cons_append, pruneAll, pruneAll, bind_assoc]
    congr 1
    funext outcome
    exact ih (summary.record outcome)

/-- A prune of validators that succeeds has pruned them all; it fails for a lock that is held or for
    a call that fails. -/
theorem always_pruneAll {faulty : Prop} (regular : t.Regular) (he : e ≠ 0) (hp : p ≠ 0)
    (once : ids.Nodup) (summary : PruneSummary) :
    Always faulty (pruneAll e p summary ids) c t fun r c' t' => c'.guard = c.guard ∧ match r with
      | .ok total => total = (ids.map fun id => t.outcome id e p).foldl .record summary ∧
          t' = t.prunedAll e p ids
      | .error _ => (∀ id ∈ ids, c.guard.Frees id) → faulty := by
  induction ids generalizing c t summary with
  | nil => exact always_pure.2 ⟨rfl, rfl, rfl⟩
  | cons id rest ih =>
    obtain ⟨absent, once⟩ := List.nodup_cons.1 once
    unfold pruneAll
    refine always_bind.2 ((always_pruneValidator_ends regular he hp).mono fun r c' t' ends => ?_)
    have guard := ends.guard_eq
    cases ends with
    | inBlocks stops _ =>
      exact ⟨rfl, fun free => (stops.of_frees (free id List.mem_cons_self)).1⟩
    | inAttestations stops _ =>
      exact ⟨rfl, fun free => (stops.of_frees (free id List.mem_cons_self)).1⟩
    | done =>
      refine (ih (regular.pruned id e p) once _).mono fun r c'' t'' later => ?_
      rw [Table.map_outcome_pruned regular absent, guard] at later
      refine ⟨later.1, ?_⟩
      cases r with
      | ok total => exact later.2
      | error _ => exact fun free => later.2 fun id member => free id (List.mem_cons_of_mem _ member)

theorem onTable_pruneAll (regular : t.Regular) (he : e ≠ 0) (hp : p ≠ 0)
    (free : ∀ id ∈ ids, c.guard.Frees id) (once : ids.Nodup) (summary : PruneSummary) :
    ∃ c', c'.guard = c.guard ∧ (pruneAll e p summary ids).onTable c t =
      (.ok ((ids.map fun id => t.outcome id e p).foldl .record summary), c',
        t.prunedAll e p ids) := by
  have always : Always False (pruneAll e p summary ids) c t _ :=
    always_pruneAll regular he hp once summary
  refine Always.onTable_eq (always.mono fun r c' t' ends => ⟨ends.1, ?_⟩)
  cases r with
  | ok total => exact ⟨congrArg Except.ok ends.2.1, ends.2.2⟩
  | error _ => exact (ends.2 free).elim

/-- With usable settings, all that a guard does in a prune is to prune what it knows. -/
theorem run_prune (usable : c.guard.config.pruning.check = .ok ()) :
    prune.run.run c = (pruneAll c.guard.config.pruning.epochsToKeep
      c.guard.config.pruning.slotsPerEpoch .empty c.guard.registeredIds).run.run c := by
  unfold prune
  rw [run_theGuard_bind]
  show (conclude (c.guard.config.pruning.check.mapError _) >>= fun _ => _).run.run c = _
  rw [usable]
  rfl

/-! ## Calls that fail -/

/-- No call fails while the validators `done` are pruned, and one fails with `x` while the next
    is. -/
def FailsAt (c : Context) (faults : Store.FaultSchedule) (t : Table Bytes) (e p : UInt64)
    (done : List ValidatorId) (id : ValidatorId) (x : StoreFault) : Prop :=
  let first := (pruneAll e p .empty done).exchanges c faults t
  (∀ ex ∈ first, ex.fault = none) ∧ ∃ s c' u,
    (pruneAll e p .empty done).underFaults c faults t = (.ok s, c', u) ∧
      ∃ ex ∈ (pruneValidator id e p).exchanges c' (faults.drop first.length) u, ex.fault = some x

theorem underFaults_pruneAll (regular : t.Regular) (he : e ≠ 0) (hp : p ≠ 0)
    (free : ∀ id ∈ ids, c.guard.Frees id) (once : ids.Nodup)
    (unfailed : ∀ ex ∈ (pruneAll e p .empty ids).exchanges c faults t, ex.fault = none) :
    ∃ s c', c'.guard = c.guard ∧ (pruneAll e p .empty ids).underFaults c faults t =
      (.ok s, c', t.prunedAll e p ids) := by
  obtain ⟨c', guard, ends⟩ := onTable_pruneAll regular he hp free once .empty
  exact ⟨_, c', guard, (underFaults_of_unfailed unfailed).trans ends⟩

/-- A call that fails ends the prune with its fault. -/
theorem underFaults_of_failsAt (regular : t.Regular) (he : e ≠ 0) (hp : p ≠ 0)
    (free : ∀ other ∈ done ++ id :: rest, c.guard.Frees other) (once : (done ++ id :: rest).Nodup)
    (fails : FailsAt c faults t e p done id x) :
    ∃ c' u, c'.guard = c.guard ∧ (t.prunedAll e p done).Cut id e p u ∧
      (pruneAll e p .empty (done ++ id :: rest)).underFaults c faults t =
        (.error (.ledger (.store x)), c', u) := by
  obtain ⟨unfailed, s, c₁, u₁, first, ex, made, failed⟩ := fails
  obtain ⟨s', c', guard, first'⟩ := underFaults_pruneAll regular he hp
    (fun id member => free id (List.mem_append_left _ member))
    (once.sublist (List.sublist_append_left _ _)) unfailed
  -- No call has failed so far, so the ledger is as the prunes of `done` have left it.
  cases first.symm.trans first'
  let later := faults.drop ((pruneAll e p .empty done).exchanges c faults t).length
  let u := t.prunedAll e p done
  have error := (endsAtFault_pruneValidator id e p).underFaults made failed
  have always : Always True (pruneValidator id e p) c₁ u _ :=
    always_pruneValidator (regular.prunedAll e p done) he hp
  obtain ⟨guard', cut⟩ := always.underFaults later
  rw [error] at cut
  have ends : (pruneValidator id e p).underFaults c₁ later u =
      (.error (.ledger (.store x)), ((pruneValidator id e p).underFaults c₁ later u).2) :=
    Prod.ext error rfl
  refine ⟨_, _, guard'.trans guard, cut.2, ?_⟩
  rw [pruneAll_append, underFaults_bind_ok first]
  exact underFaults_bind_error ends

/-- If a call fails in a prune of validators, it fails while one of them is pruned. -/
theorem exists_failsAt (done rest : List ValidatorId) (regular : t.Regular) (he : e ≠ 0)
    (hp : p ≠ 0) (free : ∀ id ∈ done ++ rest, c.guard.Frees id) (once : (done ++ rest).Nodup)
    (unfailed : ∀ ex ∈ (pruneAll e p .empty done).exchanges c faults t, ex.fault = none) :
    (∀ ex ∈ (pruneAll e p .empty (done ++ rest)).exchanges c faults t, ex.fault = none) ∨
      ∃ done' id rest' x, done ++ rest = done' ++ id :: rest' ∧
        FailsAt c faults t e p done' id x := by
  -- The validators behind `done` are taken over into it while no call of theirs fails.
  induction rest generalizing done with
  | nil => exact .inl (by rwa [List.append_nil])
  | cons id rest ih =>
    obtain ⟨s, c', guard, ends⟩ := underFaults_pruneAll regular he hp
      (fun id member => free id (List.mem_append_left _ member))
      (once.sublist (List.sublist_append_left _ _)) unfailed
    let made := (pruneValidator id e p).exchanges c'
      (faults.drop ((pruneAll e p .empty done).exchanges c faults t).length) (t.prunedAll e p done)
    by_cases failed : ∃ ex ∈ made, ex.fault ≠ none
    · obtain ⟨ex, here, failed⟩ := failed
      obtain ⟨x, failed⟩ := Option.ne_none_iff_exists'.1 failed
      exact .inr ⟨done, id, rest, x, rfl, unfailed, s, c', _, ends, ex, here, failed⟩
    · have both : (pruneAll e p .empty (done ++ [id])).exchanges c faults t =
          (pruneAll e p .empty done).exchanges c faults t ++ made := by
        rw [pruneAll_append, exchanges_bind_ok ends]
        exact congrArg _ (exchanges_bind_pure _ s.record)
      rw [List.append_cons] at free once ⊢
      refine ih (done ++ [id]) free once fun ex here => ?_
      rw [both] at here
      rcases List.mem_append.1 here with before | here
      · exact unfailed ex before
      · exact Classical.not_not.1 fun other => failed ⟨ex, here, other⟩

/-! ## The prune of a guard -/

/-- What becomes of a prune of the validators `ids`, which the guard knows, if no call fails. -/
structure PrunesEach (c : Context) (t : Table Bytes) (e p : UInt64) (ids : List ValidatorId)
    (summary : PruneSummary) (outcomes : List PruneOutcome) (left : Table Bytes) : Prop where
  succeeds : ∃ c', c'.guard = c.guard ∧ prune.onTable c t = (.ok summary, c', left)
  inTurn : PrunesInTurn e p ids t outcomes left
  /-- In any other order the same would be left. -/
  anyOrder : ∀ order, order.Perm ids → ∃ outcomes', outcomes'.Perm outcomes ∧
    PrunesInTurn e p order t outcomes' left
  isolated : List.Forall₂ (PrunedAsAlone e p t left) ids outcomes
  /-- What belongs to no validator among these, registrations included, is as it was. -/
  others : ∀ place : Place, (∀ id ∈ ids, place.owner? ≠ some id) →
    left.get? place.bytes = t.get? place.bytes
  sums : summary.SumsUp outcomes

/-- What becomes of it if a call fails with `x` while `id` is pruned, after the validators
    `done`. -/
structure StopsAt (c : Context) (faults : Store.FaultSchedule) (t : Table Bytes) (e p : UInt64)
    (done : List ValidatorId) (id : ValidatorId) (x : StoreFault) : Prop where
  reply : (prune.underFaults c faults t).1 = .error (.ledger (.store x))
  guard : (prune.underFaults c faults t).2.1.guard = c.guard
  completed : ∀ id' ∈ done, ∃ outcome,
    PrunedAsAlone e p t (prune.underFaults c faults t).2.2 id' outcome
  untouched : ∀ place : Place, (∀ id' ∈ done, place.owner? ≠ some id') → place.owner? ≠ some id →
    (prune.underFaults c faults t).2.2.get? place.bytes = t.get? place.bytes

section

variable (runs : prune.run.run c = (pruneAll e p .empty ids).run.run c) (regular : t.Regular)
  (he : e ≠ 0) (hp : p ≠ 0) (free : ∀ id ∈ ids, c.guard.Frees id) (once : ids.Nodup)

include runs regular he hp free once

theorem prunesEach : ∃ summary outcomes left, PrunesEach c t e p ids summary outcomes left := by
  obtain ⟨c', guard, ends⟩ := onTable_pruneAll regular he hp free once .empty
  refine ⟨_, _, _, ⟨c', guard, ?_⟩, prunesInTurn regular he hp once, ?_, ?_, ?_,
    PruneSummary.sumsUp_foldl_record _⟩
  · unfold onTable at ends ⊢
    rwa [runs]
  · intro order perm
    have inTurn := prunesInTurn regular he hp (perm.nodup_iff.2 once)
    rw [Table.prunedAll_perm regular once perm] at inTurn
    exact ⟨_, perm.map _, inTurn⟩
  · rw [List.forall₂_map_right_iff, List.forall₂_same]
    exact fun id member => prunedAsAlone regular he hp once member
  · intro place other
    exact Table.get?_prunedAll_of_not_mem other

theorem stopsAt (split : ids = done ++ id :: rest) (fails : FailsAt c faults t e p done id x) :
    StopsAt c faults t e p done id x := by
  subst split
  obtain ⟨c', u, guard, cut, ends⟩ := underFaults_of_failsAt regular he hp free once fails
  have same : prune.underFaults c faults t =
      (.error (.ledger (.store x)), c', u) := by
    unfold underFaults at ends ⊢
    rwa [runs]
  have absent : id ∉ done := fun twice =>
    (List.nodup_append.1 once).2.2 id twice id List.mem_cons_self rfl
  have first : done.Nodup := once.sublist (List.sublist_append_left _ _)
  constructor
  · rw [same]
  · rw [same, guard]
  · intro id' member
    obtain ⟨alone, prunes, places⟩ := prunedAsAlone regular he hp first member
    refine ⟨_, alone, prunes, fun place owner => ?_⟩
    have other : place.owner? ≠ some id := by
      intro owner'
      obtain rfl : id' = id := Option.some.inj (owner.symm.trans owner')
      exact absent member
    rw [same, cut.get?_of_owner_ne other, places place owner]
  · intro place others other
    rw [same, cut.get?_of_owner_ne other, Table.get?_prunedAll_of_not_mem others]

end

/-- On a regular ledger a guard with usable settings, and no lock of a validator held that it
    knows, prunes each validator that it knows, as if that were alone.  If no call fails it is as on
    a store that never fails; otherwise the first call that fails is one of the prune of some
    validator, and there it stops. -/
theorem prune_each_alone (regular : t.Regular) (usable : c.guard.config.pruning.check = .ok ())
    (free : ∀ id ∈ c.guard.registeredIds, c.guard.Frees id) :
    let e := c.guard.config.pruning.epochsToKeep
    let p := c.guard.config.pruning.slotsPerEpoch
    let ids := c.guard.registeredIds
    (ids.Pairwise fun a b => a.number < b.number) ∧
      (∀ id, id ∈ ids ↔ ∃ key, (key, id) ∈ c.guard.registered) ∧
      (∃ summary outcomes left, PrunesEach c t e p ids summary outcomes left) ∧
      ∀ faults,
        ((∀ ex ∈ prune.exchanges c faults t, ex.fault = none) ∧
            prune.underFaults c faults t = prune.onTable c t ∨
          ∃ done id rest x, ids = done ++ id :: rest ∧ FailsAt c faults t e p done id x) ∧
        ∀ done id rest x, ids = done ++ id :: rest → FailsAt c faults t e p done id x →
          StopsAt c faults t e p done id x := by
  intro e p ids
  obtain ⟨he, hp⟩ := tunables_of_check usable
  have runs := run_prune usable
  have once : ids.Nodup := nodup_eraseDups _
  refine ⟨ascending_registeredIds _, fun id => mem_registeredIds,
    prunesEach runs regular he hp free once, fun faults => ⟨?_, ?_⟩⟩
  · refine (exists_failsAt [] ids regular he hp free once
      fun ex made => absurd made List.not_mem_nil).imp_left fun unfailed => ?_
    have unfailed : ∀ ex ∈ prune.exchanges c faults t, ex.fault = none := by
      unfold GuardWork.exchanges at unfailed ⊢
      rwa [runs]
    exact ⟨unfailed, underFaults_of_unfailed unfailed⟩
  · intro done id rest x split fails
    exact stopsAt runs regular he hp free once split fails

/-- A guard that keeps two slots and two epochs, and knows the last of three validators and the
    first. -/
def knowingTwoOfThree : Context :=
  ⟨⟨{ GuardConfig.standard with
      pruning := { PruningConfig.standard with epochsToKeep := 2, slotsPerEpoch := 1 } },
    [(⟨[3]⟩, ⟨3⟩), (⟨[1]⟩, ⟨1⟩)], []⟩, .zero⟩

/-- A ledger with two blocks of each of three validators. -/
def signedThrice : Table Bytes :=
  let enrolled := ((Table.empty.enroll ⟨[1]⟩ 1).enroll ⟨[2]⟩ 2).enroll ⟨[3]⟩ 3
  [⟨1⟩, ⟨2⟩, ⟨3⟩].foldl (fun t id => (t.recordBlock id 4 ⟨[5]⟩).recordBlock id 7 ⟨[4]⟩) enrolled

/-- The prune of the last validator has raised its floor when the disk is full. -/
theorem prune_each_alone_diskFull :
    signedThrice.Regular ∧ knowingTwoOfThree.guard.config.pruning.check = .ok () ∧
    (∀ id ∈ knowingTwoOfThree.guard.registeredIds, knowingTwoOfThree.guard.Frees id) ∧
    (∃ outcomes left, PrunesEach knowingTwoOfThree signedThrice 2 1 [⟨1⟩, ⟨3⟩] ⟨2, 2, 0⟩ outcomes
      left) ∧
    StopsAt knowingTwoOfThree (List.replicate 20 none ++ [some (.io "full")]) signedThrice 2 1
      [⟨1⟩] ⟨3⟩ (.io "full") := by
  have enrolled := ((Table.WellFormed.empty.enroll ⟨[1]⟩ 1).enroll ⟨[2]⟩ 2).enroll ⟨[3]⟩ 3
  have signed : ∀ (t : Table Bytes) (id : ValidatorId), t.WellFormed → t.isRegistered id →
      ((t.recordBlock id 4 ⟨[5]⟩).recordBlock id 7 ⟨[4]⟩).WellFormed := by
    intro t id wf registered
    have still : (t.recordBlock id 4 ⟨[5]⟩).isRegistered id := by
      rwa [Table.isRegistered, Table.registry_recordBlock]
    exact (wf.recordBlock registered 4 ⟨[5]⟩).recordBlock still 7 ⟨[4]⟩
  have first := signed _ ⟨1⟩ enrolled (by decide +kernel)
  have second := signed _ ⟨2⟩ first (by decide +kernel)
  have wf : signedThrice.WellFormed := signed _ ⟨3⟩ second (by decide +kernel)
  have usable : knowingTwoOfThree.guard.config.pruning.check = .ok () := rfl
  have free : ∀ id ∈ knowingTwoOfThree.guard.registeredIds, knowingTwoOfThree.guard.Frees id :=
    fun _ _ _ held => absurd held List.not_mem_nil
  have ids : knowingTwoOfThree.guard.registeredIds = [⟨1⟩, ⟨3⟩] := by
    apply eq_of_ascending (ascending_registeredIds _) (by decide)
    intro id
    rw [mem_registeredIds]
    simp [knowingTwoOfThree, or_comm, exists_or]
  obtain ⟨-, -, ⟨summary, outcomes, left, each⟩, stops⟩ :=
    prune_each_alone wf.regular usable free
  rw [ids] at each stops
  refine ⟨wf.regular, usable, free, ?_, (stops _).2 [⟨1⟩] ⟨3⟩ [] _ rfl ?_⟩
  · obtain ⟨c', -, done⟩ := each.succeeds
    have same : prune.onTable knowingTwoOfThree signedThrice =
        (pruneAll 2 1 .empty [⟨1⟩, ⟨3⟩]).onTable knowingTwoOfThree signedThrice := by
      unfold onTable
      rw [run_prune usable, ids]
      rfl
    have reported : ((pruneAll 2 1 .empty [⟨1⟩, ⟨3⟩]).onTable knowingTwoOfThree signedThrice).1 =
        .ok ⟨2, 2, 0⟩ := by
      decide +kernel
    rw [← same, done] at reported
    obtain rfl := Except.ok.inj reported
    exact ⟨outcomes, left, each⟩
  · have first : ((pruneAll 2 1 .empty [⟨1⟩]).underFaults knowingTwoOfThree
        (List.replicate 20 none ++ [some (.io "full")]) signedThrice).1 = .ok ⟨1, 1, 0⟩ := by
      decide +kernel
    exact ⟨by decide +kernel, _, _, _, Prod.ext first rfl, by decide +kernel⟩

end SlashingGuard.Guard
