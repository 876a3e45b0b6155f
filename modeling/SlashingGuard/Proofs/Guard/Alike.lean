import Mathlib.Data.List.Nodup
import SlashingGuard.Proofs.Guard.Operation
import SlashingGuard.Proofs.Ledger.Listing
import SlashingGuard.Proofs.Ledger.Numbering

/-! # Guards that cannot be told apart

    A guard has little of its own beside the ledger: its settings, the keys
    that it knows with their numbers, and the locks that are held.  Two guards
    that agree in these are alike, in whatever order they came to know the
    keys and whatever has been counted.

    Alike guards make the same calls on the store and give the same replies,
    call by call, and stay alike.  So nothing else that a guard may keep in
    memory has any influence. -/

namespace SlashingGuard

/-! ## Programs that make the same calls -/

namespace Program

variable {ι : Interface} {α α' β β' : Type}

/-- Two programs make the same calls whatever is replied, and end with values that are related. -/
inductive Matches (R : α → α' → Prop) : Program ι α → Program ι α' → Prop where
  | done {a : α} {a' : α'} (related : R a a') : Matches R (.done a) (.done a')
  | call (request : ι.Call) {next : ι.Reply request → Program ι α}
      {next' : ι.Reply request → Program ι α'} (rest : ∀ reply, Matches R (next reply) (next' reply)) :
      Matches R (.call request next) (.call request next')

variable {R : α → α' → Prop}

theorem matches_refl {R : α → α → Prop} (related : ∀ a, R a a) (p : Program ι α) :
    Matches R p p := by
  induction p with
  | done a => exact .done (related a)
  | call request next ih => exact .call request ih

theorem Matches.bind {S : β → β' → Prop} {p : Program ι α} {p' : Program ι α'}
    {f : α → Program ι β} {f' : α' → Program ι β'} (h : Matches R p p')
    (hf : ∀ a a', R a a' → Matches S (f a) (f' a')) : Matches S (p.bind f) (p'.bind f') := by
  induction h with
  | done related => exact hf _ _ related
  | call request _ ih => exact .call request ih

/-- On one table and under one schedule of faults such programs leave the same table. -/
theorem Matches.runFaulty {p : StoreProgram α} {p' : StoreProgram α'} (h : Matches R p p')
    (faults : Store.FaultSchedule) (t : Table Bytes) :
    R (p.runFaulty faults t).1 (p'.runFaulty faults t).1 ∧
      (p.runFaulty faults t).2 = (p'.runFaulty faults t).2 := by
  induction h generalizing faults t with
  | done related => exact ⟨related, rfl⟩
  | call request _ ih =>
    match faults with
    | [] => exact ih _ [] (t.after request)
    | none :: rest => exact ih _ rest (t.after request)
    | some fault :: rest => exact ih _ rest t

end Program

/-! ## Alike guards -/

namespace Guard

/-- Each key that the guard knows stands once among those that it knows. -/
def Distinct (g : Guard) : Prop := (g.registered.map Prod.fst).Nodup

/-- The guards have the same settings and locks, and know the same keys by the same numbers. -/
structure Alike (g g' : Guard) : Prop where
  config : g'.config = g.config
  held : g'.held = g.held
  knows : ∀ key, g'.validatorId? key = g.validatorId? key
  distinct : g.Distinct
  distinct' : g'.Distinct

theorem distinct_know {g : Guard} (h : g.Distinct) (key : PublicKey) (id : ValidatorId) :
    (g.know key id).Distinct := by
  have others : ((g.registered.filter fun entry => entry.1 ≠ key).map Prod.fst).Nodup :=
    h.sublist (List.filter_sublist.map Prod.fst)
  have absent : key ∉ (g.registered.filter fun entry => entry.1 ≠ key).map Prod.fst := by
    simp
  exact List.nodup_cons.2 ⟨absent, others⟩

theorem distinct_knowAll {g : Guard} (h : g.Distinct)
    (numbered : List (PublicKey × ValidatorId)) : (g.knowAll numbered).Distinct := by
  induction numbered generalizing g with
  | nil => exact h
  | cons entry rest ih => exact ih (distinct_know h entry.1 entry.2)

/-- Where each key stands once, looking a key up finds its entry. -/
theorem mem_registered {g : Guard} (h : g.Distinct) {key : PublicKey} {id : ValidatorId} :
    (key, id) ∈ g.registered ↔ g.validatorId? key = some id := by
  obtain ⟨config, registered, held⟩ := g
  simp only [Distinct] at h
  simp only [validatorId?]
  induction registered with
  | nil => simp
  | cons entry rest ih =>
    obtain ⟨k, i⟩ := entry
    obtain ⟨absent, tail⟩ := List.nodup_cons.1 h
    rw [List.mem_cons, List.lookup_cons]
    by_cases same : key = k
    · -- The entry at the head hides no other, since its key stands nowhere else.
      subst same
      have gone : ∀ id, (key, id) ∉ rest := by
        intro id member
        exact absent (List.mem_map.2 ⟨(key, id), member, rfl⟩)
      simp [gone, eq_comm]
    · have ne : (key == k) = false := by simpa using same
      rw [ne, ih tail]
      simp [same]

theorem mem_registeredIds {g : Guard} {id : ValidatorId} :
    id ∈ g.registeredIds ↔ ∃ key, (key, id) ∈ g.registered := by
  simp [registeredIds]

theorem ascending_registeredIds (g : Guard) :
    g.registeredIds.Pairwise fun a b => a.number < b.number := by
  let le (a b : ValidatorId) : Bool := a.number ≤ b.number
  have trans : ∀ a b c : ValidatorId, le a b → le b c → le a c := by
    intro a b c ab bc
    simp only [le, decide_eq_true_eq] at ab bc ⊢
    exact UInt64.le_trans ab bc
  have total : ∀ a b : ValidatorId, le a b || le b a := by
    intro a b
    simp only [le, Bool.or_eq_true, decide_eq_true_eq]
    exact UInt64.le_total a.number b.number
  have sorted := List.pairwise_mergeSort trans total (g.registered.map Prod.snd)
  have ordered : g.registeredIds.Pairwise fun a b => le a b := sorted.sublist (eraseDups_sublist _)
  -- No number is listed twice, so none is followed by itself.
  have once : g.registeredIds.Nodup := nodup_eraseDups _
  refine (ordered.and once).imp fun {a b} both => ?_
  obtain ⟨ab, ne⟩ := both
  simp only [le, decide_eq_true_eq] at ab
  exact UInt64.lt_of_le_of_ne ab fun same => ne (ValidatorId.number_inj.1 same)

/-- Alike guards know the same numbers. -/
theorem Alike.registeredIds {g g' : Guard} (h : g.Alike g') :
    g'.registeredIds = g.registeredIds := by
  apply eq_of_ascending (ascending_registeredIds g') (ascending_registeredIds g)
  intro id
  rw [mem_registeredIds, mem_registeredIds]
  apply exists_congr
  intro key
  rw [mem_registered h.distinct', mem_registered h.distinct, h.knows]

theorem Alike.know {g g' : Guard} (h : g.Alike g') (key : PublicKey) (id : ValidatorId) :
    (g.know key id).Alike (g'.know key id) where
  config := h.config
  held := h.held
  knows key' := by rw [validatorId?_know, validatorId?_know, h.knows]
  distinct := distinct_know h.distinct key id
  distinct' := distinct_know h.distinct' key id

theorem Alike.knowAll {g g' : Guard} (h : g.Alike g')
    (numbered : List (PublicKey × ValidatorId)) :
    (g.knowAll numbered).Alike (g'.knowAll numbered) := by
  induction numbered generalizing g g' with
  | nil => exact h
  | cons entry rest ih => exact ih (h.know entry.1 entry.2)

end Guard

/-! ## Work of alike guards -/

namespace GuardWork

variable {α β : Type}

/-- Done by alike guards, the two works make the same calls and end alike; what is counted does
    not matter. -/
def Alike (w w' : GuardWork α) : Prop :=
  ∀ c c' : Context, c.guard.Alike c'.guard →
    Program.Matches (fun r r' => r'.1 = r.1 ∧ r.2.guard.Alike r'.2.guard) (w.run.run c) (w'.run.run c')

theorem alike_conclude (r : Except GuardError α) : Alike (conclude r) (conclude r) :=
  fun _ _ guards => .done ⟨rfl, guards⟩

theorem alike_pure (a : α) : Alike (pure a) (pure a) := alike_conclude (.ok a)

theorem alike_throw (e : GuardError) : Alike (throw e : GuardWork α) (throw e) :=
  alike_conclude (.error e)

theorem Alike.bind {w w' : GuardWork α} {k k' : α → GuardWork β} (h : Alike w w')
    (hk : ∀ a, Alike (k a) (k' a)) : Alike (w >>= k) (w' >>= k') := by
  intro c c' guards
  show Program.Matches _ (Program.bind (w.run.run c) _) (Program.bind (w'.run.run c') _)
  apply (h c c' guards).bind
  rintro ⟨r, d⟩ ⟨r', d'⟩ ⟨same, guards'⟩
  obtain rfl : r' = r := same
  cases r' with
  | ok a => exact hk a d d' guards'
  | error e => exact .done ⟨rfl, guards'⟩

theorem alike_ledger (work : LedgerWork α) : Alike (ledger work) (ledger work) := by
  intro c c' guards
  show Program.Matches _ (Program.bind work.run _) (Program.bind work.run _)
  apply (Program.matches_refl (R := Eq) (fun _ => rfl) work.run).bind
  rintro r _ rfl
  exact .done ⟨rfl, guards⟩

/-- What is done next may depend on the guard, as long as alike guards do the same. -/
theorem alike_theGuard_bind {k k' : Guard → GuardWork β}
    (hk : ∀ g g', g.Alike g' → Alike (k g) (k' g')) : Alike (theGuard >>= k) (theGuard >>= k') :=
  fun c c' guards => hk c.guard c'.guard guards c c' guards

theorem alike_modifyGuard {f : Guard → Guard} (hf : ∀ g g', g.Alike g' → (f g).Alike (f g')) :
    Alike (modifyGuard f) (modifyGuard f) :=
  fun _ _ guards => .done ⟨rfl, hf _ _ guards⟩

theorem alike_modifyMetrics (f : Metrics → Metrics) :
    Alike (modifyMetrics f) (modifyMetrics f) :=
  fun _ _ guards => .done ⟨rfl, guards⟩

/-- Work whose errors are values. -/
theorem Alike.lift {w w' : GuardWork α} (h : Alike w w') :
    Alike (ExceptT.lift w.run) (ExceptT.lift w'.run) := by
  intro c c' guards
  show Program.Matches _ (Program.bind (w.run.run c) _) (Program.bind (w'.run.run c') _)
  apply (h c c' guards).bind
  rintro ⟨r, d⟩ ⟨r', d'⟩ ⟨same, guards'⟩
  obtain rfl : r' = r := same
  exact .done ⟨rfl, guards'⟩

theorem alike_takeLock (lock : LockName) : Alike (takeLock lock) (takeLock lock) := by
  refine alike_theGuard_bind fun g g' guards => ?_
  rw [guards.held, guards.config]
  split
  · exact alike_throw _
  · exact alike_modifyGuard fun _ _ guards =>
      { guards with held := congrArg (lock :: ·) guards.held }

theorem alike_releaseLock (lock : LockName) : Alike (releaseLock lock) (releaseLock lock) :=
  alike_modifyGuard fun _ _ guards =>
    { guards with held := congrArg (List.erase · lock) guards.held }

theorem Alike.withLock {w w' : GuardWork α} (h : Alike w w') (lock : LockName) :
    Alike (withLock lock w) (withLock lock w') :=
  (alike_takeLock lock).bind fun _ => h.lift.bind fun result =>
    (alike_releaseLock lock).bind fun _ => alike_conclude result

end GuardWork

/-! ## Requests to alike guards -/

namespace Guard

open GuardWork

theorem alike_register (keys : List PublicKey) : GuardWork.Alike (register keys) (register keys) := by
  unfold register
  split
  · exact alike_throw _
  · exact (alike_ledger _).bind fun ids => alike_modifyGuard fun g g' guards =>
      guards.knowAll (keys.zip ids)

theorem alike_resolve (key : PublicKey) : GuardWork.Alike (resolve key) (resolve key) := by
  refine alike_theGuard_bind fun g g' guards => ?_
  rw [guards.knows key]
  split
  · exact alike_pure _
  · exact alike_throw _

theorem alike_answer (kind : DutyKind) (key : PublicKey)
    (decide : ValidatorId → LedgerWork Decision) :
    GuardWork.Alike (answer kind key decide) (answer kind key decide) := by
  refine alike_theGuard_bind fun g g' guards => ?_
  rw [guards.config]
  split
  · refine (alike_resolve key).bind fun id => ?_
    refine ((alike_ledger (decide id)).withLock (id, kind)).bind fun decision => ?_
    exact (alike_modifyMetrics _).bind fun _ => alike_pure decision
  · exact alike_pure _

theorem alike_pruneHalf (lock : LockName) (work : LedgerWork (Option UInt64 × Nat)) :
    GuardWork.Alike (pruneHalf lock work) (pruneHalf lock work) :=
  ((alike_ledger work).bind fun result => (alike_modifyMetrics _).bind fun _ =>
    alike_pure (result.1, result.2)).withLock lock

theorem alike_pruneValidator (id : ValidatorId) (epochsToKeep slotsPerEpoch : UInt64) :
    GuardWork.Alike (pruneValidator id epochsToKeep slotsPerEpoch)
      (pruneValidator id epochsToKeep slotsPerEpoch) :=
  (alike_conclude _).bind fun _ => (alike_pruneHalf _ _).bind fun _ =>
    (alike_pruneHalf _ _).bind fun _ => alike_pure _

theorem alike_pruneAll (epochsToKeep slotsPerEpoch : UInt64) (summary : PruneSummary)
    (ids : List ValidatorId) :
    GuardWork.Alike (pruneAll epochsToKeep slotsPerEpoch summary ids)
      (pruneAll epochsToKeep slotsPerEpoch summary ids) := by
  induction ids generalizing summary with
  | nil => exact alike_pure summary
  | cons id rest ih => exact (alike_pruneValidator id _ _).bind fun outcome => ih _

theorem alike_prune : GuardWork.Alike prune prune := by
  refine alike_theGuard_bind fun g g' guards => ?_
  rw [guards.config, guards.registeredIds]
  exact (alike_conclude _).bind fun _ => alike_pruneAll _ _ _ _

end Guard

/-! ## Exports by alike guards -/

namespace ExportWork

variable {α β : Type}

/-- Done by alike guards, the two works make the same calls and write the same. -/
def Alike (w w' : ExportWork α) : Prop :=
  ∀ (s : Sink) (c c' : Context), c.guard.Alike c'.guard →
    Program.Matches (fun r r' => r'.1 = r.1 ∧ r.2.guard.Alike r'.2.guard)
      ((w.run.run s).run c) ((w'.run.run s).run c')

theorem Alike.bind {w w' : ExportWork α} {k k' : α → ExportWork β} (h : Alike w w')
    (hk : ∀ a, Alike (k a) (k' a)) : Alike (w >>= k) (w' >>= k') := by
  intro s c c' guards
  show Program.Matches _ (Program.bind ((w.run.run s).run c) _)
    (Program.bind ((w'.run.run s).run c') _)
  apply (h s c c' guards).bind
  rintro ⟨⟨r, s₁⟩, d⟩ ⟨⟨r', s₂⟩, d'⟩ ⟨same, guards'⟩
  obtain ⟨rfl, rfl⟩ : r' = r ∧ s₂ = s₁ := Prod.mk.inj same
  cases r' with
  | ok a => exact hk a s₂ d d' guards'
  | error e => exact .done ⟨rfl, guards'⟩

theorem alike_ofGuard {w w' : GuardWork α} (h : GuardWork.Alike w w') :
    Alike (ofGuard w) (ofGuard w') := by
  intro s c c' guards
  show Program.Matches _ (Program.bind (w.run.run c) _) (Program.bind (w'.run.run c') _)
  apply (h c c' guards).bind
  rintro ⟨r, d⟩ ⟨r', d'⟩ ⟨same, guards'⟩
  obtain rfl : r' = r := same
  exact .done ⟨rfl, guards'⟩

theorem alike_theGuard_bind {k k' : Guard → ExportWork β}
    (hk : ∀ g g', g.Alike g' → Alike (k g) (k' g')) :
    Alike (ofGuard GuardWork.theGuard >>= k) (ofGuard GuardWork.theGuard >>= k') :=
  fun s c c' guards => hk c.guard c'.guard guards s c c' guards

theorem alike_pure (a : α) : Alike (pure a) (pure a) := fun _ _ _ guards => .done ⟨rfl, guards⟩

theorem alike_emit (tokens : List String) : Alike (emit tokens) (emit tokens) :=
  fun _ _ _ guards => .done ⟨rfl, guards⟩

theorem alike_flush : Alike flush flush := by
  rintro ⟨accepted, room, _ | fault⟩ c c' guards <;> exact .done ⟨rfl, guards⟩

end ExportWork

namespace Interchange

open ExportWork

theorem alike_emitHistories (first : Bool) (validators : List (ValidatorId × PublicKey)) :
    ExportWork.Alike (emitHistories first validators) (emitHistories first validators) := by
  induction validators generalizing first with
  | nil => exact alike_pure ()
  | cons validator rest ih =>
    have history : GuardWork.Alike (loadHistory validator.1 validator.2) _ :=
      ((GuardWork.alike_ledger _).withLock _).withLock _
    exact (alike_ofGuard history).bind fun _ => (alike_emit _).bind fun _ => ih false

theorem alike_exportAll : ExportWork.Alike exportAll exportAll := by
  refine (alike_ofGuard (GuardWork.alike_ledger _)).bind fun validators => ?_
  -- Of the guard only the root of the chain is written.
  refine alike_theGuard_bind fun g g' guards => ?_
  rw [guards.config]
  exact (alike_emit _).bind fun _ => (alike_emitHistories true validators).bind fun _ =>
    (alike_emit _).bind fun _ => alike_flush

end Interchange

/-- Asked for the same, alike guards make the same calls, reply the same and stay alike. -/
theorem Operation.alike_perform (op : Operation) : GuardWork.Alike op.perform op.perform := by
  cases op with
  | register keys => exact (Guard.alike_register keys).bind fun _ => GuardWork.alike_pure _
  | signBlock key slot root => exact (Guard.alike_answer _ _ _).bind fun _ => GuardWork.alike_pure _
  | signAttestation key vote root =>
    exact (Guard.alike_answer _ _ _).bind fun _ => GuardWork.alike_pure _
  | prune => exact Guard.alike_prune.bind fun _ => GuardWork.alike_pure _
  | pruneValidator id epochsToKeep slotsPerEpoch =>
    exact (Guard.alike_pruneValidator _ _ _).bind fun _ => GuardWork.alike_pure _
  | exportTo sink =>
    have written : GuardWork.Alike (ExceptT.lift (Interchange.exportAll.run.run sink))
        (ExceptT.lift (Interchange.exportAll.run.run sink)) := by
      intro c c' guards
      show Program.Matches _ (Program.bind ((Interchange.exportAll.run.run sink).run c) _)
        (Program.bind ((Interchange.exportAll.run.run sink).run c') _)
      apply (Interchange.alike_exportAll sink c c' guards).bind
      rintro ⟨r, d⟩ ⟨r', d'⟩ ⟨same, guards'⟩
      obtain rfl : r' = r := same
      exact .done ⟨rfl, guards'⟩
    exact written.bind fun result => GuardWork.alike_conclude _
  | importDocument => exact (GuardWork.alike_throw _).bind fun _ => GuardWork.alike_pure _

end SlashingGuard
