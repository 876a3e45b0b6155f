import SlashingGuard.Guard.Basic
import SlashingGuard.Proofs.Ledger.Transaction

/-! # Work of a guard

    The condition on outcomes is carried over to work of a guard, which has a
    context beside the ledger.  A lock that is free is taken for the time of
    the work under it and leaves no trace; a lock that is held turns the work
    away before it touches anything. -/

namespace SlashingGuard

namespace Guard

/-- Neither lock of a validator is held. -/
def Frees (g : Guard) (id : ValidatorId) : Prop :=
  ∀ kind, (id, kind) ∉ g.held

theorem frees_of_idle {g : Guard} (idle : g.held = []) (id : ValidatorId) : g.Frees id := by
  intro kind held
  rw [idle] at held
  contradiction

end Guard

namespace GuardWork

variable {α β : Type} {faulty : Prop} {c : Context} {t : Table Bytes}

/-- However the work ends, its result, the context and the table left are as `Q` says. -/
def Always (faulty : Prop) (w : GuardWork α) (c : Context) (t : Table Bytes)
    (Q : Except GuardError α → Context → Table Bytes → Prop) : Prop :=
  (w.run.run c).Always faulty t fun r t' => Q r.1 r.2 t'

/-- How work of a guard ends on a ledger whose store never fails, with the context and the ledger
    left. -/
def onTable (w : GuardWork α) (c : Context) (t : Table Bytes) :
    Except GuardError α × Context × Table Bytes :=
  let ((r, c'), t') := (w.run.run c).run Table.serve t
  (r, c', t')

theorem Always.onTable {w : GuardWork α} {Q : Except GuardError α → Context → Table Bytes → Prop}
    (h : Always faulty w c t Q) : Q (w.onTable c t).1 (w.onTable c t).2.1 (w.onTable c t).2.2 :=
  h.run_serve

/-- What is known of the end but for the counters. -/
theorem Always.onTable_eq {w : GuardWork α} {r : Except GuardError α} {g : Guard}
    {t' : Table Bytes}
    (h : Always faulty w c t fun r' c' t'' => c'.guard = g ∧ r' = r ∧ t'' = t') :
    ∃ c', c'.guard = g ∧ w.onTable c t = (r, c', t') := by
  have ends := h.onTable
  generalize w.onTable c t = result at ends
  obtain ⟨r', c', t''⟩ := result
  obtain ⟨guard, rfl, rfl⟩ := ends
  exact ⟨c', guard, rfl⟩

theorem Always.mono {w : GuardWork α} {Q Q' : Except GuardError α → Context → Table Bytes → Prop}
    (h : Always faulty w c t Q) (imp : ∀ r c' t', Q r c' t' → Q' r c' t') :
    Always faulty w c t Q' :=
  Program.Always.mono h fun r t' => imp r.1 r.2 t'

theorem always_pure {a : α} {Q : Except GuardError α → Context → Table Bytes → Prop} :
    Always faulty (pure a) c t Q ↔ Q (.ok a) c t := Iff.rfl

theorem always_throw {e : GuardError} {Q : Except GuardError α → Context → Table Bytes → Prop} :
    Always faulty (throw e) c t Q ↔ Q (.error e) c t := Iff.rfl

theorem always_conclude {r : Except GuardError α}
    {Q : Except GuardError α → Context → Table Bytes → Prop} :
    Always faulty (conclude r) c t Q ↔ Q r c t := Iff.rfl

theorem always_bind {w : GuardWork α} {k : α → GuardWork β}
    {Q : Except GuardError β → Context → Table Bytes → Prop} :
    Always faulty (w >>= k) c t Q ↔ Always faulty w c t fun r c' t' =>
      match r with
      | .ok a => Always faulty (k a) c' t' Q
      | .error e => Q (.error e) c' t' := by
  show Program.Always faulty (Program.bind (w.run.run c) _) t _ ↔ _
  rw [Program.always_bind]
  constructor <;> intro h <;> refine Program.Always.mono h ?_ <;> rintro ⟨r, c'⟩ t' post <;>
    cases r <;> exact post

/-- Work on the ledger leaves the context. -/
theorem always_ledger {w : LedgerWork α}
    {Q : Except GuardError α → Context → Table Bytes → Prop} :
    Always faulty (ledger w) c t Q ↔
      w.run.Always faulty t fun r t' => Q (r.mapError GuardError.ledger) c t' := by
  show Program.Always faulty (Program.bind w.run _) t _ ↔ _
  rw [Program.always_bind]
  rfl

theorem always_theGuard_bind {k : Guard → GuardWork β}
    {Q : Except GuardError β → Context → Table Bytes → Prop} :
    Always faulty (theGuard >>= k) c t Q ↔ Always faulty (k c.guard) c t Q := Iff.rfl

theorem always_modifyGuard {f : Guard → Guard}
    {Q : Except GuardError Unit → Context → Table Bytes → Prop} :
    Always faulty (modifyGuard f) c t Q ↔ Q (.ok ()) { c with guard := f c.guard } t := Iff.rfl

theorem always_modifyMetrics {f : Metrics → Metrics}
    {Q : Except GuardError Unit → Context → Table Bytes → Prop} :
    Always faulty (modifyMetrics f) c t Q ↔ Q (.ok ()) { c with metrics := f c.metrics } t :=
  Iff.rfl

/-! ## Locks -/

/-- The context with a lock held. -/
def holding (c : Context) (lock : LockName) : Context :=
  { c with guard := { c.guard with held := lock :: c.guard.held } }

/-- The context with a lock given back. -/
def freed (c : Context) (lock : LockName) : Context :=
  { c with guard := { c.guard with held := c.guard.held.erase lock } }

@[simp] theorem freed_holding (c : Context) (lock : LockName) :
    freed (holding c lock) lock = c := by
  simp [freed, holding]

@[simp] theorem freed_holding_metrics (c : Context) (lock : LockName) (metrics : Metrics) :
    freed { holding c lock with metrics := metrics } lock = { c with metrics := metrics } := by
  simp [freed, holding]

theorem always_takeLock {lock : LockName} (free : lock ∉ c.guard.held)
    {Q : Except GuardError Unit → Context → Table Bytes → Prop}
    (h : Q (.ok ()) (holding c lock) t) :
    Always faulty (takeLock lock) c t Q := by
  unfold takeLock
  rw [always_theGuard_bind, if_neg (by simpa using free)]
  exact h

/-- Work that cannot fail, an error being a value of it like any other. -/
theorem always_lift {w : StateT Context (Program Store.calls) β}
    {Q : Except GuardError β → Context → Table Bytes → Prop} :
    Always faulty (ExceptT.lift w) c t Q ↔
      (w.run c).Always faulty t fun r t' => Q (.ok r.1) r.2 t' := by
  show Program.Always faulty (Program.bind (w.run c) _) t _ ↔ _
  rw [Program.always_bind]
  rfl

/-- Work under a free lock runs with the lock held, which is given back however it ends. -/
theorem always_withLock {lock : LockName} (free : lock ∉ c.guard.held) {w : GuardWork α}
    {Q : Except GuardError α → Context → Table Bytes → Prop}
    (h : Always faulty w (holding c lock) t fun r c' t' => Q r (freed c' lock) t') :
    Always faulty (withLock lock w) c t Q := by
  unfold withLock
  refine always_bind.2 (always_takeLock free (always_bind.2 (always_lift.2 ?_)))
  exact h.mono fun r c' t' post => post

/-- Work under a lock that is held does nothing and fails. -/
theorem always_withLock_held {lock : LockName} (held : lock ∈ c.guard.held) {w : GuardWork α}
    {Q : Except GuardError α → Context → Table Bytes → Prop}
    (h : Q (.error (.ledger (.lockTimeout lock.1 lock.2 c.guard.config.lockTimeout))) c t) :
    Always faulty (withLock lock w) c t Q := by
  unfold withLock
  refine always_bind.2 ?_
  unfold takeLock
  rw [always_theGuard_bind, if_pos (by simpa using held)]
  exact h

/-- Work on the ledger under a free lock leaves the context. -/
theorem always_withLock_ledger {lock : LockName} (free : lock ∉ c.guard.held) {w : LedgerWork α}
    {Q : Except GuardError α → Context → Table Bytes → Prop}
    (h : w.run.Always faulty t fun r t' => Q (r.mapError GuardError.ledger) c t') :
    Always faulty (withLock lock (ledger w)) c t Q := by
  refine always_withLock free (always_ledger.2 ?_)
  simpa only [freed_holding] using h

end GuardWork

end SlashingGuard
