import SlashingGuard.Ledger.Transaction
import SlashingGuard.Proofs.Store.Fault
import SlashingGuard.Proofs.Store.Table

/-! # Transactions read as if committed

    A transaction over a table sees the table with its pending writes made.
    So every query is a function of the table it sees, and every step of a
    transaction is described by the table seen before and the table seen
    after: the pending writes themselves do not occur.  A commit leaves the
    table that was seen last; a transaction that is dropped, or whose commit
    fails, leaves the table it started from. -/

namespace SlashingGuard

variable {α β : Type}

/-! ## The table seen -/

/-- The table that a transaction with these writes pending sees. -/
def Table.overlaid (t : Table Bytes) (p : Pending) : Table Bytes := t.applyBatch p.batch

namespace Pending

/-- What a pending write makes of the lookup of its key. -/
theorem get?_apply_change (t : Table Bytes) (entry : Entry (Option Bytes)) (key : Bytes) :
    (Change.apply t (change entry)).get? key = if entry.1 = key then entry.2 else t.get? key := by
  obtain ⟨k, _ | value⟩ := entry
  · exact Table.get?_erase t k key
  · exact Table.get?_insert t k value key

end Pending

namespace Table

theorem get?_applyBatch_change {entries : List (Entry (Option Bytes))}
    (h : Entries.Ascending entries) (t : Table Bytes) (key : Bytes) :
    (t.applyBatch (entries.map Pending.change)).get? key =
      (Entries.find? key entries).getD (t.get? key) := by
  rw [applyBatch, List.foldl_map, get?_foldl id Pending.get?_apply_change h]
  cases Entries.find? key entries <;> rfl

/-- A pending write hides what is in the table. -/
theorem get?_overlaid (t : Table Bytes) (p : Pending) (key : Bytes) :
    (t.overlaid p).get? key = (p.get? key).getD (t.get? key) :=
  get?_applyBatch_change p.ascending t key

@[simp] theorem overlaid_insert_some (t : Table Bytes) (p : Pending) (key value : Bytes) :
    t.overlaid (p.insert key (some value)) = (t.overlaid p).insert key value := by
  refine ext_get? fun key' => ?_
  rw [get?_overlaid, get?_insert, get?_insert, get?_overlaid]
  split <;> rfl

@[simp] theorem overlaid_insert_none (t : Table Bytes) (p : Pending) (key : Bytes) :
    t.overlaid (p.insert key none) = (t.overlaid p).erase key := by
  refine ext_get? fun key' => ?_
  rw [get?_overlaid, get?_insert, get?_erase, get?_overlaid]
  split <;> rfl

/-- Committed entries merged with the pending writes are a scan of the table seen. -/
theorem merge_scan (t : Table Bytes) (p : Pending) (scope : Bytes) :
    p.merge scope (t.scan scope) = (t.overlaid p).scan scope := by
  have pending : (p.batch.filter fun c => scope.isPrefixOf c.key) =
      (p.entries.filter fun entry => scope.isPrefixOf entry.1).map Pending.change := by
    rw [Pending.batch, List.filter_map]
    congr 1
    refine List.filter_congr fun entry _ => ?_
    obtain ⟨key, _ | value⟩ := entry <;> rfl
  -- Both sides are ascending, so they are compared as tables, key by key.
  let seen : Table Bytes := ⟨(t.overlaid p).scan scope, ascending_scan _ _⟩
  suffices h : (ofEntries (t.scan scope)).applyBatch
      (p.batch.filter fun c => scope.isPrefixOf c.key) = seen from congrArg Table.entries h
  refine ext_get? fun key => ?_
  rw [pending, get?_applyBatch_change (p.ascending.filter _),
    Entries.find?_filter fun k => scope.isPrefixOf k,
    ofEntries_eq_of_ascending (ascending_scan t scope)]
  show (if _ then p.get? key else none).getD (Entries.find? key (t.scan scope)) =
    Entries.find? key ((t.overlaid p).scan scope)
  rw [find?_scan, find?_scan, get?_overlaid]
  split <;> rfl

end Table

/-! ## Queries -/

namespace Query

/-- Where a query sees the table `v` it ends with `r` or, where calls may fail, with the fault of
    a call.  It writes nothing. -/
def Yields (q : Query α) (v : Table Bytes) (r : Except LedgerError α) : Prop :=
  ∀ (faulty : Prop) (t : Table Bytes) (p : Pending)
    (Q : Except LedgerError α → Table Bytes → Prop), t.overlaid p = v →
    Q r t → (faulty → ∀ fault, Q (.error (.store fault)) t) → (q p).run.Always faulty t Q

variable {v : Table Bytes}

theorem yields_ofExcept (r : Except LedgerError α) : (ofExcept r).Yields v r := by
  intro faulty t p Q _ h _
  cases r <;> exact h

theorem yields_pure (a : α) : Yields (pure a) v (.ok a) :=
  fun _ _ _ _ _ h _ => h

theorem yields_throw (e : LedgerError) : Yields (throw e : Query α) v (.error e) :=
  fun _ _ _ _ _ h _ => h

theorem Yields.bind {q : Query α} {k : α → Query β} {a : α} {r : Except LedgerError β}
    (hq : q.Yields v (.ok a)) (hk : (k a).Yields v r) : (q >>= k).Yields v r := by
  intro faulty t p Q hv h hf
  show Program.Always faulty (Program.bind (q p).run _) t Q
  rw [Program.always_bind]
  exact hq _ _ _ _ hv (hk _ _ _ _ hv h hf) hf

theorem Yields.bind_error {q : Query α} {k : α → Query β} {e : LedgerError}
    (hq : q.Yields v (.error e)) : (q >>= k).Yields v (.error e) := by
  intro faulty t p Q hv h hf
  show Program.Always faulty (Program.bind (q p).run _) t Q
  rw [Program.always_bind]
  exact hq _ _ _ _ hv h hf

theorem Yields.map {q : Query α} {r : Except LedgerError α} (hq : q.Yields v r) (g : α → β) :
    (q >>= fun a => pure (g a)).Yields v (r.map g) := by
  cases r with
  | ok a => exact hq.bind (yields_pure (g a))
  | error e => exact hq.bind_error

theorem yields_get (key : Bytes) : (get key).Yields v (.ok (v.get? key)) := by
  intro faulty t p Q hv h hf
  rw [← hv, Table.get?_overlaid] at h
  unfold get
  split
  · next pending hp =>
    rw [hp] at h
    exact h
  · next hp =>
    rw [hp] at h
    exact ⟨h, hf⟩

theorem yields_contains (key : Bytes) : (contains key).Yields v (.ok (v.contains key)) := by
  intro faulty t p Q hv h hf
  rw [← hv, Table.contains, Table.get?_overlaid] at h
  unfold contains
  split
  · next pending hp =>
    rw [hp] at h
    exact h
  · next hp =>
    rw [hp] at h
    exact ⟨h, hf⟩

theorem yields_scan (scope : Bytes) : (scan scope).Yields v (.ok (v.scan scope)) := by
  intro faulty t p Q hv h hf
  rw [← hv, ← Table.merge_scan] at h
  exact ⟨h, hf⟩

/-- What a record at a key is read as. -/
theorem yields_record (key : Bytes) (read : Bytes → Except LedgerError α) :
    (record key read).Yields v
      (match v.get? key with
        | some bytes => (read bytes).map some
        | none => .ok none) := by
  refine (yields_get key).bind ?_
  cases v.get? key with
  | some bytes => exact (yields_ofExcept (read bytes)).map some
  | none => exact yields_pure none

end Query

/-! ## Steps of a transaction -/

namespace Transaction

/-- However the transaction ends that sees the table `v`, a value and the table seen then are as
    `Q` says, an error and the table seen then are as `E` says, and nothing is written. -/
def Always (faulty : Prop) (tx : Transaction α) (v : Table Bytes)
    (Q : α → Table Bytes → Prop) (E : LedgerError → Table Bytes → Prop) : Prop :=
  ∀ (t : Table Bytes) (p : Pending), t.overlaid p = v →
    (tx.run.run p).Always faulty t fun r t' => t' = t ∧
      match r.1 with
      | .ok a => Q a (t.overlaid r.2)
      | .error e => E e (t.overlaid r.2)

variable {faulty : Prop} {v : Table Bytes} {Q : β → Table Bytes → Prop}
  {E : LedgerError → Table Bytes → Prop}

theorem Always.mono {tx : Transaction β} {Q' : β → Table Bytes → Prop}
    {E' : LedgerError → Table Bytes → Prop} (h : Always faulty tx v Q E)
    (value : ∀ b v', Q b v' → Q' b v') (error : ∀ e v', E e v' → E' e v') :
    Always faulty tx v Q' E' := by
  intro t p hv
  refine (h t p hv).mono fun ⟨r, p'⟩ t' ⟨same, post⟩ => ⟨same, ?_⟩
  cases r with
  | ok b => exact value b _ post
  | error e => exact error e _ post

theorem always_pure {b : β} (h : Q b v) : Always faulty (pure b) v Q E :=
  fun _ _ hv => ⟨rfl, hv ▸ h⟩

theorem always_throw {e : LedgerError} (h : E e v) :
    Always faulty (throw e : Transaction β) v Q E :=
  fun _ _ hv => ⟨rfl, hv ▸ h⟩

theorem Always.bind {tx : Transaction α} {k : α → Transaction β}
    (h : Always faulty tx v (fun a v' => Always faulty (k a) v' Q E) E) :
    Always faulty (tx >>= k) v Q E := by
  intro t p hv
  show Program.Always faulty (Program.bind (tx.run.run p) _) t _
  rw [Program.always_bind]
  refine (h t p hv).mono fun ⟨r, p'⟩ t' ⟨same, post⟩ => ?_
  subst same
  cases r with
  | ok a => exact post t' p' rfl
  | error e => exact ⟨rfl, post⟩

/-- A value that reading gave. -/
theorem always_ofExcept {r : Except LedgerError β} (value : ∀ b, r = .ok b → Q b v)
    (error : ∀ e, r = .error e → E e v) : Always faulty (ofExcept r) v Q E := by
  intro t p hv
  subst hv
  cases r with
  | ok b => exact ⟨rfl, value b rfl⟩
  | error e => exact ⟨rfl, error e rfl⟩

/-- A query gives what it yields on the table seen, or the fault of a call. -/
theorem always_query {q : Query β} {r : Except LedgerError β} (hq : q.Yields v r)
    (value : ∀ b, r = .ok b → Q b v) (error : ∀ e, r = .error e → E e v)
    (fault : faulty → ∀ x, E (.store x) v) : Always faulty (liftM q : Transaction β) v Q E := by
  intro t p hv
  show Program.Always faulty (Program.bind (q p).run _) t _
  rw [Program.always_bind]
  subst hv
  refine hq _ _ _ _ rfl ?_ fun hf x => ⟨rfl, fault hf x⟩
  cases r with
  | ok b => exact ⟨rfl, value b rfl⟩
  | error e => exact ⟨rfl, error e rfl⟩

/-- A query whose value on the table seen is known, and what follows it. -/
theorem Always.query_bind {q : Query α} {k : α → Transaction β} {a : α} (hq : q.Yields v (.ok a))
    (fault : faulty → ∀ x, E (.store x) v) (next : Always faulty (k a) v Q E) :
    Always faulty (liftM q >>= k) v Q E := by
  refine Always.bind (always_query hq (fun b hb => ?_) (fun e he => ?_) fault)
  · obtain rfl := Except.ok.inj hb
    exact next
  · contradiction

/-- A query that fails on the table seen ends the transaction. -/
theorem Always.query_bind_error {q : Query α} {k : α → Transaction β} {e : LedgerError}
    (hq : q.Yields v (.error e)) (fault : faulty → ∀ x, E (.store x) v) (error : E e v) :
    Always faulty (liftM q >>= k) v Q E := by
  refine Always.bind (always_query hq (fun b hb => ?_) (fun e' he => ?_) fault)
  · contradiction
  · obtain rfl := Except.error.inj he
    exact error

/-- A write is seen at once. -/
theorem always_put {key value : Bytes} {Q : Unit → Table Bytes → Prop}
    (h : Q () (v.insert key value)) : Always faulty (put key value) v Q E := by
  intro t p hv
  subst hv
  exact ⟨rfl, by simpa using h⟩

theorem always_delete {key : Bytes} {Q : Unit → Table Bytes → Prop} (h : Q () (v.erase key)) :
    Always faulty (delete key) v Q E := by
  intro t p hv
  subst hv
  exact ⟨rfl, by simpa using h⟩

end Transaction

/-! ## Work on the ledger -/

namespace LedgerWork

variable {faulty : Prop} {t : Table Bytes}

theorem always_bind {w : LedgerWork α} {k : α → LedgerWork β}
    {Q : Except LedgerError β → Table Bytes → Prop} :
    (w >>= k).run.Always faulty t Q ↔ w.run.Always faulty t fun r t' =>
      match r with
      | .ok a => (k a).run.Always faulty t' Q
      | .error e => Q (.error e) t' := by
  show Program.Always faulty (Program.bind w.run _) t Q ↔ _
  rw [Program.always_bind]
  constructor <;> intro h <;> refine h.mono fun r t' post => ?_ <;> cases r <;> exact post

/-- How work ends on a ledger whose store never fails, and the ledger left. -/
def onTable (w : LedgerWork α) (t : Table Bytes) : Except LedgerError α × Table Bytes :=
  w.run.run Table.serve t

/-- A commit leaves the table seen, or fails and changes nothing. -/
theorem always_commit {p : Pending} {Q : Except LedgerError Unit → Table Bytes → Prop}
    (done : Q (.ok ()) (t.overlaid p)) (fault : faulty → ∀ x, Q (.error (.store x)) t) :
    (commit p).run.Always faulty t Q := by
  unfold commit
  split
  · next none =>
    obtain ⟨entries, _⟩ := p
    obtain rfl : entries = [] := by simpa [Table.isEmpty] using none
    exact done
  · exact ⟨done, fault⟩

/-- A transaction that is committed as a whole or not at all: one that ends with a value to keep
    leaves the table it saw last, and any other end leaves the table it started from. -/
theorem always_atomically {tx : Transaction α} {keep : α → Bool}
    {Q : Except LedgerError α → Table Bytes → Prop}
    (h : tx.Always faulty t
      (fun a v => if keep a then Q (.ok a) v ∧ (faulty → ∀ x, Q (.error (.store x)) t)
        else Q (.ok a) t)
      fun e _ => Q (.error e) t) : (atomically tx keep).run.Always faulty t Q := by
  rw [atomically, always_bind]
  show Program.Always faulty (Program.bind (tx.run.run Table.empty) _) t _
  rw [Program.always_bind]
  -- Until the commit nothing is written: `t'` is still `t`.
  refine (h t Table.empty rfl).mono fun ⟨r, p⟩ t' ⟨same, post⟩ => ?_
  subst same
  cases r with
  | error e => exact post
  | ok a =>
    by_cases hk : keep a
    · simp only [hk, if_true] at post
      show Program.Always faulty
        (ExceptT.run (if keep a then commit p >>= fun _ => pure a else pure a)) t' Q
      rw [if_pos hk, always_bind]
      exact always_commit post.1 post.2
    · simp only [hk] at post
      show Program.Always faulty
        (ExceptT.run (if keep a then commit p >>= fun _ => pure a else pure a)) t' Q
      rw [if_neg hk]
      exact post

end LedgerWork

end SlashingGuard
