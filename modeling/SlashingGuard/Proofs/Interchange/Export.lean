import SlashingGuard.Interchange.Export
import SlashingGuard.Proofs.Guard.Work
import SlashingGuard.Proofs.Ledger.Held

/-! # An export changes nothing

    An export reads the ledger, takes locks and gives them back, and writes to
    a sink.  Whatever fails in it, the ledger and the guard are left as they
    were, whatever the ledger holds. -/

namespace SlashingGuard

variable {α β : Type}

/-! ## Work of a guard -/

namespace GuardWork

/-- The work leaves the guard and the ledger as they are. -/
def Quiet (w : GuardWork α) : Prop :=
  ∀ (faulty : Prop) (c : Context) (t : Table Bytes),
    Always faulty w c t fun _ c' t' => c' = c ∧ t' = t

theorem quiet_ledger {q : Query α} (h : q.ReadOnly) (p : Pending) : Quiet (ledger (q p)) := by
  intro faulty c t
  refine always_ledger.2 ((h faulty t p).mono ?_)
  rintro r t' rfl
  exact ⟨rfl, rfl⟩

theorem quiet_theGuard : Quiet theGuard := fun _ _ _ => ⟨rfl, rfl⟩

/-- A lock around such work is given back, or was not to be had. -/
theorem Quiet.withLock {w : GuardWork α} (h : Quiet w) (lock : LockName) :
    Quiet (withLock lock w) := by
  intro faulty c t
  by_cases held : lock ∈ c.guard.held
  · exact always_withLock_held held ⟨rfl, rfl⟩
  · refine always_withLock held ((h faulty _ t).mono ?_)
    rintro r c' t' ⟨rfl, rfl⟩
    exact ⟨freed_holding c lock, rfl⟩

end GuardWork

/-! ## Writing to a sink -/

namespace ExportWork

/-- However the work ends, its result, the sink, the context and the table left are as `Q`
    says. -/
def Always (faulty : Prop) (w : ExportWork α) (s : Sink) (c : Context) (t : Table Bytes)
    (Q : Except GuardError α → Sink → Context → Table Bytes → Prop) : Prop :=
  ((w.run.run s).run c).Always faulty t fun r t' => Q r.1.1 r.1.2 r.2 t'

/-- The work leaves the guard and the ledger as they are. -/
def Quiet (w : ExportWork α) : Prop :=
  ∀ (faulty : Prop) (s : Sink) (c : Context) (t : Table Bytes),
    Always faulty w s c t fun _ _ c' t' => c' = c ∧ t' = t

theorem quiet_pure (a : α) : Quiet (pure a) := fun _ _ _ _ => ⟨rfl, rfl⟩

theorem Quiet.bind {w : ExportWork α} {k : α → ExportWork β} (hw : Quiet w)
    (hk : ∀ a, Quiet (k a)) : Quiet (w >>= k) := by
  intro faulty s c t
  show Program.Always faulty (Program.bind ((w.run.run s).run c) _) t _
  rw [Program.always_bind]
  refine (hw faulty s c t).mono ?_
  rintro ⟨⟨r, s'⟩, c'⟩ t' ⟨rfl, rfl⟩
  cases r with
  | ok a => exact hk a faulty s' c' t'
  | error e => exact ⟨rfl, rfl⟩

theorem quiet_ofGuard {w : GuardWork α} (h : GuardWork.Quiet w) : Quiet (ofGuard w) := by
  intro faulty s c t
  show Program.Always faulty (Program.bind (w.run.run c) _) t _
  rw [Program.always_bind]
  exact h faulty c t

theorem quiet_emit (tokens : List String) : Quiet (emit tokens) := fun _ _ _ _ => ⟨rfl, rfl⟩

theorem quiet_flush : Quiet flush := by
  intro faulty s c t
  obtain ⟨accepted, room, _ | fault⟩ := s <;> exact ⟨rfl, rfl⟩

end ExportWork

namespace Interchange

open Query ExportWork

theorem readOnly_historyOf (id : ValidatorId) (key : PublicKey) : (historyOf id key).ReadOnly :=
  (Ledger.readOnly_blocks id).bind fun _ => (Ledger.readOnly_attestations id).bind fun _ =>
    (Ledger.readOnly_watermark? id).bind fun _ => readOnly_pure _

theorem quiet_loadHistory (id : ValidatorId) (key : PublicKey) :
    GuardWork.Quiet (loadHistory id key) :=
  ((GuardWork.quiet_ledger (readOnly_historyOf id key) Table.empty).withLock _).withLock _

theorem quiet_emitHistories (first : Bool) (validators : List (ValidatorId × PublicKey)) :
    Quiet (emitHistories first validators) := by
  induction validators generalizing first with
  | nil => exact quiet_pure ()
  | cons validator rest ih =>
    exact (quiet_ofGuard (quiet_loadHistory _ _)).bind fun _ => (quiet_emit _).bind fun _ =>
      ih false

/-- An export leaves the guard and the ledger as they are. -/
theorem quiet_exportAll : Quiet exportAll :=
  (quiet_ofGuard (GuardWork.quiet_ledger Ledger.readOnly_validators Table.empty)).bind fun _ =>
    (quiet_ofGuard GuardWork.quiet_theGuard).bind fun _ => (quiet_emit _).bind fun _ =>
      (quiet_emitHistories true _).bind fun _ => (quiet_emit _).bind fun _ => quiet_flush

end Interchange

end SlashingGuard
