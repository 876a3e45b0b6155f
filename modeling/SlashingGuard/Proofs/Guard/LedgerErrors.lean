import SlashingGuard.Proofs.Guard.Atomicity
import SlashingGuard.Proofs.Guard.Requests

/-! # Work that fails in the ledger alone

    Behind checks that have passed, what is left to fail is the ledger.  This
    is so whatever the store answers: it may fail, or give anything at all.
    Keys of the right length are registered without a complaint about them,
    and with settings that have passed their check a prune has none about
    these. -/

namespace SlashingGuard

variable {ι : Interface} {α β σ : Type}

namespace Program

/-- Whatever its calls are answered, a program ends with a value as `P` says. -/
def Surely (P : α → Prop) : Program ι α → Prop
  | .done a => P a
  | .call _ next => ∀ reply, (next reply).Surely P

theorem Surely.mono {P Q : α → Prop} {p : Program ι α} (h : p.Surely P) (imp : ∀ a, P a → Q a) :
    p.Surely Q := by
  induction p with
  | done a => exact imp a h
  | call request next ih => exact fun reply => ih reply (h reply)

theorem Surely.bind {P : α → Prop} {Q : β → Prop} {p : Program ι α} {f : α → Program ι β}
    (h : p.Surely P) (next : ∀ a, P a → (f a).Surely Q) : (p.bind f).Surely Q := by
  induction p with
  | done a => exact next a h
  | call request rest ih => exact fun reply => ih reply (h reply)

theorem surely_true (p : Program ι α) : p.Surely fun _ => True := by
  induction p with
  | done a => trivial
  | call request next ih => exact ih

theorem Surely.run {P : α → Prop} {p : Program ι α} (h : p.Surely P)
    (serve : (request : ι.Call) → σ → ι.Reply request × σ) (s : σ) : P (p.run serve s).1 := by
  induction p generalizing s with
  | done a => exact h
  | call request next ih => exact ih _ (h _) _

end Program

namespace GuardWork

/-- Whatever the store answers, an error of the work is one of the ledger. -/
def FailsInLedger (w : GuardWork α) (c : Context) : Prop :=
  (w.run.run c).Surely fun out => ∀ e, out.1 = .error e → ∃ x, e = .ledger x

variable {c : Context}

theorem failsInLedger_pure (a : α) : (pure a : GuardWork α).FailsInLedger c := nofun

theorem failsInLedger_modifyMetrics (f : Metrics → Metrics) :
    (modifyMetrics f).FailsInLedger c := nofun

theorem failsInLedger_modifyGuard (f : Guard → Guard) : (modifyGuard f).FailsInLedger c := nofun

/-- A check that has passed does not fail. -/
theorem failsInLedger_check {r : Except SettingError Unit} (usable : r = .ok ()) :
    (conclude (r.mapError GuardError.configuration)).FailsInLedger c := by
  subst usable
  exact nofun

theorem FailsInLedger.bind {w : GuardWork α} {k : α → GuardWork β} (h : w.FailsInLedger c)
    (next : ∀ a c', (k a).FailsInLedger c') : (w >>= k).FailsInLedger c := by
  show Program.Surely _ (Program.bind (w.run.run c) _)
  refine Program.Surely.bind h fun ⟨r, c'⟩ known => ?_
  cases r with
  | ok a => exact next a c'
  | error e => exact fun e' same => known e' (congrArg _ (Except.error.inj same))

theorem failsInLedger_ledger (work : LedgerWork α) : (ledger work).FailsInLedger c := by
  show Program.Surely _ (Program.bind work.run _)
  refine work.run.surely_true.bind fun r _ e failed => ?_
  cases r with
  | ok a => contradiction
  | error x => exact ⟨x, (Except.error.inj failed).symm⟩

/-- A lock that is held is reported as an error of the ledger. -/
theorem failsInLedger_takeLock (lock : LockName) : (takeLock lock).FailsInLedger c := by
  unfold FailsInLedger takeLock
  rw [run_theGuard_bind]
  split
  · exact fun e same => ⟨_, (Except.error.inj same).symm⟩
  · exact nofun

theorem FailsInLedger.withLock {w : GuardWork α} (h : ∀ c, w.FailsInLedger c) (lock : LockName) :
    (withLock lock w).FailsInLedger c := by
  refine (failsInLedger_takeLock lock).bind fun _ c => ?_
  show Program.Surely _ (Program.bind (Program.bind (w.run.run c) _) _)
  rw [Program.bind_assoc]
  exact Program.Surely.bind (h c) fun _ known => known

end GuardWork

namespace Guard

open GuardWork

variable {c : Context}

/-- Keys of the right length are not refused. -/
theorem failsInLedger_register {keys : List PublicKey} (bls : ∀ key ∈ keys, key.isBls) :
    (register keys).FailsInLedger c := by
  have accepted : (keys.find? fun key => !key.isBls) = none := by simpa using bls
  unfold register
  rw [accepted]
  exact (failsInLedger_ledger _).bind fun _ _ => failsInLedger_modifyGuard _

theorem failsInLedger_pruneHalf (lock : LockName) (work : LedgerWork (Option UInt64 × Nat)) :
    (pruneHalf lock work).FailsInLedger c := by
  refine FailsInLedger.withLock (fun c => (failsInLedger_ledger work).bind ?_) lock
  rintro ⟨floor, removed⟩ c
  exact (failsInLedger_modifyMetrics _).bind fun _ _ => failsInLedger_pure _

variable {epochsToKeep slotsPerEpoch : UInt64}

theorem failsInLedger_pruneValidator (usable : checkTunables epochsToKeep slotsPerEpoch = .ok ())
    (id : ValidatorId) : (pruneValidator id epochsToKeep slotsPerEpoch).FailsInLedger c := by
  refine (failsInLedger_check usable).bind fun _ _ => ?_
  refine (failsInLedger_pruneHalf _ _).bind fun ⟨slot, blocks⟩ _ => ?_
  exact (failsInLedger_pruneHalf _ _).bind fun ⟨epoch, attestations⟩ _ => failsInLedger_pure _

theorem failsInLedger_pruneAll (usable : checkTunables epochsToKeep slotsPerEpoch = .ok ())
    (summary : PruneSummary) (ids : List ValidatorId) :
    (pruneAll epochsToKeep slotsPerEpoch summary ids).FailsInLedger c := by
  induction ids generalizing summary c with
  | nil => exact failsInLedger_pure summary
  | cons id rest ih =>
    exact (failsInLedger_pruneValidator usable id).bind fun outcome _ => ih (summary.record outcome)

/-- Settings that have passed their check are not refused. -/
theorem failsInLedger_prune (usable : c.guard.config.pruning.check = .ok ()) :
    prune.FailsInLedger c := by
  have tunables := checkTunables_eq_ok_iff.2 (tunables_of_check usable)
  unfold FailsInLedger prune
  rw [run_theGuard_bind]
  exact (failsInLedger_check usable).bind fun _ _ => failsInLedger_pruneAll tunables _ _

end Guard

end SlashingGuard
