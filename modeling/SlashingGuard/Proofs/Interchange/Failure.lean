import SlashingGuard.Proofs.Interchange.Writing

/-! # How an export fails

    On a legible ledger, with no lock held and no call that fails, all that an
    export reads is there and can be read.  So it fails in two ways alone:
    the sink has no room for a token, or it is not finished.  Both are what
    the sink says of itself, and it says the same however much was written. -/

namespace SlashingGuard

variable {c : Context} {t : Table Bytes}

namespace Sink

/-- What a sink says of itself when it fails, as the guard reports it. -/
inductive Reports (s : Sink) : GuardError → Prop where
  | full {room : Nat} {fault : IoError} : s.room = some (room, fault) →
    Reports s (.interchange fault.message)
  | unfinished {fault : IoError} : s.flushFault = some fault → Reports s (.output fault.message)

variable {s : Sink} {e : GuardError}

theorem reports_of_lacks {text : String} {fault : IoError} (h : s.Lacks text fault) :
    s.Reports (.interchange fault.message) := by
  obtain ⟨room, limited, -⟩ := h
  exact .full limited

theorem reports_of_finished (h : s.finished = .error e) : s.Reports e := by
  cases found : s.flushFault with
  | none =>
    rw [finished_eq_ok.2 found] at h
    contradiction
  | some fault =>
    rw [finished_eq_error found] at h
    obtain rfl := Except.error.inj h
    exact .unfinished found

end Sink

/-- An export of a legible ledger fails only as its sink says that it does. -/
theorem Interchange.reports_exportAll (legible : t.Legible) (idle : c.guard.held = []) (s : Sink) :
    ExportWork.Always False exportAll s c t fun r _ _ _ => ∀ e, r = .error e → s.Reports e := by
  have free : ∀ v ∈ t.validators, c.guard.Frees v.1 := fun v _ => Guard.frees_of_idle idle v.1
  have streams : exportAll.Streams False c t _ _ := streams_exportAll legible (.inr free)
  refine (streams s).mono ?_
  rintro ⟨⟨r, s'⟩, c'⟩ t' ⟨⟨took, ended⟩ | ⟨e', failed, cutOff⟩, -⟩ e same
  · exact Sink.reports_of_finished (took.finished.symm.trans (ended.symm.trans same))
  · obtain rfl := Except.error.inj (failed.symm.trans same)
    cases cutOff with
    | unread fails => exact fails.elim
    | refused cut took lacks => exact Sink.reports_of_lacks (took.lacks lacks)

end SlashingGuard
