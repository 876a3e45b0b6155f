import SlashingGuard.Proofs.Guard.FirstFault
import SlashingGuard.Proofs.Guard.Retention
import SlashingGuard.Proofs.Interchange.Writing

/-! # Exports that are cut short

    A call on the store may fail before any history of an export, and the sink
    may have no room for any of its tokens.  Either ends the export: what the
    sink has by then is a beginning of the text of the document, and the error
    is that of the read or of the sink, whichever failed.  The guard and the
    ledger are left as they were. -/

namespace SlashingGuard

variable {α β : Type} {c : Context} {t : Table Bytes}

/-! ## The first fault of an export -/

theorem GuardWork.endsAtFault_theGuard : theGuard.EndsAtFault := fun _ => trivial

namespace Ledger

theorem endsAtFault_validators : validators.EndsAtFault :=
  (Query.endsAtFault_scan _).bind fun _ => Query.endsAtFault_ofExcept _

theorem endsAtFault_blocks (id : ValidatorId) : (blocks id).EndsAtFault :=
  (Query.endsAtFault_scan _).bind fun _ => Query.endsAtFault_ofExcept _

theorem endsAtFault_attestations (id : ValidatorId) : (attestations id).EndsAtFault :=
  (Query.endsAtFault_scan _).bind fun _ => Query.endsAtFault_ofExcept _

end Ledger

namespace ExportWork

/-- The first call of the work that fails ends it with the fault as its error. -/
def EndsAtFault (w : ExportWork α) : Prop :=
  ∀ (s : Sink) (c : Context),
    ((w.run.run s).run c).EndsAtFault fun x r => r.1.1 = .error (.ledger (.store x))

theorem endsAtFault_pure (a : α) : (pure a : ExportWork α).EndsAtFault := fun _ _ => trivial

theorem EndsAtFault.bind {w : ExportWork α} {k : α → ExportWork β} (h : w.EndsAtFault)
    (hk : ∀ a, (k a).EndsAtFault) : (w >>= k).EndsAtFault := by
  intro s c
  show Program.EndsAtFault _ (Program.bind ((w.run.run s).run c) _)
  refine (h s c).bind ?_ ?_
  · rintro x ⟨⟨r, s'⟩, c'⟩ stopped
    obtain rfl : r = .error (.ledger (.store x)) := stopped
    exact ⟨_, rfl, rfl⟩
  · rintro ⟨⟨r, s'⟩, c'⟩
    cases r with
    | ok a => exact hk a s' c'
    | error e => trivial

theorem endsAtFault_ofGuard {w : GuardWork α} (h : w.EndsAtFault) : (ofGuard w).EndsAtFault := by
  intro s c
  show Program.EndsAtFault _ (Program.bind (w.run.run c) _)
  refine (h c).bind ?_ fun _ => trivial
  rintro x ⟨r, c'⟩ stopped
  obtain rfl : r = .error (.ledger (.store x)) := stopped
  exact ⟨_, rfl, rfl⟩

theorem endsAtFault_emit (tokens : List String) : (emit tokens).EndsAtFault := fun _ _ => trivial

theorem endsAtFault_flush : flush.EndsAtFault := by
  intro s c
  obtain ⟨accepted, room, _ | fault⟩ := s <;> trivial

end ExportWork

namespace Interchange

open ExportWork

theorem endsAtFault_readNow {q : Query α} (h : q.EndsAtFault) : (readNow q).EndsAtFault :=
  GuardWork.endsAtFault_ledger (h Table.empty)

theorem endsAtFault_loadHistory (id : ValidatorId) (key : PublicKey) :
    (loadHistory id key).EndsAtFault := by
  have reads : (historyOf id key).EndsAtFault :=
    (Ledger.endsAtFault_blocks id).bind fun _ => (Ledger.endsAtFault_attestations id).bind
      fun _ => (Ledger.endsAtFault_watermark? id).bind fun _ => Query.endsAtFault_pure _
  exact ((endsAtFault_readNow reads).withLock _).withLock _

theorem endsAtFault_emitHistories (first : Bool) (validators : List (ValidatorId × PublicKey)) :
    (emitHistories first validators).EndsAtFault := by
  induction validators generalizing first with
  | nil => exact endsAtFault_pure ()
  | cons validator rest ih =>
    exact (endsAtFault_ofGuard (endsAtFault_loadHistory _ _)).bind fun _ =>
      (endsAtFault_emit _).bind fun _ => ih false

theorem endsAtFault_exportAll : exportAll.EndsAtFault :=
  (endsAtFault_ofGuard (endsAtFault_readNow Ledger.endsAtFault_validators)).bind fun _ =>
    (endsAtFault_ofGuard GuardWork.endsAtFault_theGuard).bind fun _ =>
      (endsAtFault_emit _).bind fun _ => (endsAtFault_emitHistories true _).bind fun _ =>
        (endsAtFault_emit _).bind fun _ => endsAtFault_flush

end Interchange

/-! ## Runs under faults -/

/-- None of the calls failed. -/
def Store.Unfailed (made : List Exchange) : Prop := ∀ ex ∈ made, ex.fault = none

theorem Store.not_unfailed {made : List Exchange} :
    ¬ Unfailed made ↔ ∃ ex ∈ made, ∃ x, ex.fault = some x := by
  simp only [Unfailed, not_forall, exists_prop, Option.ne_none_iff_exists']

namespace ExportWork

/-- How work ends when calls on the store fail as scheduled, with the sink, the context and the
    ledger left. -/
def underFaults (w : ExportWork α) (s : Sink) (c : Context) (faults : Store.FaultSchedule)
    (t : Table Bytes) : Except GuardError α × Sink × Context × Table Bytes :=
  let (((r, s'), c'), t') := ((w.run.run s).run c).runFaulty faults t
  (r, s', c', t')

/-- The calls that work makes on the store then. -/
def exchanges (w : ExportWork α) (s : Sink) (c : Context) (faults : Store.FaultSchedule)
    (t : Table Bytes) : List Store.Exchange :=
  ((w.run.run s).run c).exchanges faults t

variable {w : ExportWork α} {s : Sink} {faults : Store.FaultSchedule}
  {Q : Except GuardError α → Sink → Context → Table Bytes → Prop}

theorem Always.underFaults (h : Always True w s c t Q) (faults : Store.FaultSchedule) :
    Q (w.underFaults s c faults t).1 (w.underFaults s c faults t).2.1
      (w.underFaults s c faults t).2.2.1 (w.underFaults s c faults t).2.2.2 :=
  Program.Always.runFaulty h faults

/-- A run in which no call failed ends as on the store that never fails. -/
theorem Always.underFaults_of_unfailed (h : Always False w s c t Q)
    (unfailed : Store.Unfailed (w.exchanges s c faults t)) :
    Q (w.underFaults s c faults t).1 (w.underFaults s c faults t).2.1
      (w.underFaults s c faults t).2.2.1 (w.underFaults s c faults t).2.2.2 := by
  unfold ExportWork.underFaults
  rw [Program.runFaulty_of_unfailed unfailed]
  exact h.run_serve

theorem EndsAtFault.underFaults (h : w.EndsAtFault) {ex : Store.Exchange}
    (made : ex ∈ w.exchanges s c faults t) {x : StoreFault} (failed : ex.fault = some x) :
    (w.underFaults s c faults t).1 = .error (.ledger (.store x)) :=
  (h s c).runFaulty made failed

end ExportWork

/-! ## How an export ends -/

/-- What is told of a fault of the store to whoever asked a guard: its own text, under the class of
    the fault. -/
def StoreFault.report : StoreFault → String
  | .io message => "Storage fault: KV store I/O error: " ++ message
  | .corruption message => "Corrupt ledger: KV store corruption: " ++ message

theorem GuardError.message_store (x : StoreFault) :
    message (.ledger (.store x)) = x.report := by
  cases x <;> rfl

namespace Interchange

open ExportWork Store

/-- An export with `text` to write to a sink made the calls `made` and ended with `reply`; of the
    text the sink took `written`. -/
structure EndsCleanly (text : String) (s : Sink) (made : List Store.Exchange)
    (reply : Except GuardError Unit) (written : String) : Prop where
  /-- What was taken is a beginning of the text. -/
  beginning : ∃ rest, text = written ++ rest
  /-- It is all of the text if no read failed and there was room. -/
  whole : Unfailed made → (∀ fault, ¬ s.Lacks text fault) → written = text
  succeeded : reply = .ok () ↔ written = text ∧ s.flushFault = none ∧ Unfailed made
  /-- A read that failed is the error, with its own text, whatever is true of the sink. -/
  unread : ∀ ex ∈ made, ∀ x, ex.fault = some x →
    reply = .error (.ledger (.store x)) ∧ GuardError.message (.ledger (.store x)) = x.report
  /-- No read failed before there was no more room. -/
  refused : Unfailed made → ∀ fault, s.Lacks text fault →
    reply = .error (.interchange fault.message)
  /-- Only finishing the sink failed. -/
  unfinished : Unfailed made → (∀ fault, ¬ s.Lacks text fault) → ∀ fault,
    s.flushFault = some fault → reply = .error (.output fault.message)

namespace EndsCleanly

variable {text written rest : String} {s s' : Sink} {made : List Store.Exchange}

/-- All was written: the sink says how the export ends. -/
theorem of_took (unfailed : Unfailed made) (took : s.Took text s') :
    EndsCleanly text s made s'.finished text where
  beginning := ⟨"", String.append_empty.symm⟩
  whole _ _ := rfl
  succeeded := by
    rw [took.finished, Sink.finished_eq_ok]
    exact ⟨fun flushed => ⟨rfl, flushed, unfailed⟩, fun ⟨_, flushed, _⟩ => flushed⟩
  unread ex member x failed := absurd unfailed (not_unfailed.2 ⟨ex, member, x, failed⟩)
  refused _ fault lacks := absurd lacks (took.not_lacks fault)
  unfinished _ _ fault found := by rw [took.finished, Sink.finished_eq_error found]

/-- A read failed, and no other. -/
theorem of_unread {x : StoreFault} (failed : ¬ Unfailed made)
    (only : ∀ ex ∈ made, ∀ x', ex.fault = some x' → x' = x) (cut : text = written ++ rest) :
    EndsCleanly text s made (.error (.ledger (.store x))) written where
  beginning := ⟨rest, cut⟩
  whole unfailed _ := absurd unfailed failed
  succeeded := ⟨nofun, fun ⟨_, _, unfailed⟩ => absurd unfailed failed⟩
  unread ex member x' found := by
    obtain rfl := only ex member x' found
    exact ⟨rfl, GuardError.message_store x'⟩
  refused unfailed _ _ := absurd unfailed failed
  unfinished unfailed _ _ _ := absurd unfailed failed

/-- The sink had no room for the rest, of which there is some. -/
theorem of_lacks {fault : IoError} (unfailed : Unfailed made) (cut : text = written ++ rest)
    (took : s.Took written s') (lacks : s'.Lacks rest fault) :
    EndsCleanly text s made (.error (.interchange fault.message)) written where
  beginning := ⟨rest, cut⟩
  whole _ room := absurd (cut ▸ took.lacks lacks) (room fault)
  succeeded := by
    refine ⟨nofun, fun ⟨whole, _⟩ => ?_⟩
    exact absurd (cut ▸ took.lacks lacks) (whole ▸ took.not_lacks fault)
  unread ex member x failed := absurd unfailed (not_unfailed.2 ⟨ex, member, x, failed⟩)
  refused _ fault' lacks' := by
    rw [(took.lacks lacks).fault_eq lacks']
  unfinished _ room _ _ := absurd (cut ▸ took.lacks lacks) (room fault)

/-- A read that fails is the error, so only where one failed is the error one of the ledger. -/
theorem of_ends {reply : Except GuardError Unit}
    (ends : s.Took text s' ∧ reply = s'.finished ∨
      ∃ e, reply = .error e ∧ CutOff (¬ Unfailed made) s text e s')
    (first : ∀ ex ∈ made, ∀ x, ex.fault = some x → reply = .error (.ledger (.store x))) :
    ∃ written, s'.accepted = s.accepted ++ written ∧ EndsCleanly text s made reply written := by
  have unfailed (other : ∀ e, reply ≠ .error (.ledger e)) : Unfailed made := by
    by_contra failed
    obtain ⟨ex, member, x, found⟩ := not_unfailed.1 failed
    exact other _ (first ex member x found)
  rcases ends with ⟨took, rfl⟩ | ⟨e, rfl, cutOff⟩
  · exact ⟨text, took.accepted, of_took (unfailed s'.finished_ne_ledger) took⟩
  · cases cutOff with
    | unread failed cut took =>
      obtain ⟨ex, member, x, found⟩ := not_unfailed.1 failed
      obtain rfl := GuardError.ledger.inj (Except.error.inj (first ex member x found))
      refine ⟨_, took.accepted, of_unread failed (fun ex' member' x' found' => ?_) cut⟩
      have same := GuardError.ledger.inj (Except.error.inj (first ex' member' x' found'))
      exact (LedgerError.store.inj same).symm
    | refused cut took lacks =>
      exact ⟨_, took.accepted, of_lacks (unfailed nofun) cut took lacks⟩

end EndsCleanly

/-- If nothing fails the document is written. -/
theorem underFaults_nil_exportAll (legible : t.Legible) (idle : c.guard.held = []) :
    exportAll.underFaults .unlimited c [] t = (.ok (),
      .taking (Json.pretty (documentOf t c.guard.config.genesisRoot).toJson), c, t) := by
  obtain ⟨reply, sink, context, table⟩ := (writes_exportAll legible idle "").runFaulty_nil
  rw [String.empty_append] at sink
  exact Prod.ext reply (Prod.ext sink (Prod.ext context table))

/-- All is written, or the export is cut off, by a read only if one failed. -/
theorem ends_exportAll (legible : t.Legible) (idle : c.guard.held = []) (s : Sink)
    (faults : FaultSchedule) :
    let text := Json.pretty (documentOf t c.guard.config.genesisRoot).toJson
    let (reply, left, c', t') := exportAll.underFaults s c faults t
    (s.Took text left ∧ reply = left.finished ∨
      ∃ e, reply = .error e ∧
        CutOff (¬ Unfailed (exportAll.exchanges s c faults t)) s text e left) ∧
      c' = c ∧ t' = t := by
  by_cases unfailed : Unfailed (exportAll.exchanges s c faults t)
  · have free : ∀ v ∈ t.validators, c.guard.Frees v.1 := fun v _ => Guard.frees_of_idle idle v.1
    have streams : exportAll.Streams False c t _ _ := streams_exportAll legible (.inr free)
    obtain ⟨ends, same⟩ := (streams s).underFaults_of_unfailed unfailed
    exact ⟨ends.imp_right fun ⟨e, failed, cut⟩ => ⟨e, failed, cut.mono False.elim⟩, same⟩
  · have streams : exportAll.Streams True c t _ _ := streams_exportAll legible (.inl trivial)
    obtain ⟨ends, same⟩ := (streams s).underFaults faults
    exact ⟨ends.imp_right fun ⟨e, failed, cut⟩ => ⟨e, failed, cut.mono fun _ => unfailed⟩, same⟩

/-- Whatever reads of a legible ledger fail, and whatever the sink, an export ends cleanly: the sink
    has a beginning of the text that an export writes if nothing fails, and the error is that of
    what failed first.  The ledger is left as it was, and so is the guard, which holds no lock. -/
theorem export_ends_cleanly (legible : t.Legible) (idle : c.guard.held = []) (s : Sink)
    (faults : FaultSchedule) :
    ∃ text, exportAll.underFaults .unlimited c [] t = (.ok (), .taking text, c, t) ∧
      ∃ reply left written, exportAll.underFaults s c faults t = (reply, left, c, t) ∧
        left.accepted = s.accepted ++ written ∧
        EndsCleanly text s (exportAll.exchanges s c faults t) reply written := by
  refine ⟨Json.pretty (documentOf t c.guard.config.genesisRoot).toJson,
    underFaults_nil_exportAll legible idle, ?_⟩
  have ends := ends_exportAll legible idle s faults
  have first ex (made : ex ∈ exportAll.exchanges s c faults t) x (failed : ex.fault = some x) :=
    endsAtFault_exportAll.underFaults made failed
  generalize exportAll.underFaults s c faults t = result at ends first ⊢
  obtain ⟨reply, left, c', t'⟩ := result
  obtain ⟨ends, rfl, rfl⟩ := ends
  obtain ⟨written, accepted, clean⟩ := EndsCleanly.of_ends ends first
  exact ⟨reply, left, written, rfl, accepted, clean⟩

/-- The third read is to fail: a sink that takes everything has the opening of the document by
    then, and one with room for three bytes has refused a token before. -/
theorem export_ends_cleanly_votedTwice :
    let c : Context := ⟨⟨.standard, [], []⟩, .zero⟩
    let small : Sink := ⟨"", some (3, .other "full"), none⟩
    let gone : FaultSchedule := [none, none, some (.io "gone")]
    Guard.votedTwice.Legible ∧ c.guard.held = [] ∧
      (exportAll.underFaults .unlimited c gone Guard.votedTwice).1 =
        .error (.ledger (.store (.io "gone"))) ∧
      ∃ text, exportAll.underFaults .unlimited c [] Guard.votedTwice =
          (.ok (), .taking text, c, Guard.votedTwice) ∧
        ∃ left, exportAll.underFaults small c gone Guard.votedTwice =
            (.error (.interchange "full"), left, c, Guard.votedTwice) ∧
          EndsCleanly text small (exportAll.exchanges small c gone Guard.votedTwice)
            (.error (.interchange "full")) left.accepted := by
  intro c small gone
  have wf : Guard.votedTwice.WellFormed :=
    ((Table.WellFormed.empty.enroll ⟨[1]⟩ 1).recordVote rfl (by decide) _).recordVote rfl
      (by decide) _
  have unread : (exportAll.underFaults .unlimited c gone Guard.votedTwice).1 =
      .error (.ledger (.store (.io "gone"))) := by
    decide +kernel
  have refused : (exportAll.underFaults small c gone Guard.votedTwice).1 =
      .error (.interchange "full") := by
    decide +kernel
  obtain ⟨text, whole, reply, left, written, ended, accepted, clean⟩ :=
    export_ends_cleanly (c := c) wf.legible rfl small gone
  rw [ended] at refused
  obtain rfl : reply = .error (.interchange "full") := refused
  obtain rfl : left.accepted = written := accepted.trans String.empty_append
  exact ⟨wf.legible, rfl, unread, text, whole, left, ended, clean⟩

end Interchange

end SlashingGuard
