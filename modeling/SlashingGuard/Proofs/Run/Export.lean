import SlashingGuard.Proofs.Interchange.Document
import SlashingGuard.Proofs.Interchange.Writing
import SlashingGuard.Proofs.Run.World

/-! # Exports after a run

    Whatever happened in a run, a guard on the store exports the one document
    that tells what the ledger holds.  It need not have registered anybody, or
    have been there before.  The text is the pretty form of the document, and
    so the document can be read from it again. -/

namespace SlashingGuard

open Interchange

/-- An export of a legible ledger adds its document to what the sink has taken, and changes
    nothing. -/
theorem Operation.onTable_exportTo {c : Context} {t : Table Bytes} (legible : t.Legible)
    (idle : c.guard.held = []) (accepted : String) :
    (exportTo (.taking accepted)).perform.onTable c t =
      (.ok (.exported (.taking (accepted ++
        Json.pretty (documentOf t c.guard.config.genesisRoot).toJson))), c, t) := by
  have ends : GuardWork.Always False (exportTo (.taking accepted)).perform c t fun r c' t' =>
      r = .ok (.exported (.taking (accepted ++
        Json.pretty (documentOf t c.guard.config.genesisRoot).toJson))) ∧ c' = c ∧ t' = t := by
    refine GuardWork.always_bind.2 (GuardWork.always_lift.2 ?_)
    refine (writes_exportAll legible idle accepted).mono ?_
    rintro ⟨⟨r, s⟩, c'⟩ t' ⟨rfl, rfl, same⟩
    exact ⟨rfl, same⟩
  obtain ⟨reply, context, table⟩ := ends.onTable
  exact Prod.ext reply (Prod.ext context table)

namespace World

/-- After any run, whatever happened in it, a guard of any settings that holds no lock exports the
    one document that tells what the ledger holds.  The ledger and the guard stay as they are, and
    the document is read back from the text. -/
theorem export_tells_ledger {run : Run} (storable : run.Storable) (c : Context)
    (idle : c.guard.held = []) (accepted : String) :
    ∃ d : Document, d.Tells (after run).table c.guard.config.genesisRoot ∧
      (∀ d' : Document, d'.Tells (after run).table c.guard.config.genesisRoot → d' = d) ∧
      (Operation.exportTo (.taking accepted)).perform.onTable c (after run).table =
        (.ok (.exported (.taking (accepted ++ Json.pretty d.toJson))), c, (after run).table) ∧
      Document.ofText (Json.pretty d.toJson) = .ok d := by
  have legible := (sound_after storable).wellFormed.legible
  have tells := tells_documentOf legible c.guard.config.genesisRoot
  exact ⟨_, tells, fun d' tells' => tells'.eq tells,
    Operation.onTable_exportTo legible idle accepted, Document.ofText_pretty _⟩

/-- What the two guards signed, but for the vote that a prune forgot. -/
def signedByTwo (genesisRoot : SigningRoot) : Document :=
  ⟨⟨"5", genesisRoot⟩, [⟨Run.oneKey, [⟨5, ⟨[1]⟩⟩], [⟨3, 8, ⟨[3]⟩⟩, ⟨8, 9, ⟨[4]⟩⟩],
    some ⟨some 4, some 7, some 7⟩⟩]⟩

/-- A third guard, which knows nobody, exports what the two guards signed. -/
theorem export_tells_ledger_twoGuards :
    let third : Context := ⟨⟨{ GuardConfig.standard with genesisRoot := ⟨[9]⟩ }, [], []⟩, .zero⟩
    (signedByTwo ⟨[9]⟩).Tells (after Run.twoGuards).table ⟨[9]⟩ ∧
      (Operation.exportTo (.taking "")).perform.onTable third (after Run.twoGuards).table =
        (.ok (.exported (.taking (Json.pretty (signedByTwo ⟨[9]⟩).toJson))), third,
          (after Run.twoGuards).table) := by
  intro third
  -- The document that is exported is the only one that tells the ledger, and this one does.
  obtain ⟨d, -, unique, exported, -⟩ :=
    export_tells_ledger Run.storable_twoGuards third rfl ""
  have legible := (sound_after Run.storable_twoGuards).wellFormed.legible
  have listed : documentOf (after Run.twoGuards).table ⟨[9]⟩ = signedByTwo ⟨[9]⟩ := by
    decide +kernel
  have told := tells_documentOf legible ⟨[9]⟩
  rw [listed] at told
  obtain rfl := unique _ told
  rw [String.empty_append] at exported
  exact ⟨told, exported⟩

end World

end SlashingGuard
