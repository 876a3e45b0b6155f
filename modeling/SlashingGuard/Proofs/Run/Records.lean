import SlashingGuard.Proofs.Run.Votes

/-! # Permitted votes are recorded

    When a guard has permitted a vote, the ledger records a vote at its target
    with its root.  That record is the vote itself, except where the target was
    taken before: there only the roots are compared, and what was recorded
    stands.  If a root is always asked for with one source the record is the
    vote itself in both cases; nothing else in a guard or a ledger ties the
    source of a vote to its root. -/

namespace SlashingGuard

namespace World

variable {run : Run}

theorem votesPermitted_after (guarded : ∀ s ∈ run, s.Guarded) (storable : run.Storable)
    (fits : run.FitsMemory) : (after run).Protected run ∧ (after run).VotesPermitted := by
  apply protected_induction guarded storable votesCovered_empty.origin
  · intro w w' table log votes
    simp only [VotesPermitted, PermittedVote, table, log] at votes ⊢
    exact votes
  · intro w w' w_ok s hs g hg op reply g' payload outcome log votes
    apply votes.step w_ok hg outcome log
    intro key vote root same
    subst same
    exact SigningRoot.stored_eq (fits s hs _ (payload ▸ List.mem_cons_self))

/-- After a run a guard is asked for a vote and permits it.  Then a vote is recorded at the target
    with the root of the request.  Its source is that of the request, unless a vote with this root
    was recorded there before; that one stands, and the ledger is as it was.  If nothing else was
    asked for with this root at this target, the sources are the same in any case. -/
theorem permitted_vote_recorded {run : Run} (guarded : ∀ s ∈ run, s.Guarded)
    (storable : run.Storable) (fits : run.FitsMemory) {index : Nat} {key : PublicKey} {vote : Vote}
    {root : SigningRoot} (short : root.bytes.length < 2 ^ 64) {faults : Store.FaultSchedule}
    {left : World} (asked : (after run).ask index (.signAttestation key vote root) faults = left)
    (permitted : left.log = (after run).log ++ [⟨.signAttestation key vote root, .ok .permit⟩]) :
    ∃ id source, left.table.registry.idOf key = some id ∧
      (left.table.account id).vote vote.target = some (source, root) ∧
      (source = vote.source ∨
        ((after run).table.account id).vote vote.target = some (source, root) ∧
          left.table = (after run).table) ∧
      ((after run).keysAsked < 2 ^ 64 →
        (∀ vote', (after run).AskedVote key vote' root → vote'.target = vote.target →
          vote'.source = vote.source) → source = vote.source) := by
  obtain ⟨w_ok, votes⟩ := votesPermitted_after guarded storable fits
  rcases ask_cases w_ok.wellFormed index (.signAttestation key vote root) faults with
    same | ⟨g, hg, reply, g', metrics, t', outcome, same⟩
  · -- No guard was asked, so nothing was permitted.
    rw [← asked, same] at permitted
    simp at permitted
  rw [same] at asked
  subst asked
  have event := List.append_cancel_left permitted
  obtain ⟨-, rfl⟩ := Event.mk.inj (List.cons.inj event).1
  obtain ⟨id, known, -, again | fresh⟩ := outcome.permittedVote (w_ok.enabled g hg)
  · obtain ⟨⟨source, again⟩, table⟩ := again
    have number := w_ok.agrees g hg key id known
    refine ⟨id, source, outcome.remembers.idOf key id number, ?_, .inr ⟨again, table⟩, ?_⟩
    · show (t'.account id).vote vote.target = _
      rw [table]
      exact again
    · intro room names
      have numbered := keysNumbered_after guarded storable room
      exact (votes.permitted_again numbered number again names).1
  · obtain ⟨-, table⟩ := fresh
    have number := w_ok.agrees g hg key id known
    refine ⟨id, vote.source, outcome.remembers.idOf key id number, ?_, .inl rfl, fun _ _ => rfl⟩
    show (t'.account id).vote vote.target = _
    rw [table, Table.account_recordVote, if_pos rfl, SigningRoot.stored_eq short]
    simp [Account.recordVote]

end World

namespace Run

/-- One vote is signed. -/
def oneVote : Run :=
  [.start .standard, .ask 0 (.register [oneKey]) [],
    .ask 0 (.signAttestation oneKey ⟨5, 6⟩ ⟨[1]⟩) []]

/-- Its root is asked for once more, with another source. -/
def twoSources : Run := oneVote ++ [.ask 0 (.signAttestation oneKey ⟨4, 6⟩ ⟨[1]⟩) []]

theorem guarded_twoSources : ∀ s ∈ twoSources, s.Guarded := by
  simp [twoSources, oneVote, Step.Guarded, GuardConfig.standard]

theorem storable_twoSources : twoSources.Storable := by
  simp [Storable, twoSources, oneVote, Step.payload, Operation.payload, Admits]

theorem storable_oneVote : oneVote.Storable := by
  simp [Storable, oneVote, Step.payload, Operation.payload, Admits]

theorem fitsMemory_twoSources : twoSources.FitsMemory := by
  simp [FitsMemory, twoSources, oneVote, Step.payload, Operation.payload]

end Run

namespace World

/-- The second source is permitted, and the first one is on record. -/
theorem permitted_vote_unrecorded_twoSources :
    (∀ s ∈ Run.twoSources, s.Guarded) ∧ Run.twoSources.Storable ∧ Run.twoSources.FitsMemory ∧
      (after Run.twoSources).log.getLast? =
        some ⟨.signAttestation Run.oneKey ⟨4, 6⟩ ⟨[1]⟩, .ok .permit⟩ ∧
      (after Run.twoSources).table.registry.idOf Run.oneKey = some ⟨1⟩ ∧
      ((after Run.twoSources).table.account ⟨1⟩).vote 6 = some (5, ⟨[1]⟩) ∧
      ((after Run.twoSources).table.account ⟨1⟩).vote 6 ≠ some (4, ⟨[1]⟩) := by
  refine ⟨Run.guarded_twoSources, Run.storable_twoSources, Run.fitsMemory_twoSources, ?_⟩
  decide +kernel

/-- Some vote with the root is on record all the same. -/
theorem permitted_vote_recorded_twoSources :
    (after Run.twoSources).log = (after Run.oneVote).log ++
        [⟨.signAttestation Run.oneKey ⟨4, 6⟩ ⟨[1]⟩, .ok .permit⟩] ∧
      ∃ id source, ((after Run.twoSources).table.account id).vote 6 = some (source, ⟨[1]⟩) := by
  have permitted : (after Run.twoSources).log = (after Run.oneVote).log ++
      [⟨.signAttestation Run.oneKey ⟨4, 6⟩ ⟨[1]⟩, .ok .permit⟩] := by
    decide +kernel
  have asked : (after Run.oneVote).ask 0 (.signAttestation Run.oneKey ⟨4, 6⟩ ⟨[1]⟩) [] =
      after Run.twoSources := by
    rw [after, Run.twoSources, after, List.foldl_append]
    rfl
  have sub : ∀ s ∈ Run.oneVote, s ∈ Run.twoSources := fun s hs => List.mem_append_left _ hs
  obtain ⟨id, source, -, recorded, -⟩ := permitted_vote_recorded
    (fun s hs => Run.guarded_twoSources s (sub s hs)) Run.storable_oneVote
    (fun s hs => Run.fitsMemory_twoSources s (sub s hs)) (by decide) asked permitted
  exact ⟨permitted, id, source, recorded⟩

end World

end SlashingGuard
