import SlashingGuard.Proofs.Guard.Contention
import SlashingGuard.Proofs.Guard.Operation
import SlashingGuard.Proofs.Interchange.Interruption

/-! # Contention

    Whatever locks are held elsewhere, nobody waits and nothing is done by
    halves that is not told.  A request or a prune goes as far as its own
    locks let it, an export as far as the first validator that has a lock
    held, and every operation gives back exactly the locks that it took. -/

namespace SlashingGuard

variable {α β : Type} {may : Prop} {c : Context} {t : Table Bytes}

/-! ## Work that fails -/

namespace ExportWork

/-- What comes behind work that fails is not done. -/
theorem Streams.bind_error {w : ExportWork α} {k : α → ExportWork β} {tokens : List String}
    {e : GuardError} (h : w.Streams may c t tokens fun r _ => r = .error e) :
    (w >>= k).Streams may c t tokens fun r _ => r = .error e := by
  intro s
  show Program.Always may (Program.bind ((w.run.run s).run c) _) t _
  rw [Program.always_bind]
  refine (h s).mono ?_
  rintro ⟨⟨r, s'⟩, c'⟩ t' ⟨⟨took, rfl⟩ | ⟨e', rfl, cut⟩, rfl, rfl⟩
  · exact ⟨.inl ⟨took, rfl⟩, rfl, rfl⟩
  · exact ⟨.inr ⟨e', rfl, cut⟩, rfl, rfl⟩

theorem streams_ofGuard_error {w : GuardWork α} {e : GuardError}
    (h : GuardWork.Always may w c t fun r c' t' => r = .error e ∧ c' = c ∧ t' = t) :
    (ofGuard w).Streams may c t [] fun r _ => r = .error e := by
  intro s
  show Program.Always may (Program.bind (w.run.run c) _) t _
  rw [Program.always_bind]
  refine Program.Always.mono h ?_
  rintro ⟨r, c'⟩ t' ⟨rfl, rfl, rfl⟩
  exact ⟨.inl ⟨s.took_empty, rfl⟩, rfl, rfl⟩

/-- Where nothing fails, a sink that takes everything has all that was written. -/
theorem Streams.underFaults_nil {w : ExportWork α} {tokens : List String}
    {Q : Except GuardError α → Sink → Prop} (h : w.Streams False c t tokens Q) {s : Sink}
    (unlimited : s.room = none) :
    ∃ reply, Q reply { s with accepted := s.accepted ++ String.join tokens } ∧
      w.underFaults s c [] t =
        (reply, { s with accepted := s.accepted ++ String.join tokens }, c, t) := by
  have ends := (h.unlimited unlimited).runFaulty_nil
  unfold underFaults
  generalize ((w.run.run s).run c).runFaulty [] t = result at ends ⊢
  obtain ⟨⟨⟨reply, s'⟩, c'⟩, t'⟩ := result
  obtain ⟨post, rfl, rfl, rfl⟩ := ends
  exact ⟨reply, post, rfl⟩

end ExportWork

/-! ## Exports -/

/-- The lock at which whoever needs both locks of a validator is turned away: the one for blocks is
    asked for first. -/
def Guard.Bars (g : Guard) (id : ValidatorId) (kind : DutyKind) : Prop :=
  (id, kind) ∈ g.held ∧ (kind = .attestation → (id, .block) ∉ g.held)

namespace Interchange

open ExportWork

variable {id : ValidatorId} {kind : DutyKind}

/-- A document tells what a ledger holds of the validators before one, and of no others. -/
structure Document.TellsBefore (t : Table Bytes) (genesisRoot : SigningRoot) (id : ValidatorId)
    (d : Document) : Prop where
  metadata : d.metadata = ⟨"5", genesisRoot⟩
  histories : ∃ ids : List ValidatorId, ids.Pairwise (fun a b => a.number < b.number) ∧
    (∀ other, other ∈ ids ↔ t.isRegistered other ∧ other.number < id.number) ∧
    List.Forall₂ (History.Tells t) ids d.histories

/-- What an export does when locks are held elsewhere.  It fails at the first validator that is
    barred: by then the sink has the document of the validators before it, which is not closed. -/
structure ExportMindsLocks (c : Context) (t : Table Bytes) (s : Sink) : Prop where
  barred : ∀ id kind, t.isRegistered id → c.guard.Bars id kind →
    (∀ other, t.isRegistered other → other.number < id.number → c.guard.Frees other) →
    ∃ d written, Document.TellsBefore t c.guard.config.genesisRoot id d ∧
      written ++ String.join (closing (!d.histories.isEmpty)) = Json.pretty d.toJson ∧
      exportAll.underFaults s c [] t =
        (.error (.ledger (.lockTimeout id kind c.guard.config.lockTimeout)),
          { s with accepted := s.accepted ++ written }, c, t)
  free : (∀ id, t.isRegistered id → c.guard.Frees id) → ∃ reply left,
    exportAll.underFaults s (c.withHeld []) [] t = (reply, left, c.withHeld [], t) ∧
    exportAll.underFaults s c [] t = (reply, left, c, t)

/-- The text of a document is what is written of it before it is closed, and the closing. -/
theorem pretty_document (d : Document) :
    String.join (opening d.metadata ++ entries true d.histories) ++
      String.join (closing (!d.histories.isEmpty)) = Json.pretty d.toJson := by
  rw [← String.join_append, List.append_assoc, tokens_document, Json.pretty]

/-- The history of a validator that is barred cannot be read. -/
theorem always_loadHistory_barred (barred : c.guard.Bars id kind) (key : PublicKey) :
    GuardWork.Always may (loadHistory id key) c t fun r c' t' =>
      r = .error (.ledger (.lockTimeout id kind c.guard.config.lockTimeout)) ∧ c' = c ∧ t' = t := by
  obtain ⟨held, second⟩ := barred
  cases kind with
  | block => exact GuardWork.always_withLock_held held ⟨rfl, rfl, rfl⟩
  | attestation =>
    -- The lock for blocks is taken, and given back when the other is not to be had.
    apply GuardWork.always_withLock (second rfl)
    apply GuardWork.always_withLock_held
    · exact List.mem_cons_of_mem _ held
    · exact ⟨rfl, GuardWork.freed_holding c _, rfl⟩

/-- Histories are written up to the first that cannot be read. -/
theorem streams_emitHistories_barred (legible : t.Legible) (first : Bool)
    (before rest : List (ValidatorId × PublicKey)) (key : PublicKey)
    (free : ∀ v ∈ before, c.guard.Frees v.1) (barred : c.guard.Bars id kind) :
    (emitHistories first (before ++ (id, key) :: rest)).Streams may c t
      (entries first (before.map fun v => historyIn t v.1 v.2)) fun r _ =>
        r = .error (.ledger (.lockTimeout id kind c.guard.config.lockTimeout)) := by
  induction before generalizing first with
  | nil => exact (streams_ofGuard_error (always_loadHistory_barred barred key)).bind_error
  | cons validator before ih =>
    have here : may ∨ c.guard.Frees validator.1 := .inr (free _ (.head before))
    have later : ∀ v ∈ before, c.guard.Frees v.1 := fun v member => free v (.tail _ member)
    have loads := reads_loadHistory legible here validator.2
    exact (streams_ofGuard loads).bind ((streams_emit _).bind (ih false later))

/-- An export stops at the first validator that is barred. -/
theorem streams_exportAll_barred (legible : t.Legible)
    {before rest : List (ValidatorId × PublicKey)} {key : PublicKey}
    (listed : t.validators = before ++ (id, key) :: rest)
    (free : ∀ v ∈ before, c.guard.Frees v.1) (barred : c.guard.Bars id kind) :
    exportAll.Streams may c t
      (opening (Metadata.current c.guard.config.genesisRoot) ++
        entries true (before.map fun v => historyIn t v.1 v.2)) fun r _ =>
        r = .error (.ledger (.lockTimeout id kind c.guard.config.lockTimeout)) := by
  have validators : (readNow Ledger.validators).Reads may c t t.validators :=
    GuardWork.reads_readNow (Ledger.yields_validators legible)
  have histories : (emitHistories true (before ++ (id, key) :: rest)).Streams may c t _ _ :=
    streams_emitHistories_barred legible true before rest key free barred
  rw [← listed] at histories
  exact (streams_ofGuard validators).bind ((streams_ofGuard GuardWork.reads_theGuard).bind
    ((streams_emit _).bind histories.bind_error))

/-- The validators that are listed before one are those with smaller numbers. -/
theorem mem_listed_before (legible : t.Legible) {before rest : List (ValidatorId × PublicKey)}
    {key : PublicKey} (listed : t.validators = before ++ (id, key) :: rest)
    {other : ValidatorId} :
    other ∈ before.map Prod.fst ↔ t.isRegistered other ∧ other.number < id.number := by
  have ascending := Table.ascending_validators legible
  rw [listed, List.pairwise_append, List.pairwise_cons] at ascending
  obtain ⟨-, ⟨after, -⟩, less⟩ := ascending
  rw [Table.isRegistered, Option.isSome_iff_exists, List.mem_map]
  simp only [← Table.mem_validators legible, listed]
  constructor
  · rintro ⟨v, member, rfl⟩
    exact ⟨⟨v.2, List.mem_append_left _ member⟩, less v member _ List.mem_cons_self⟩
  · rintro ⟨⟨otherKey, member⟩, lt⟩
    rw [List.mem_append, List.mem_cons] at member
    rcases member with member | same | member
    · exact ⟨_, member, rfl⟩
    · obtain rfl : other = id := congrArg Prod.fst same
      exact absurd lt (Nat.lt_irrefl _)
    · exact absurd (after _ member) (Nat.lt_asymm lt)

theorem tellsBefore_of_listed (legible : t.Legible) (genesisRoot : SigningRoot)
    {before rest : List (ValidatorId × PublicKey)} {key : PublicKey}
    (listed : t.validators = before ++ (id, key) :: rest) :
    Document.TellsBefore t genesisRoot id
      ⟨Metadata.current genesisRoot, before.map fun v => historyIn t v.1 v.2⟩ where
  metadata := rfl
  histories := by
    have ascending := Table.ascending_validators legible
    rw [listed, List.pairwise_append] at ascending
    refine ⟨before.map Prod.fst, ascending.1.map _ fun _ _ lt => lt,
      fun _ => mem_listed_before legible listed, ?_⟩
    rw [List.forall₂_map_left_iff, List.forall₂_map_right_iff]
    refine List.forall₂_same.2 fun v member => tells_historyIn legible ?_
    apply (Table.mem_validators legible).1
    rw [listed]
    exact List.mem_append_left _ member

theorem exportMindsLocks (legible : t.Legible) {s : Sink} (unlimited : s.room = none) :
    ExportMindsLocks c t s where
  barred id kind registered barred first := by
    obtain ⟨key, known⟩ := Option.isSome_iff_exists.1 registered
    obtain ⟨before, rest, listed⟩ :=
      List.append_of_mem ((Table.mem_validators legible).2 known)
    have free : ∀ v ∈ before, c.guard.Frees v.1 := by
      intro v member
      obtain ⟨registered, lt⟩ :=
        (mem_listed_before legible listed).1 (List.mem_map_of_mem member)
      exact first v.1 registered lt
    obtain ⟨_, rfl, ends⟩ :=
      (streams_exportAll_barred legible listed free barred).underFaults_nil unlimited
    exact ⟨_, _, tellsBefore_of_listed legible c.guard.config.genesisRoot listed,
      pretty_document _, ends⟩
  free free := by
    have idle : ∀ v ∈ t.validators, (c.withHeld []).guard.Frees v.1 :=
      fun v _ => Guard.frees_of_idle rfl v.1
    have listed : ∀ v ∈ t.validators, c.guard.Frees v.1 := by
      intro v member
      apply free
      rw [Table.isRegistered, (Table.mem_validators legible).1 member]
      rfl
    obtain ⟨_, rfl, here⟩ := (streams_exportAll legible (.inr listed)).underFaults_nil unlimited
    obtain ⟨_, rfl, there⟩ := (streams_exportAll legible (.inr idle)).underFaults_nil unlimited
    exact ⟨_, _, there, here⟩

end Interchange

/-! ## Operations -/

/-- Whatever an operation replies, the locks that were held before it are held after it. -/
theorem Operation.held_underFaults (wf : t.WellFormed) (op : Operation)
    (faults : Store.FaultSchedule) :
    (op.perform.underFaults c faults t).2.1.guard.held = c.guard.held :=
  (op.always_perform (c := c) wf).runFaulty faults |>.held

/-- Locks that are held elsewhere have no effect but to turn away who needs them. -/
theorem held_locks_have_no_effect (wf : t.WellFormed) (enabled : c.guard.config.enabled) :
    (∀ key faults,
      (∀ slot root, Guard.MindsLock (Guard.signBlock key slot root) c key .block faults t) ∧
      ∀ vote root,
        Guard.MindsLock (Guard.signAttestation key vote root) c key .attestation faults t) ∧
    (∀ id e p, e ≠ 0 → p ≠ 0 → Guard.PruneMindsLocks c t id e p) ∧
    (∀ s : Sink, s.room = none → Interchange.ExportMindsLocks c t s) ∧
    ∀ (op : Operation) faults,
      (op.perform.underFaults c faults t).2.1.guard.held = c.guard.held := by
  refine ⟨fun key faults => ⟨fun slot root => ?_, fun vote root => ?_⟩, ?_, ?_, ?_⟩
  · exact Guard.mindsLock_answer enabled _ faults
  · exact Guard.mindsLock_answer enabled _ faults
  · intro id e p he hp
    exact Guard.pruneMindsLocks wf.regular he hp
  · intro s unlimited
    exact Interchange.exportMindsLocks wf.regular.toLegible unlimited
  · intro op faults
    exact op.held_underFaults wf faults

/-- A guard that knows two validators; of the second the lock for attestations is held. -/
def Context.waitingForOne : Context :=
  ⟨⟨.standard, [(⟨[7]⟩, ⟨1⟩), (⟨[8]⟩, ⟨2⟩)], [(⟨2⟩, .attestation)]⟩, .zero⟩

/-- Their ledger. -/
def Table.ofTwo : Table Bytes :=
  ((Table.empty.enroll ⟨[7]⟩ 1).enroll ⟨[8]⟩ 2).recordBlock ⟨2⟩ 4 ⟨[5]⟩

/-- The second may have a block signed and no attestation, it is pruned by half, and an export has
    written the first when it fails. -/
theorem held_locks_have_no_effect_waitingForOne :
    Table.ofTwo.WellFormed ∧ Context.waitingForOne.guard.config.enabled ∧
    (Guard.signBlock ⟨[8]⟩ 5 ⟨[1]⟩).AsIdle .waitingForOne [] .ofTwo ∧
    (Guard.signAttestation ⟨[8]⟩ ⟨1, 2⟩ ⟨[1]⟩).TurnedAway .waitingForOne (⟨2⟩, .attestation) []
      .ofTwo ∧
    ((Guard.pruneValidator ⟨2⟩ 1 1).onTable .waitingForOne .ofTwo).1 =
      .error (.ledger (.lockTimeout ⟨2⟩ .attestation
        Context.waitingForOne.guard.config.lockTimeout)) ∧
    ∃ d written, Interchange.Document.TellsBefore .ofTwo ⟨List.replicate 32 0⟩ ⟨2⟩ d ∧
      written ++ String.join (Interchange.closing (!d.histories.isEmpty)) =
        Json.pretty d.toJson ∧
      Interchange.exportAll.underFaults .unlimited .waitingForOne [] .ofTwo =
        (.error (.ledger (.lockTimeout ⟨2⟩ .attestation
          Context.waitingForOne.guard.config.lockTimeout)), .taking written, .waitingForOne,
          .ofTwo) := by
  have wf : Table.ofTwo.WellFormed :=
    ((Table.WellFormed.empty.enroll ⟨[7]⟩ 1).enroll ⟨[8]⟩ 2).recordBlock rfl 4 ⟨[5]⟩
  have barred : Context.waitingForOne.guard.Bars ⟨2⟩ .attestation := ⟨by decide, by decide⟩
  have first : ∀ other, Table.ofTwo.isRegistered other → other.number < 2 →
      Context.waitingForOne.guard.Frees other := by
    rintro other - less kind held
    obtain rfl : other = ⟨2⟩ := congrArg Prod.fst (List.mem_singleton.1 held)
    exact absurd less (by decide)
  have blockFree : ∀ id, Context.waitingForOne.guard.validatorId? ⟨[8]⟩ = some id →
      (id, .block) ∉ Context.waitingForOne.guard.held := by
    intro id _ held
    have kinds : DutyKind.block = .attestation := congrArg Prod.snd (List.mem_singleton.1 held)
    contradiction
  have enabled : Context.waitingForOne.guard.config.enabled := rfl
  obtain ⟨requests, prunes, exports, -⟩ := held_locks_have_no_effect wf enabled
  obtain ⟨outcome, c', whole, left, -, stopped, -⟩ :=
    (prunes ⟨2⟩ 1 1 (by decide) (by decide)).attestations (by decide) (by decide)
  obtain ⟨d, written, tells, text, failed⟩ :=
    (exports .unlimited rfl).barred ⟨2⟩ .attestation (by decide +kernel) barred first
  refine ⟨wf, enabled, ((requests ⟨[8]⟩ []).1 5 ⟨[1]⟩).free blockFree,
    ((requests ⟨[8]⟩ []).2 ⟨1, 2⟩ ⟨[1]⟩).held ⟨2⟩ rfl barred.1, congrArg Prod.fst stopped,
    d, written, tells, text, ?_⟩
  rw [failed]
  exact congrArg (fun accepted => (_, Sink.taking accepted, _, _)) String.empty_append

end SlashingGuard
