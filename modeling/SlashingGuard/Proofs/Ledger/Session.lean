import SlashingGuard.Proofs.Ledger.Buffering
import SlashingGuard.Proofs.Ledger.Described
import SlashingGuard.Proofs.Ledger.Writes

/-! # Sessions

    A session works on a ledger in transactions, one after the other: what it
    has committed stands in the table, and what its current transaction has
    put in or deleted is pending.  Such a session and an archive that starts
    with the same records give the same answers to the same calls, however the
    calls are divided by commits, and afterwards every query tells what is in
    the archive. -/

namespace SlashingGuard

/-! ## Sessions -/

/-- A table, and what the current transaction has pending. -/
structure Session where
  table : Table Bytes
  pending : Pending

/-- The call as a step of a transaction; its value is the number of records deleted. -/
def RecordCall.perform : RecordCall → Transaction Nat
  | .insertBlock id slot root => do
    Ledger.insertBlock id slot root
    return 0
  | .insertAttestation id vote root => do
    Ledger.insertAttestation id vote root
    return 0
  | .deleteBlocksBelow id slot => Ledger.deleteBlocksBelow id slot
  | .deleteAttestationsBelow id target => Ledger.deleteAttestationsBelow id target

namespace Session

/-- The table that the current transaction sees. -/
def seen (s : Session) : Table Bytes := s.table.overlaid s.pending

/-- Takes a step; behind a commit the next transaction begins. -/
def take (s : Session) : RecordStep → Except LedgerError Nat × Session
  | .call c =>
    let ((answer, pending), table) := (c.perform.run.run s.pending).run Table.serve s.table
    (answer, ⟨table, pending⟩)
  | .commit =>
    let (answer, table) := LedgerWork.onTable (LedgerWork.commit s.pending) s.table
    (answer.map fun _ => 0, ⟨table, Table.empty⟩)

def takeAll (s : Session) (steps : List RecordStep) :
    List (Except LedgerError Nat) × Session :=
  takeEach take s steps

/-- The answer to a query in the current transaction, and the session left. -/
def ask {α : Type} (s : Session) (q : Query α) : Except LedgerError α × Session :=
  let (answer, table) := LedgerWork.onTable (q s.pending) s.table
  (answer, ⟨table, s.pending⟩)

/-- A commit makes the table the one seen. -/
theorem onTable_commit (s : Session) :
    LedgerWork.onTable (LedgerWork.commit s.pending) s.table = (.ok (), s.seen) := by
  have ends : (LedgerWork.commit s.pending).run.Always False s.table
      fun r t' => (r, t') = (.ok (), s.seen) := LedgerWork.always_commit rfl nofun
  exact ends.run_serve

end Session

/-! ## One step -/

/-- Whether a root fits into the value of a record, which holds its length in eight bytes. -/
def RecordStep.Short : RecordStep → Prop
  | .call (.insertAttestation _ _ root) => root.bytes.length < 2 ^ 64
  | _ => True

/-- An archive and a ledger after the same step: they have answered the same, the archive
    describes the ledger as before, and what changes nothing in the archive changes nothing in the
    ledger. -/
structure Agree (m : Archive) (v : Table Bytes) (out : Except LedgerError Nat × Archive)
    (answer : Except LedgerError Nat) (v' : Table Bytes) : Prop where
  answer : out.1 = answer
  legible : v'.Legible
  describes : out.2.Describes v'
  unchanged : out.2 = m → v' = v

namespace Archive.Describes

open Ledger

variable {m : Archive} {v : Table Bytes}

/-- A call that the archive refuses, or that changes nothing, leaves the ledger as it is. -/
theorem still (h : m.Describes v) (legible : v.Legible) {answer : Except LedgerError Nat} :
    Agree m v (answer, m) answer v :=
  ⟨rfl, legible, h, fun _ => rfl⟩

theorem always_insertBlock (h : m.Describes v) (legible : v.Legible) (id : ValidatorId)
    (slot : Slot) (root : SigningRoot) :
    Transaction.Always False (RecordCall.insertBlock id slot root).perform v
      (fun n v' => Agree m v (m.call (.insertBlock id slot root)) (.ok n) v')
      (fun e v' => Agree m v (m.call (.insertBlock id slot root)) (.error e) v') := by
  have at? : Records.at? m.blocks id slot = v.blockAt id slot :=
    h.blocks.at?_eq v.filed_blockAt id slot
  refine Transaction.Always.bind (Ledger.always_insertBlock (fun unregistered => ?_)
    (fun registered free => ?_) (fun registered stored => ?_)
    (fun registered signed stored differ => ?_) fun f => f.elim)
  · have unknown : id ∉ m.validators := by simp [h.validators, unregistered]
    rw [call_insertBlock_unknown unknown]
    exact h.still legible
  · have reads : (Place.block id slot).Reads root.bytes := trivial
    have there : Records.at? m.blocks id slot = none := by
      rw [at?, Table.blockAt, free, Option.map_none]
    rw [call_insertBlock_free ((h.validators id).2 registered) there]
    refine Transaction.always_pure ⟨rfl, legible.insert reads, h.putBlock free, fun same => ?_⟩
    have longer := congrArg (List.length ∘ Archive.blocks) same
    simp at longer
  · have there : Records.at? m.blocks id slot = some ⟨id, slot, root⟩ := by
      rw [at?, Table.blockAt, stored, Option.map_some]
    rw [call_insertBlock_taken ((h.validators id).2 registered) there root, if_pos rfl]
    exact Transaction.always_pure (h.still legible)
  · have there : Records.at? m.blocks id slot = some ⟨id, slot, signed⟩ := by
      rw [at?, Table.blockAt, stored, Option.map_some]
    rw [call_insertBlock_taken ((h.validators id).2 registered) there root, if_neg differ]
    exact h.still legible

theorem always_insertAttestation (h : m.Describes v) (legible : v.Legible) (id : ValidatorId)
    (vote : Vote) {root : SigningRoot} (short : root.bytes.length < 2 ^ 64) :
    Transaction.Always False (RecordCall.insertAttestation id vote root).perform v
      (fun n v' => Agree m v (m.call (.insertAttestation id vote root)) (.ok n) v')
      (fun e v' => Agree m v (m.call (.insertAttestation id vote root)) (.error e) v') := by
  have at? : Records.at? m.attestations id vote.target = v.attestationAt id vote.target :=
    h.attestations.at?_eq v.filed_attestationAt id vote.target
  refine Transaction.Always.bind (Ledger.always_insertAttestation legible
    (fun unregistered => ?_) (fun registered disordered => ?_)
    (fun registered ordered free => ?_) (fun registered ordered stored => ?_)
    (fun registered ordered source signed stored differ => ?_) fun f => f.elim)
  · have unknown : id ∉ m.validators := by simp [h.validators, unregistered]
    rw [call_insertAttestation_unknown unknown]
    exact h.still legible
  · rw [call_insertAttestation_disordered ((h.validators id).2 registered) disordered]
    exact h.still legible
  · have reads : (Place.attestation id vote.target).Reads
        (LedgerValue.writeAttestation vote.source root) :=
      ⟨_, _, LedgerValue.readAttestation_writeAttestation _ _⟩
    have there : Records.at? m.attestations id vote.target = none := by
      rw [at?, Table.attestationAt, free, Option.map_none]
    rw [call_insertAttestation_free ((h.validators id).2 registered) ordered there]
    refine Transaction.always_pure
      ⟨rfl, legible.insert reads, h.putVote short free, fun same => ?_⟩
    have longer := congrArg (List.length ∘ Archive.attestations) same
    simp at longer
  · have there : Records.at? m.attestations id vote.target =
        some ⟨id, vote.source, vote.target, root⟩ := by
      rw [at?, Table.attestationAt, stored, Option.map_some]
    rw [call_insertAttestation_taken ((h.validators id).2 registered) ordered there root,
      if_pos ⟨rfl, rfl⟩]
    exact Transaction.always_pure (h.still legible)
  · have there : Records.at? m.attestations id vote.target =
        some ⟨id, source, vote.target, signed⟩ := by
      rw [at?, Table.attestationAt, stored, Option.map_some]
    rw [call_insertAttestation_taken ((h.validators id).2 registered) ordered there root,
      if_neg (not_and_or.2 differ)]
    exact h.still legible

/-- Records of one duty kind are deleted as often as the archive counts them below the bound, and if
    the archive has none there, the ledger stays as it is. -/
theorem always_deleteRecords {R : Type} [Numbered R] {l listing : List R}
    {held : ValidatorId → UInt64 → Option R} (legible : v.Legible) (kind : DutyKind)
    (what : RecordKind) (id : ValidatorId) (bound : UInt64) (lists : Records.Lists l held)
    (filed : Records.Filed held) (listed : Records.Listing l id listing)
    (length_below : (listing.filter fun r => Numbered.number r < bound).length =
      ((v.scan (kind.family.scope id)).filter fun entry =>
        entry.1 < kind.family.indexed id bound).length)
    (recorded : ∀ n ∈ (v.account id).recorded kind, (held id n).isSome)
    {Q : Nat → Table Bytes → Prop} {E : LedgerError → Table Bytes → Prop}
    (done : ((Records.deleteBelow l id bound).2 = l → v.dropBelow kind.family id bound = v) →
      Q (l.countP (Records.isBelow id bound)) (v.dropBelow kind.family id bound)) :
    Transaction.Always False (deleteBelow kind.family what id bound) v Q E := by
  refine always_deleteBelow (legible.indexed_records kind id) what bound ?_ fun f => f.elim
  rw [← length_below, ← listed.countP bound]
  refine done fun kept => Table.dropBelow_eq_self legible kind fun n below there => ?_
  -- A record below the bound would be in the archive, and the deletion would not have left it.
  obtain ⟨r, stored⟩ := Option.isSome_iff_exists.1 (recorded n there)
  obtain ⟨owner, number⟩ := filed id n r stored
  have member : r ∈ (Records.deleteBelow l id bound).2 := by
    rw [kept, lists.mem, owner, number]
    exact stored
  exact (Records.mem_deleteBelow.1 member).2 ⟨owner, number ▸ below⟩

/-- A call in a transaction that sees a described ledger. -/
theorem always_perform (h : m.Describes v) (legible : v.Legible) {c : RecordCall}
    (short : (RecordStep.call c).Short) :
    Transaction.Always False c.perform v (fun n v' => Agree m v (m.call c) (.ok n) v')
      (fun e v' => Agree m v (m.call c) (.error e) v') := by
  cases c with
  | insertBlock id slot root => exact h.always_insertBlock legible id slot root
  | insertAttestation id vote root => exact h.always_insertAttestation legible id vote short
  | deleteBlocksBelow id slot =>
    refine always_deleteRecords legible .block _ id slot h.blocks v.filed_blockAt
      (h.listing_blocks legible id) (Table.length_blocks_below legible id slot) ?_ ?_
    · intro n there
      simpa [Table.blockAt] using there
    · intro still
      exact ⟨rfl, legible.dropBelow .block id slot, h.dropBlocks id slot,
        fun same => still (congrArg Archive.blocks same)⟩
  | deleteAttestationsBelow id target =>
    refine always_deleteRecords legible .attestation _ id target h.attestations v.filed_attestationAt
      (h.listing_votes legible id) (Table.length_votes_below legible id target) ?_ ?_
    · intro n there
      simpa [Table.attestationAt] using there
    · intro still
      exact ⟨rfl, legible.dropBelow .attestation id target, h.dropVotes id target,
        fun same => still (congrArg Archive.attestations same)⟩

/-- A step of a session: a call leaves the table as it is, and a commit makes it the one seen. -/
theorem take {s : Session} (h : m.Describes s.seen) (legible : s.seen.Legible)
    (step : RecordStep) (short : step.Short) :
    Agree m s.seen (m.take step) (s.take step).1 (s.take step).2.seen ∧
      (s.take step).2.table = if step = .commit then s.seen else s.table := by
  cases step with
  | call c =>
    have ends := (h.always_perform legible short s.table s.pending rfl).run_serve
    show Agree m s.seen (m.call c) (s.take (.call c)).1 (s.take (.call c)).2.seen ∧
      (s.take (.call c)).2.table = s.table
    simp only [Session.take]
    generalize (c.perform.run.run s.pending).run Table.serve s.table = out at ends
    obtain ⟨⟨answer, pending⟩, table⟩ := out
    obtain ⟨rfl, post⟩ := ends
    cases answer with
    | ok n => exact ⟨post, rfl⟩
    | error e => exact ⟨post, rfl⟩
  | commit =>
    have taken : s.take .commit = (.ok 0, ⟨s.seen, Table.empty⟩) := by
      rw [Session.take, Session.onTable_commit]
      rfl
    rw [taken]
    exact ⟨h.still legible, rfl⟩

end Archive.Describes

/-! ## Runs -/

namespace Session

variable {m : Archive} {s : Session}

/-- After the same steps an archive has answered the same as a session, and describes what the
    session sees. -/
theorem takeAll_describes (describes : m.Describes s.seen) (legible : s.seen.Legible)
    {steps : List RecordStep} (short : ∀ step ∈ steps, step.Short) :
    (s.takeAll steps).1 = (m.takeAll steps).1 ∧ (s.takeAll steps).2.seen.Legible ∧
      (m.takeAll steps).2.Describes (s.takeAll steps).2.seen := by
  induction steps generalizing m s with
  | nil => exact ⟨rfl, legible, describes⟩
  | cons step rest ih =>
    obtain ⟨first, others⟩ := List.forall_mem_cons.1 short
    obtain ⟨agree, -⟩ := describes.take legible step first
    obtain ⟨answers, later⟩ := ih agree.describes agree.legible others
    exact ⟨congrArg₂ List.cons agree.answer.symm answers, later⟩

/-! ## Queries -/

open Ledger

/-- What the queries of a session tell is what is in an archive, and they leave the session as it
    is. -/
structure Shows (s : Session) (m : Archive) : Prop where
  blocks : ∀ id, ∃ listing, s.ask (Ledger.blocks id) = (.ok listing, s) ∧
    Records.Listing m.blocks id listing
  newestSlot : ∀ id, ∃ newest, s.ask (newestSlot? id) = (.ok newest, s) ∧
    newest.map UInt64.toNat = Records.newest? m.blocks id
  blockAt : ∀ id slot, s.ask (blockAt? id slot) = (.ok (Records.at? m.blocks id slot), s)
  attestations : ∀ id, ∃ listing, s.ask (Ledger.attestations id) = (.ok listing, s) ∧
    Records.Listing m.attestations id listing ∧ ∀ vote : Vote,
      s.ask (surrounding id vote) =
        (.ok (listing.filter fun a => a.source < vote.source ∧ vote.target < a.target), s) ∧
      s.ask (surrounded id vote) =
        (.ok (listing.filter fun a => vote.source < a.source ∧ a.target < vote.target), s)
  newestTarget : ∀ id, ∃ newest, s.ask (newestTarget? id) = (.ok newest, s) ∧
    newest.map UInt64.toNat = Records.newest? m.attestations id
  attestationAt : ∀ id target,
    s.ask (attestationAt? id target) = (.ok (Records.at? m.attestations id target), s)

theorem ask_of_yields {α : Type} {q : Query α} {r : Except LedgerError α}
    (h : q.Yields s.seen r) : s.ask q = (r, s) := by
  rw [ask, Pending.onTable_of_yields h]

theorem shows_of_describes (describes : m.Describes s.seen) (legible : s.seen.Legible) :
    s.Shows m where
  blocks id := ⟨_, ask_of_yields (yields_blocks legible id), describes.listing_blocks legible id⟩
  newestSlot id := by
    refine ⟨_, ask_of_yields (yields_newestSlot? legible id), ?_⟩
    refine describes.blocks.newest?_eq s.seen.filed_blockAt
      (Table.ascending_numbers legible .block id) fun n => ?_
    have recorded : n ∈ s.seen.numbers DutyKind.block.family id ↔
        n ∈ (s.seen.account id).recorded .block := Table.mem_numbers legible
    exact recorded.trans (by rw [Account.mem_recorded_block, Table.blockAt, Option.isSome_map])
  blockAt id slot := by
    rw [describes.blocks.at?_eq s.seen.filed_blockAt]
    exact ask_of_yields (yields_blockAt? s.seen id slot)
  attestations id := by
    refine ⟨_, ask_of_yields (yields_attestations legible id), describes.listing_votes legible id,
      fun vote => ?_⟩
    simp only [Bool.decide_and]
    exact ⟨ask_of_yields (yields_surrounding legible id vote),
      ask_of_yields (yields_surrounded legible id vote)⟩
  newestTarget id := by
    refine ⟨_, ask_of_yields (yields_newestTarget? legible id), ?_⟩
    refine describes.attestations.newest?_eq s.seen.filed_attestationAt
      (Table.ascending_numbers legible .attestation id) fun n => ?_
    have recorded : n ∈ s.seen.numbers DutyKind.attestation.family id ↔
        n ∈ (s.seen.account id).recorded .attestation := Table.mem_numbers legible
    exact recorded.trans
      (by rw [Account.mem_recorded_attestation, Table.attestationAt, Option.isSome_map])
  attestationAt id target := by
    rw [describes.attestations.at?_eq s.seen.filed_attestationAt]
    exact ask_of_yields (yields_attestationAt? legible id target)

end Session

/-- A session on a legible ledger and an archive that starts with the same records stay in step,
    and there is such an archive for every ledger.  Whatever steps are taken, and whichever of them
    are commits: the answers are the same, refusals and numbers of deleted records included; the
    queries show what is in the archive; and that is what was there or was put in and has not been
    deleted since.

    Of the next step: one that leaves the archive as it is leaves the ledger as it is, and only a
    commit changes the table.  At a slot or a target that is taken the same record is accepted and
    changes nothing, and any other is refused. -/
theorem session_reads_as_archive {s : Session} (legible : s.seen.Legible) :
    (∃ m : Archive, m.Describes s.seen) ∧
    ∀ (m : Archive) (steps : List RecordStep), m.Describes s.seen →
      (∀ step ∈ steps, step.Short) →
      let s' := (s.takeAll steps).2
      let m' := (m.takeAll steps).2
      (s.takeAll steps).1 = (m.takeAll steps).1 ∧ s'.Shows m' ∧
        (∀ b, b ∈ m'.blocks ↔ m.BlockStands steps b) ∧
        (∀ a, a ∈ m'.attestations ↔ m.AttestationStands steps a) ∧
        (∀ step, step.Short →
          ((m'.take step).2 = m' → (s'.take step).2.seen = s'.seen) ∧
          (s'.take step).2.table = if step = .commit then s'.seen else s'.table) ∧
        (∀ id slot root signed, id ∈ m'.validators →
          Records.at? m'.blocks id slot = some ⟨id, slot, signed⟩ →
          let again := s'.take (.call (.insertBlock id slot root))
          again.1 = (if signed = root then .ok 0
            else .error (.breach (.takenSlot id slot signed root))) ∧ again.2.seen = s'.seen) ∧
        ∀ id vote root source signed, id ∈ m'.validators → vote.source ≤ vote.target →
          root.bytes.length < 2 ^ 64 →
          Records.at? m'.attestations id vote.target = some ⟨id, source, vote.target, signed⟩ →
          let again := s'.take (.call (.insertAttestation id vote root))
          again.1 = (if signed = root ∧ source = vote.source then .ok 0
            else .error (.breach (.takenTarget id vote.target signed root))) ∧
            again.2.seen = s'.seen := by
  refine ⟨legible.exists_describes, fun m steps describes short => ?_⟩
  obtain ⟨answers, legible', describes'⟩ := Session.takeAll_describes describes legible short
  refine ⟨answers, Session.shows_of_describes describes' legible',
    fun b => Archive.mem_blocks_takeAll, fun a => Archive.mem_attestations_takeAll,
    fun step short => ?_, fun id slot root signed known taken => ?_,
    fun id vote root source signed known ordered short taken => ?_⟩
  · obtain ⟨agree, table⟩ := describes'.take legible' step short
    exact ⟨agree.unchanged, table⟩
  · have same := Archive.call_insertBlock_taken known taken root
    obtain ⟨agree, -⟩ := describes'.take legible' (.call (.insertBlock id slot root)) trivial
    exact ⟨agree.answer.symm.trans (congrArg Prod.fst same),
      agree.unchanged (congrArg Prod.snd same)⟩
  · have same := Archive.call_insertAttestation_taken known ordered taken root
    obtain ⟨agree, -⟩ := describes'.take legible' (.call (.insertAttestation id vote root)) short
    exact ⟨agree.answer.symm.trans (congrArg Prod.fst same),
      agree.unchanged (congrArg Prod.snd same)⟩

/-- Two validators are registered.  The first gets blocks at slots 256 and 255, in this order and in
    two transactions, and the second one at slot 7; then the first loses what it has below 256. -/
theorem session_reads_as_archive_twoValidators :
    let first : ValidatorId := ⟨1⟩
    let second : ValidatorId := ⟨2⟩
    let t : Table Bytes := (Table.empty.enroll ⟨[1]⟩ 1).enroll ⟨[2]⟩ 2
    let steps : List RecordStep :=
      [.call (.insertBlock first 256 ⟨[9]⟩), .commit, .call (.insertBlock first 255 ⟨[8]⟩),
        .call (.insertBlock second 7 ⟨[7]⟩), .call (.insertAttestation first ⟨1, 2⟩ ⟨[6]⟩),
        .call (.insertBlock first 255 ⟨[5]⟩), .call (.deleteBlocksBelow first 256)]
    let out := (Session.mk t Table.empty).takeAll steps
    out.1 = [.ok 0, .ok 0, .ok 0, .ok 0, .ok 0,
        .error (.breach (.takenSlot first 255 ⟨[8]⟩ ⟨[5]⟩)), .ok 1] ∧
      out.2.ask (Ledger.newestSlot? first) = (.ok (some 256), out.2) ∧
      out.2.ask (Ledger.blockAt? first 255) = (.ok none, out.2) ∧
      out.2.ask (Ledger.blockAt? second 7) = (.ok (some ⟨second, 7, ⟨[7]⟩⟩), out.2) := by
  intro first second t steps out
  have legible : (Session.mk t Table.empty).seen.Legible :=
    ((Table.WellFormed.empty.enroll ⟨[1]⟩ 1).enroll ⟨[2]⟩ 2).legible
  have account : ∀ id, t.account id = Table.empty.account id := fun id => by
    rw [Table.account_enroll, Table.account_enroll]
  have describes :
      Archive.Describes ⟨[first, second], [], []⟩ (Session.mk t Table.empty).seen := by
    refine ⟨fun id => ?_, ⟨List.nodup_nil, fun b => ?_⟩, ⟨List.nodup_nil, fun a => ?_⟩⟩
    · show id ∈ [first, second] ↔ t.isRegistered id
      rw [Table.isRegistered, Table.registry_enroll, Table.registry_enroll, List.mem_pair]
      have none : Table.empty.registry.keyOf id = none := rfl
      by_cases one : id = first <;> by_cases two : id = second <;>
        simp_all [Registry.enroll, first, second]
    · show b ∈ [] ↔ t.blockAt b.validator b.slot = some b
      rw [Table.blockAt, account]
      exact iff_of_false List.not_mem_nil (Option.some_ne_none b).symm
    · show a ∈ [] ↔ t.attestationAt a.validator a.target = some a
      rw [Table.attestationAt, account]
      exact iff_of_false List.not_mem_nil (Option.some_ne_none a).symm
  have short : ∀ step ∈ steps, step.Short := by
    simp [steps, RecordStep.Short]
  obtain ⟨answers, shows, -⟩ :=
    (session_reads_as_archive legible).2 ⟨[first, second], [], []⟩ steps describes short
  obtain ⟨newest, asked, largest⟩ := shows.newestSlot first
  have is256 : newest.map UInt64.toNat = some 256 := largest.trans (by decide)
  have last : newest = some 256 := by
    obtain ⟨n, rfl, same⟩ := Option.map_eq_some_iff.1 is256
    exact congrArg some (UInt64.toNat.inj same)
  have gone := shows.blockAt first 255
  have kept := shows.blockAt second 7
  refine ⟨answers.trans (by decide), last ▸ asked, gone.trans ?_, kept.trans ?_⟩
  · exact congrArg₂ Prod.mk (congrArg Except.ok (by decide)) rfl
  · exact congrArg₂ Prod.mk (congrArg Except.ok (by decide)) rfl

end SlashingGuard
