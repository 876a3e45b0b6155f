import SlashingGuard.Proofs.Run.Proposals
import SlashingGuard.Proofs.Run.Rules
import SlashingGuard.Proofs.Run.Votes
import SlashingGuard.Proofs.Store.LongValues

/-! # Roots too long for the file

    A guard takes roots of any length, and a ledger file cuts the length of
    what is 2^32 bytes or longer.  What such a root holds behind the cut is
    read as entries of the ledger when the file is opened again, and among
    them may be the record of the very duty that it was signed for, with
    another root.

    So a guard with protection can be brought to permit two roots for one
    duty: the first is long, the store is closed and opened, and the second is
    what the first one hid.  Runs that keep to roots that the file can hold
    are free of this. -/

namespace SlashingGuard

open LedgerFile

/-! ## Roots that hide a record -/

/-- The value of a record, and behind it a block at a spare slot that fills both up to 2^32
    bytes. -/
def hiddenEntries (place spare : Place) (value : Bytes) : List (Entry Bytes) :=
  filledUp [(place.bytes, value)] spare.bytes

/-- A root of 2^32 bytes that hides a value for the place of a record. -/
def SigningRoot.hiding (place spare : Place) (value : Bytes) : SigningRoot :=
  ⟨(hiddenEntries place spare value).flatMap encodeEntry⟩

/-- The root of the block at the spare slot. -/
def SigningRoot.filling (place spare : Place) (value : Bytes) : SigningRoot :=
  ⟨zeros (padding [(place.bytes, value)] spare.bytes)⟩

theorem Place.length_record (kind : DutyKind) (id : ValidatorId) (n : UInt64) :
    (record kind id n).bytes.length = 18 := by
  rw [bytes_record]
  simp [KeyFamily.indexed, KeyFamily.scope]

section Hiding

variable {kind : DutyKind} {id : ValidatorId} {n spare : UInt64} {value : Bytes}

/-- There is room for every value that is not nearly as long itself. -/
theorem length_hiding (short : value.length < 2 ^ 31) :
    (SigningRoot.hiding (.record kind id n) (.record .block id spare) value).bytes.length =
      2 ^ 32 := by
  refine length_filledUp ?_
  simp only [List.flatMap_cons, List.flatMap_nil, List.append_nil, length_encodeEntry, entryLength,
    Place.length_record]
  omega

/-- No root that the file can hold is the same. -/
theorem hiding_ne (short : value.length < 2 ^ 31) {other : SigningRoot}
    (fits : other.bytes.length < 2 ^ 32) :
    SigningRoot.hiding (.record kind id n) (.record .block id spare) value ≠ other := by
  intro same
  have length : (SigningRoot.hiding (.record kind id n) (.record .block id spare)
      value).bytes.length = 2 ^ 32 := length_hiding short
  rw [same] at length
  omega

/-- A record with such a root is opened as the record that the root hides, and the block at the
    spare slot stands beside it. -/
theorem decode_encode_hiding {t : Table Bytes} (fits : t.FitsFile) {shown : Bytes}
    (few : shown.length ≤ 16) (short : value.length < 2 ^ 31)
    (unused : t.get? (Place.record .block id spare).bytes = none) :
    decode (encode (t.insert (Place.record kind id n).bytes (shown ++
        (SigningRoot.hiding (.record kind id n) (.record .block id spare) value).bytes))) =
      .ok ((t.insert (Place.record kind id n).bytes value).putBlock id spare
        (.filling (.record kind id n) (.record .block id spare) value)) := by
  have whole : 2 ^ 32 ∣ ((hiddenEntries (.record kind id n) (.record .block id spare)
      value).flatMap encodeEntry).length := Dvd.intro_left 1 (by
    rw [Nat.one_mul]
    exact (length_hiding short).symm)
  refine (decode_encode_insert fits ?_ whole ?_).trans ?_
  · intro entry member
    simp only [hiddenEntries, filledUp, List.cons_append, List.nil_append, List.mem_cons,
      List.not_mem_nil, or_false] at member
    rcases member with rfl | rfl | rfl
    · simp only [Place.length_record]
      omega
    · simp only [Place.length_record]
      omega
    · simp only [Place.length_record, length_zeros, padding]
      omega
  · intro entry member away
    simp only [hiddenEntries, filledUp, List.cons_append, List.nil_append, List.mem_cons,
      List.not_mem_nil, or_false] at member
    rcases member with rfl | rfl
    · exact absurd rfl away
    · exact unused
  · -- The value that is shown is replaced at once by the one that was hidden.
    refine congrArg Except.ok ?_
    show ((t.insert _ shown).insert _ value).insert _ _ = _
    rw [Table.insert_insert]
    rfl

end Hiding

/-! ## Records after a reopening -/

theorem LedgerValue.length_writeAttestation (source : Epoch) (root : SigningRoot) :
    (writeAttestation source root).length = 16 + root.bytes.length := by
  simp only [writeAttestation, List.length_append, Bytes.length_ofWordReversed,
    Bytes.length_littleEndian]

namespace Table

variable {t : Table Bytes} {id : ValidatorId} {spare : Slot}

/-- No block was signed at a slot just if nothing stands there. -/
theorem block_eq_none_iff {slot : Slot} :
    (t.account id).block slot = none ↔ t.get? (Place.record .block id slot).bytes = none := by
  show (t.get? _).bind (fun bytes => some _) = none ↔ _
  rw [Option.bind_eq_none_iff]
  constructor
  · intro h
    exact Option.eq_none_iff_forall_ne_some.2 fun value found => by simpa using h value found
  · intro h value found
    rw [Place.record] at h
    rw [h] at found
    contradiction

/-- The floor that a recorded block brings with it can be written first. -/
theorem recordBlock_eq_insert (t : Table Bytes) (id : ValidatorId) (slot : Slot)
    (root : SigningRoot) : t.recordBlock id slot root =
      (t.raiseSlot id 0).insert (Place.record .block id slot).bytes root.bytes := by
  have apart : (Place.block id slot).bytes ≠ (Place.floor id .block).bytes := by simp
  have floor : ((t.putBlock id slot root).account id).slotFloor = (t.account id).slotFloor := by
    simp
  rw [recordBlock, raiseSlot, raiseSlot, floor]
  split
  · exact insert_comm t apart _ _
  · rfl

/-- So can the floors that a recorded vote brings with it. -/
theorem recordVote_eq_insert (t : Table Bytes) (id : ValidatorId) (vote : Vote)
    (root : SigningRoot) : t.recordVote id vote root =
      (t.raiseEpochs id 0 0).insert (Place.record .attestation id vote.target).bytes
        (LedgerValue.writeAttestation vote.source root) := by
  have apart : (Place.attestation id vote.target).bytes ≠ (Place.floor id .attestation).bytes := by
    simp
  have source : ((t.putVote id vote root).account id).sourceFloor = (t.account id).sourceFloor := by
    simp [Account.sourceFloor]
  have target : ((t.putVote id vote root).account id).targetFloor = (t.account id).targetFloor := by
    simp [Account.targetFloor]
  rw [recordVote, raiseEpochs, raiseEpochs, source, target]
  split
  · exact insert_comm t apart _ _
  · rfl

/-- A ledger that was closed with a block under a root that hides another one is opened with the
    other one. -/
theorem reopened_block (fits : t.FitsFile) {slot : Slot} {other : SigningRoot}
    (short : other.bytes.length < 2 ^ 31) (unused : (t.account id).block spare = none) :
    decode (encode (t.recordBlock id slot
        (.hiding (.record .block id slot) (.record .block id spare) other.bytes))) =
      .ok ((t.recordBlock id slot other).putBlock id spare
        (.filling (.record .block id slot) (.record .block id spare) other.bytes)) := by
  have unused : (t.raiseSlot id 0).get? (Place.record .block id spare).bytes = none :=
    block_eq_none_iff.1 (by simpa using unused)
  rw [recordBlock_eq_insert, recordBlock_eq_insert]
  -- Of such a root the file shows nothing but its length, which is cut to zero.
  rw [← List.nil_append (SigningRoot.hiding _ _ other.bytes).bytes]
  exact decode_encode_hiding (fits.raiseSlot id 0) (Nat.zero_le _) short unused

/-- So it is with a vote, whose source and length are what the file shows of it. -/
theorem reopened_vote (fits : t.FitsFile) {vote : Vote} {other : SigningRoot}
    (short : other.bytes.length + 16 < 2 ^ 31) (unused : (t.account id).block spare = none) :
    decode (encode (t.recordVote id vote
        (.hiding (.record .attestation id vote.target) (.record .block id spare)
          (LedgerValue.writeAttestation vote.source other)))) =
      .ok ((t.recordVote id vote other).putBlock id spare
        (.filling (.record .attestation id vote.target) (.record .block id spare)
          (LedgerValue.writeAttestation vote.source other))) := by
  have unused : (t.raiseEpochs id 0 0).get? (Place.record .block id spare).bytes = none :=
    block_eq_none_iff.1 (by simpa using unused)
  have length := LedgerValue.length_writeAttestation vote.source other
  rw [recordVote_eq_insert, recordVote_eq_insert]
  refine decode_encode_hiding (fits.raiseEpochs id 0 0) ?_ ?_ unused
  · simp
  · omega

end Table

/-! ## Requests that are permitted -/

namespace Account

variable {a : Account}

/-- A record hides nothing: the floor that it may bring with it is the lowest one. -/
theorem hidesBlock_recordBlock {slot slot' : Slot} {root : SigningRoot} :
    (a.recordBlock slot root).HidesBlock slot' ↔ a.HidesBlock slot' := by
  cases floor : a.slotFloor <;> simp [HidesBlock, recordBlock, floor, Floor.raised]

theorem hidesVote_recordVote {vote vote' : Vote} {root : SigningRoot} :
    (a.recordVote vote root).HidesVote vote' ↔ a.HidesVote vote' := by
  cases floors : a.epochFloors <;>
    simp [HidesVote, recordVote, sourceFloor, targetFloor, floors, Floor.raised]

end Account

/-- A guard with protection that can be asked for a key: it knows the number that the key has in a
    ledger, and holds no lock. -/
structure Guard.Serves (g : Guard) (t : Table Bytes) (key : PublicKey) (id : ValidatorId) : Prop where
  wellFormed : t.WellFormed
  registered : t.isRegistered id
  enabled : g.config.enabled
  known : g.validatorId? key = some id
  idle : g.held = []

namespace Guard.Serves

variable {g : Guard} {t : Table Bytes} {key : PublicKey} {id : ValidatorId}

theorem putBlock (serves : g.Serves t key id) (slot : Slot) (root : SigningRoot) :
    g.Serves (t.putBlock id slot root) key id :=
  { serves with
    wellFormed := serves.wellFormed.putBlock serves.registered slot root
    registered := by simpa [Table.isRegistered] using serves.registered }

theorem recordBlock (serves : g.Serves t key id) (slot : Slot) (root : SigningRoot) :
    g.Serves (t.recordBlock id slot root) key id :=
  { serves with
    wellFormed := serves.wellFormed.recordBlock serves.registered slot root
    registered := by simpa [Table.isRegistered] using serves.registered }

theorem recordVote (serves : g.Serves t key id) {vote : Vote} (ordered : vote.source ≤ vote.target)
    (root : SigningRoot) : g.Serves (t.recordVote id vote root) key id :=
  { serves with
    wellFormed := serves.wellFormed.recordVote serves.registered ordered root
    registered := by simpa [Table.isRegistered] using serves.registered }

end Guard.Serves

/-- An operation is permitted, as long as no call fails, and leaves a ledger and the guard. -/
def Operation.Permitted (op : Operation) (c : Context) (t t' : Table Bytes) : Prop :=
  GuardWork.Always False op.perform c t fun reply c' t'' =>
    reply = .ok .permit ∧ c'.guard = c.guard ∧ t'' = t'

namespace Guard

open GuardWork

variable {c : Context} {t t' : Table Bytes} {key : PublicKey} {id : ValidatorId}

/-- What is permitted to the validator of the key, the guard permits. -/
theorem Serves.permitted (serves : c.guard.Serves t key id) {kind : DutyKind}
    {decide : ValidatorId → LedgerWork Decision}
    (decided : (decide id).run.Always False t fun r t'' => r = .ok .permit ∧ t'' = t') :
    GuardWork.Always False (do return Reply.answered (← answer kind key decide)) c t
      fun reply c' t'' => reply = .ok .permit ∧ c'.guard = c.guard ∧ t'' = t' := by
  refine Operation.always_reply (always_answer (fun disabled => ?_) (fun unknown => ?_)
    (fun id' _ held => ?_) fun id' _ known => ?_)
  · rw [serves.enabled] at disabled; contradiction
  · rw [serves.known] at unknown; contradiction
  · rw [serves.idle] at held; contradiction
  · obtain rfl := Option.some.inj (serves.known.symm.trans known)
    refine decided.mono ?_
    rintro r t'' ⟨rfl, rfl⟩
    exact ⟨rfl, rfl, rfl⟩

/-- A block that the rules permit is permitted, and recorded if the slot was free. -/
theorem Serves.permitted_signBlock (serves : c.guard.Serves t key id) {slot : Slot}
    {root : SigningRoot} (permit : (t.account id).judgeBlock slot root = .permit) :
    (Operation.signBlock key slot root).Permitted c t
      (if (t.account id).block slot = none then t.recordBlock id slot root else t) := by
  refine serves.permitted (Ledger.always_signBlock serves.wellFormed (fun reason denied => ?_)
    (fun _ again => ?_) (fun _ _ free => ?_) (fun gone _ => ?_) fun no => no.elim)
  · rw [permit] at denied; contradiction
  · rw [if_neg (by simp [again])]
    exact ⟨rfl, rfl⟩
  · rw [if_pos free]
    exact ⟨rfl, rfl⟩
  · rw [serves.registered] at gone; contradiction

/-- So is a vote. -/
theorem Serves.permitted_signAttestation (serves : c.guard.Serves t key id) {vote : Vote}
    {root : SigningRoot} (permit : (t.account id).judgeVote vote root = .permit) :
    (Operation.signAttestation key vote root).Permitted c t
      (if (t.account id).vote vote.target = none then t.recordVote id vote root else t) := by
  refine serves.permitted (Ledger.always_signAttestation serves.wellFormed
    (fun reason denied => ?_) (fun _ again => ?_) (fun _ _ free => ?_) (fun gone _ => ?_)
    fun no => no.elim)
  · rw [permit] at denied; contradiction
  · obtain ⟨source, again⟩ := again
    rw [if_neg (by simp [again])]
    exact ⟨rfl, rfl⟩
  · rw [if_pos free]
    exact ⟨rfl, rfl⟩
  · rw [serves.registered] at gone; contradiction

end Guard

namespace World

variable {run : Run} {w : World} {index : Nat} {g : Guard} {key : PublicKey} {id : ValidatorId}

/-- The guards of a sound world serve the keys that they know. -/
theorem Sound.serves (sound : w.Sound run) (hg : g ∈ w.guards) (enabled : g.config.enabled)
    (known : g.validatorId? key = some id) : g.Serves w.table key id where
  wellFormed := sound.wellFormed
  registered := sound.linked key id (sound.agrees g hg key id known)
  enabled := enabled
  known := known
  idle := sound.idle g hg

/-- A guard that is asked what it permits, with no call failing, is as before. -/
theorem ask_permitted (found : w.guards[index]? = some g) {op : Operation} {t : Table Bytes}
    (permitted : op.Permitted ⟨g, w.metrics⟩ w.table t) :
    ∃ metrics, w.ask index op [] =
      ⟨t, w.guards, metrics, w.log ++ [⟨op, .ok .permit⟩]⟩ := by
  obtain ⟨reply, c, t', ends, asked⟩ := ask_eq found op []
  have result := Program.Always.runFaulty_nil permitted
  rw [ends] at result
  obtain ⟨rfl, same, rfl⟩ := result
  have guards : w.guards.set index c.guard = w.guards := by
    obtain ⟨bound, found⟩ := List.getElem?_eq_some_iff.1 found
    rw [same, ← found]
    exact List.set_getElem_self bound
  exact ⟨c.metrics, by rw [asked, guards]⟩

/-- One guard is asked twice, and the store is closed and opened in between. -/
def askTwice (w : World) (index : Nat) (op op' : Operation) : World :=
  ((w.ask index op []).reopen).ask index op' []

/-- What is permitted on the ledger that was closed and then on the one that was opened. -/
theorem permitted_askTwice (found : w.guards[index]? = some g) {op op' : Operation}
    {t t' t'' : Table Bytes} (first : op.Permitted ⟨g, w.metrics⟩ w.table t)
    (opened : decode (encode t) = .ok t')
    (second : ∀ metrics, op'.Permitted ⟨g, metrics⟩ t' t'') :
    ⟨op, .ok .permit⟩ ∈ (w.askTwice index op op').log ∧
      ⟨op', .ok .permit⟩ ∈ (w.askTwice index op op').log := by
  obtain ⟨metrics, asked⟩ := ask_permitted found first
  have reopened : (w.ask index op []).reopen =
      ⟨t', w.guards, metrics, w.log ++ [⟨op, .ok .permit⟩]⟩ := by
    rw [asked, reopen]
    simp only [opened]
  have found' : (w.ask index op []).reopen.guards[index]? = some g := by rw [reopened]; exact found
  have second' : op'.Permitted ⟨g, (w.ask index op []).reopen.metrics⟩
      (w.ask index op []).reopen.table t'' := by
    rw [reopened]
    exact second metrics
  obtain ⟨metrics', asked'⟩ := ask_permitted found' second'
  rw [askTwice, asked', reopened]
  simp

/-- In every world that fits its file, a guard that is asked for a block may be given a root of
    2^32 bytes instead: it permits that root and, when the store was closed and opened, the other
    one as well. -/
theorem Sound.block_replaced (sound : w.Sound run) (fits : w.table.FitsFile)
    (found : w.guards[index]? = some g) (enabled : g.config.enabled)
    (known : g.validatorId? key = some id) {slot spare : Slot} {other : SigningRoot}
    (permit : (w.table.account id).judgeBlock slot other = .permit)
    (free : (w.table.account id).block slot = none)
    (unused : (w.table.account id).block spare = none) (ne : spare ≠ slot)
    (short : other.bytes.length < 2 ^ 31) :
    let long := SigningRoot.hiding (.record .block id slot) (.record .block id spare) other.bytes
    let w' := w.askTwice index (.signBlock key slot long) (.signBlock key slot other)
    long ≠ other ∧ w'.PermittedBlock key slot long ∧ w'.PermittedBlock key slot other := by
  intro long w'
  have serves := sound.serves (List.mem_of_getElem? found) enabled known
  have visible := (Account.judgeBlock_eq_permit_iff.1 permit).1
  have first := serves.permitted_signBlock (c := ⟨g, w.metrics⟩)
    (Account.judgeBlock_of_none visible free long)
  rw [if_pos free] at first
  -- The ledger that is opened is as if the guard had been asked for the other root at first.
  let opened := (w.table.recordBlock id slot other).putBlock id spare
    (.filling (.record .block id slot) (.record .block id spare) other.bytes)
  have recorded : (opened.account id).block slot = some other := by
    simp [opened, Account.recordBlock, ne.symm]
  have again : (opened.account id).judgeBlock slot other = .permit := by
    refine Account.judgeBlock_eq_permit_iff.2 ⟨?_, fun signed h => ?_⟩
    · simpa [opened, Account.HidesBlock] using Account.hidesBlock_recordBlock.not.2 visible
    · rw [recorded] at h
      exact (Option.some.inj h).symm
  have serves' : g.Serves opened key id := (serves.recordBlock slot other).putBlock spare _
  have differ : long ≠ other := hiding_ne short (by omega)
  exact ⟨differ, permitted_askTwice found first (Table.reopened_block fits short unused)
    fun metrics => serves'.permitted_signBlock (c := ⟨g, metrics⟩) again⟩

/-- So it is with votes: what the long root hides is a vote with the same source for another
    root. -/
theorem Sound.vote_replaced (sound : w.Sound run) (fits : w.table.FitsFile)
    (found : w.guards[index]? = some g) (enabled : g.config.enabled)
    (known : g.validatorId? key = some id) {vote : Vote} {spare : Slot} {other : SigningRoot}
    (permit : (w.table.account id).judgeVote vote other = .permit)
    (free : (w.table.account id).vote vote.target = none)
    (unused : (w.table.account id).block spare = none)
    (short : other.bytes.length + 16 < 2 ^ 31) :
    let long := SigningRoot.hiding (.record .attestation id vote.target) (.record .block id spare)
      (LedgerValue.writeAttestation vote.source other)
    let w' := w.askTwice index (.signAttestation key vote long) (.signAttestation key vote other)
    long ≠ other ∧ w'.PermittedVote key vote long ∧ w'.PermittedVote key vote other := by
  intro long w'
  have serves := sound.serves (List.mem_of_getElem? found) enabled known
  obtain ⟨ordered, visible, ⟨source, signed⟩ | ⟨-, apart⟩⟩ :=
    Account.judgeVote_eq_permit_iff.1 permit
  · rw [free] at signed
    contradiction
  -- Where nothing is recorded at the target, the rules do not look at the root.
  have permitLong : (w.table.account id).judgeVote vote long = .permit :=
    Account.judgeVote_eq_permit_iff.2 ⟨ordered, visible, .inr ⟨free, apart⟩⟩
  have first := serves.permitted_signAttestation (c := ⟨g, w.metrics⟩) permitLong
  rw [if_pos free] at first
  let opened := (w.table.recordVote id vote other).putBlock id spare
    (.filling (.record .attestation id vote.target) (.record .block id spare)
      (LedgerValue.writeAttestation vote.source other))
  have whole : other.stored = other := SigningRoot.stored_eq (by omega)
  have recorded : (opened.account id).vote vote.target = some (vote.source, other) := by
    simp [opened, Account.recordVote, whole]
  have again : (opened.account id).judgeVote vote other = .permit := by
    refine Account.judgeVote_eq_permit_iff.2 ⟨ordered, ?_, .inl ⟨vote.source, recorded⟩⟩
    simpa [opened, Account.HidesVote] using Account.hidesVote_recordVote.not.2 visible
  have serves' : g.Serves opened key id := (serves.recordVote ordered other).putBlock spare _
  have length := LedgerValue.length_writeAttestation vote.source other
  have differ : long ≠ other := hiding_ne (by omega) (by omega)
  exact ⟨differ, permitted_askTwice found first (Table.reopened_vote fits short unused)
    fun metrics => serves'.permitted_signAttestation (c := ⟨g, metrics⟩) again⟩

end World

/-! ## A double proposal and a double vote -/

namespace Run

/-- A guard is started and given a key. -/
def oneGuard : Run := [.start .standard, .ask 0 (.register [oneKey]) []]

/-- It is asked twice then, and the store is closed and opened in between. -/
def oneGuardTwice (op op' : Operation) : Run :=
  oneGuard ++ [.ask 0 op [], .reopen, .ask 0 op' []]

/-- A root of 2^32 bytes that hides the block at slot 5 with the empty root. -/
def longBlockRoot : SigningRoot := .hiding (.record .block ⟨1⟩ 5) (.record .block ⟨1⟩ 6) []

/-- The vote that is asked for. -/
def doubledVote : Vote := ⟨2, 3⟩

/-- A root of 2^32 bytes that hides this vote with the empty root. -/
def longVoteRoot : SigningRoot :=
  .hiding (.record .attestation ⟨1⟩ doubledVote.target) (.record .block ⟨1⟩ 6)
    (LedgerValue.writeAttestation doubledVote.source ⟨[]⟩)

theorem guarded_oneGuardTwice (op op' : Operation) : ∀ s ∈ oneGuardTwice op op', s.Guarded := by
  simp [oneGuardTwice, oneGuard, Step.Guarded, GuardConfig.standard]

end Run

namespace World

theorem after_oneGuardTwice (op op' : Operation) :
    after (Run.oneGuardTwice op op') = (after Run.oneGuard).askTwice 0 op op' := by
  rw [after, Run.oneGuardTwice, List.foldl_append]
  rfl

theorem sound_oneGuard : Sound Run.oneGuard (after Run.oneGuard) := by
  apply sound_after
  simp [Run.Storable, Run.oneGuard, Step.payload, Operation.payload]

theorem fitsFile_oneGuard : (after Run.oneGuard).table.FitsFile := by
  have all : (after Run.oneGuard).table.entries.all (fun entry =>
      decide (entry.1.length < 2 ^ 32 ∧ entry.2.length < 2 ^ 32)) = true := by
    decide +kernel
  intro entry member
  exact of_decide_eq_true (List.all_eq_true.1 all entry member)

/-- The guard of the run knows its key. -/
theorem knows_oneGuard : ∃ g, (after Run.oneGuard).guards[0]? = some g ∧ g.config.enabled ∧
    g.validatorId? Run.oneKey = some ⟨1⟩ := by
  have guard : ((after Run.oneGuard).guards[0]?.map fun g =>
      (g.config.enabled, g.validatorId? Run.oneKey)) = some (true, some ⟨1⟩) := by
    decide +kernel
  obtain ⟨g, found, facts⟩ := Option.map_eq_some_iff.1 guard
  exact ⟨g, found, congrArg Prod.fst facts, congrArg Prod.snd facts⟩

/-- Nothing was signed for it. -/
theorem account_oneGuard : (after Run.oneGuard).table.account ⟨1⟩ =
    ⟨fun _ => none, fun _ => none, none, none⟩ := by
  have entries : (after Run.oneGuard).table.entries.map (·.1) =
      [Place.keyOf ⟨1⟩, Place.nextId, Place.idOf Run.oneKey].map Place.bytes := by
    decide +kernel
  have absent : ∀ place : Place, place ≠ .keyOf ⟨1⟩ → place ≠ .nextId →
      place ≠ .idOf Run.oneKey → (after Run.oneGuard).table.get? place.bytes = none := by
    intro place h₁ h₂ h₃
    refine Option.eq_none_iff_forall_ne_some.2 fun value found => ?_
    have member := List.mem_map_of_mem (f := (·.1)) (Table.get?_eq_some_iff.1 found)
    rw [entries] at member
    simp [h₁, h₂, h₃] at member
  ext <;> simp [Table.account, Table.readAt, absent]

/-- Without the bound on what a run brings from outside, a guard with protection permits two blocks
    for one slot. -/
theorem double_proposal_longRoot :
    let run := Run.oneGuardTwice (.signBlock Run.oneKey 5 Run.longBlockRoot)
      (.signBlock Run.oneKey 5 ⟨[]⟩)
    (∀ s ∈ run, s.Guarded) ∧ Run.longBlockRoot ≠ ⟨[]⟩ ∧
      (after run).PermittedBlock Run.oneKey 5 Run.longBlockRoot ∧
      (after run).PermittedBlock Run.oneKey 5 ⟨[]⟩ := by
  intro run
  obtain ⟨g, found, enabled, known⟩ := knows_oneGuard
  have account := account_oneGuard
  have permit : ((after Run.oneGuard).table.account ⟨1⟩).judgeBlock 5 ⟨[]⟩ = .permit := by
    refine Account.judgeBlock_of_none ?_ ?_ ⟨[]⟩ <;> simp [account, Account.HidesBlock]
  refine ⟨Run.guarded_oneGuardTwice _ _, ?_⟩
  rw [after_oneGuardTwice]
  exact sound_oneGuard.block_replaced fitsFile_oneGuard found enabled known permit
    (by rw [account]) (by rw [account]) (by decide) (by decide)

/-- And two votes for one target. -/
theorem double_vote_longRoot :
    let run := Run.oneGuardTwice (.signAttestation Run.oneKey Run.doubledVote Run.longVoteRoot)
      (.signAttestation Run.oneKey Run.doubledVote ⟨[]⟩)
    (∀ s ∈ run, s.Guarded) ∧ Run.longVoteRoot ≠ ⟨[]⟩ ∧
      (after run).PermittedVote Run.oneKey Run.doubledVote Run.longVoteRoot ∧
      (after run).PermittedVote Run.oneKey Run.doubledVote ⟨[]⟩ := by
  intro run
  obtain ⟨g, found, enabled, known⟩ := knows_oneGuard
  have account := account_oneGuard
  have permit : ((after Run.oneGuard).table.account ⟨1⟩).judgeVote Run.doubledVote ⟨[]⟩ = .permit := by
    refine Account.judgeVote_eq_permit_iff.2 ⟨by decide, ?_, .inr ⟨?_, ?_, ?_⟩⟩ <;>
      simp [account, Account.HidesVote, Account.Surrounds, Account.IsSurrounded]
  refine ⟨Run.guarded_oneGuardTwice _ _, ?_⟩
  rw [after_oneGuardTwice]
  exact sound_oneGuard.vote_replaced fitsFile_oneGuard found enabled known permit
    (by rw [account]) (by rw [account]) (by decide)

end World

end SlashingGuard
