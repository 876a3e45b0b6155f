import SlashingGuard.Proofs.Guard.Metering
import SlashingGuard.Proofs.Run.FreshDuties

/-! # Conservation of records

    Over a whole run of guards that check what they permit, no record is lost
    and none is counted twice: the records in the ledger and those that were
    counted as removed are together as many as the duties that were permitted,
    where a duty counts once however often it was permitted.

    This rests on what becomes of a duty that was permitted.  It is on record,
    and another permit adds nothing; or it lies below the floor of its kind,
    and there is no other permit.  So a record that is put in is one of a duty
    that is permitted for the first time. -/

namespace SlashingGuard

/-! ## Accounts that account for what was permitted -/

namespace Account

/-- A slot or a target strictly below the floor of its kind. -/
def Outdates (a : Account) (kind : DutyKind) (index : UInt64) : Prop :=
  ∃ floor, a.floorOf kind = some floor ∧ index < floor

/-- What is recorded was permitted, and what was permitted is recorded or outdated. -/
structure Accounts (a : Account) (permitted : DutyKind → Set UInt64) : Prop where
  recorded : ∀ kind, ∀ i ∈ a.recorded kind, i ∈ permitted kind
  kept : ∀ kind, ∀ i ∈ permitted kind, i ∈ a.recorded kind ∨ a.Outdates kind i

variable {a b : Account} {permitted permitted' : DutyKind → Set UInt64} {kind : DutyKind}
  {index : UInt64}

theorem FloorsRise.outdates (h : a.FloorsRise b) (old : a.Outdates kind index) :
    b.Outdates kind index := by
  cases kind with
  | block => exact h.hidesBlock old
  | attestation =>
    obtain ⟨floor, hf, lt⟩ := old
    obtain ⟨⟨source, target⟩, floors, rfl⟩ := Option.map_eq_some_iff.1 hf
    obtain ⟨source', target', floors', -, le⟩ := h.epochFloors source target floors
    exact ⟨target', Option.map_eq_some_iff.2 ⟨_, floors', rfl⟩, UInt64.lt_of_lt_of_le lt le⟩

/-- A record that a prune takes is below the floor that it leaves. -/
theorem Pruned.recorded_cases (h : a.Pruned b) (kind : DutyKind) (index : UInt64) :
    (index ∈ b.recorded kind ↔ index ∈ a.recorded kind) ∨
      index ∉ b.recorded kind ∧ b.Outdates kind index := by
  cases kind with
  | block =>
    rcases h.block index with same | ⟨gone, hidden⟩
    · exact .inl (by simp [same])
    · exact .inr ⟨by simp [gone], hidden⟩
  | attestation =>
    rcases h.vote index with same | ⟨gone, source, target, floors, -, lt⟩
    · exact .inl (by simp [same])
    · exact .inr ⟨by simp [gone], target, Option.map_eq_some_iff.2 ⟨_, floors, rfl⟩, lt⟩

namespace Accounts

/-- A duty is permitted and recorded. -/
theorem record (h : a.Accounts permitted)
    (hr : ∀ k i, i ∈ b.recorded k ↔ i ∈ a.recorded k ∨ k = kind ∧ i = index)
    (rise : a.FloorsRise b)
    (hp : ∀ k i, i ∈ permitted' k ↔ i ∈ permitted k ∨ k = kind ∧ i = index) :
    b.Accounts permitted' where
  recorded k i hi := (hp k i).2 (((hr k i).1 hi).imp_left (h.recorded k i))
  kept k i hi := by
    rw [hr k i]
    rcases (hp k i).1 hi with old | new
    · rcases h.kept k i old with there | outdated
      · exact .inl (.inl there)
      · exact .inr (rise.outdates outdated)
    · exact .inl (.inr new)

theorem again (h : a.Accounts permitted) (there : index ∈ a.recorded kind)
    (hp : ∀ k i, i ∈ permitted' k ↔ i ∈ permitted k ∨ k = kind ∧ i = index) :
    a.Accounts permitted' where
  recorded k i hi := (hp k i).2 (.inl (h.recorded k i hi))
  kept k i hi := by
    rcases (hp k i).1 hi with old | ⟨rfl, rfl⟩
    · exact h.kept k i old
    · exact .inl there

theorem pruned (h : a.Accounts permitted) (pruned : a.Pruned b) : b.Accounts permitted where
  recorded k i hi := by
    rcases pruned.recorded_cases k i with same | ⟨gone, -⟩
    · exact h.recorded k i (same.1 hi)
    · exact absurd hi gone
  kept k i hi := by
    rcases pruned.recorded_cases k i with same | ⟨-, outdated⟩
    · exact (h.kept k i hi).imp same.2 pruned.outdates
    · exact .inr outdated

/-- A duty that is neither recorded nor outdated is permitted for the first time. -/
theorem not_mem (h : a.Accounts permitted) (free : index ∉ a.recorded kind)
    (visible : ¬ a.Outdates kind index) : index ∉ permitted kind :=
  fun old => (h.kept kind index old).elim free visible

end Accounts

theorem floorsRise_recordBlock (a : Account) (slot : Slot) (root : SigningRoot) :
    a.FloorsRise (a.recordBlock slot root) :=
  have rise := (Pruned.raiseSlot (a.putBlock slot root) 0).toFloorsRise
  ⟨rise.slotFloor, rise.epochFloors⟩

theorem floorsRise_recordVote (a : Account) (vote : Vote) (root : SigningRoot) :
    a.FloorsRise (a.recordVote vote root) :=
  have rise := (Pruned.raiseEpochs (a.putVote vote root) 0 0).toFloorsRise
  ⟨rise.slotFloor, rise.epochFloors⟩

theorem carried_accounts : Carried Accounts where
  recordBlock {a _ _ slot} root h _ more :=
    h.record (mem_recorded_recordBlock a slot root) (floorsRise_recordBlock a slot root) more
  recordVote {a _ _ vote} root h _ more :=
    h.record (mem_recorded_recordVote a vote root) (floorsRise_recordVote a vote root) more
  again h there more := h.again there more
  pruned h pruned _ := h.pruned pruned

end Account

/-! ## What was permitted, counted -/

namespace Event

variable {e : Event} {kind : DutyKind} {key : PublicKey} {index : UInt64}

/-- Whether a request for a duty of a kind was answered by a decision. -/
def isAnswer (e : Event) (kind : DutyKind) (d : Decision) : Bool :=
  e.operation.kind? = some kind ∧ e.reply = .ok (.answered d)

/-- The key, and the slot or target, that was permitted of a kind. -/
def permitted? (e : Event) (kind : DutyKind) : Option (PublicKey × UInt64) :=
  if e.reply = .ok .permit then
    e.operation.duty?.bind fun (key, k, index) => if k = kind then some (key, index) else none
  else none

theorem permitted?_eq_some : e.permitted? kind = some (key, index) ↔ e.Permits key kind index := by
  unfold permitted? Permits
  by_cases permit : e.reply = .ok .permit
  · rw [if_pos permit, Option.bind_eq_some_iff]
    constructor
    · rintro ⟨⟨key', k, index'⟩, duty, same⟩
      simp only [Option.ite_none_right_eq_some] at same
      obtain ⟨rfl, same⟩ := same
      cases same
      exact ⟨permit, duty⟩
    · rintro ⟨-, duty⟩
      exact ⟨_, duty, by simp⟩
  · simp [permit]

end Event

namespace World

variable {run : Run} {w w' : World}

/-- The keys with the slots or targets that were permitted for them, each once. -/
def dutiesOfKeys (w : World) (kind : DutyKind) : Finset (PublicKey × UInt64) :=
  (w.log.filterMap fun e => e.permitted? kind).toFinset

/-- The validators with the slots or targets that were permitted for their keys, each once. -/
def dutiesOfValidators (w : World) (kind : DutyKind) : Finset (ValidatorId × UInt64) :=
  (w.log.filterMap fun e => do
    let (key, index) ← e.permitted? kind
    let id ← w.table.registry.idOf key
    return (id, index)).toFinset

variable {kind : DutyKind} {key : PublicKey} {id : ValidatorId} {index : UInt64}

theorem mem_dutiesOfKeys :
    (key, index) ∈ w.dutiesOfKeys kind ↔ ∃ e ∈ w.log, e.Permits key kind index := by
  simp [dutiesOfKeys, Event.permitted?_eq_some]

theorem mem_dutiesOfValidators :
    (id, index) ∈ w.dutiesOfValidators kind ↔ index ∈ w.permittedFor id kind := by
  simp [dutiesOfValidators, permittedFor, Option.bind_eq_some_iff, Event.permitted?_eq_some]

/-- An event that is no permit adds nothing. -/
theorem dutiesOfValidators_refused (h : w.DutiesTrail) (remembers : w.table.Remembers w'.table)
    {e : Event} (log : w'.log = w.log ++ [e]) (refused : e.reply ≠ .ok .permit)
    (kind : DutyKind) : w'.dutiesOfValidators kind = w.dutiesOfValidators kind := by
  ext ⟨id, index⟩
  rw [mem_dutiesOfValidators, mem_dutiesOfValidators,
    (h.extends remembers log id).eq fun _ _ _ permits => absurd permits.1 refused]

/-- A permit adds its duty, for the validator of its key. -/
theorem dutiesOfValidators_permitted (h : w.DutiesTrail) (remembers : w.table.Remembers w'.table)
    {e : Event} (log : w'.log = w.log ++ [e]) (permits : e.Permits key kind index)
    (number : w'.table.registry.idOf key = some id) (k : DutyKind) :
    w'.dutiesOfValidators k =
      if k = kind then insert (id, index) (w.dutiesOfValidators k) else w.dutiesOfValidators k := by
  ext ⟨id', i⟩
  have extends' := h.extends remembers log id'
  by_cases same : id' = id
  · subst same
    rw [mem_dutiesOfValidators, extends'.mem_iff permits number]
    split
    · next kinds => simp [mem_dutiesOfValidators, kinds, or_comm]
    · next kinds => simp [mem_dutiesOfValidators, kinds]
  · rw [mem_dutiesOfValidators, extends'.eq_of_ne permits number same]
    split
    · simp [mem_dutiesOfValidators, same]
    · rw [mem_dutiesOfValidators]

/-- A duty that is permitted for the first time counts once more. -/
theorem card_dutiesOfValidators_new (h : w.DutiesTrail) (remembers : w.table.Remembers w'.table)
    {e : Event} (log : w'.log = w.log ++ [e]) (permits : e.Permits key kind index)
    (number : w.table.registry.idOf key = some id) (new : index ∉ w.permittedFor id kind)
    (k : DutyKind) : (w'.dutiesOfValidators k).card =
      (w.dutiesOfValidators k).card + if k = kind then 1 else 0 := by
  rw [dutiesOfValidators_permitted h remembers log permits (remembers.idOf key id number)]
  split
  · next same =>
    subst same
    exact Finset.card_insert_of_notMem (mt mem_dutiesOfValidators.1 new)
  · rfl

/-- One that was permitted before does not. -/
theorem card_dutiesOfValidators_again (h : w.DutiesTrail) (remembers : w.table.Remembers w'.table)
    {e : Event} (log : w'.log = w.log ++ [e]) (permits : e.Permits key kind index)
    (number : w.table.registry.idOf key = some id) (old : index ∈ w.permittedFor id kind)
    (k : DutyKind) : (w'.dutiesOfValidators k).card = (w.dutiesOfValidators k).card := by
  rw [dutiesOfValidators_permitted h remembers log permits (remembers.idOf key id number)]
  split
  · next same =>
    subst same
    rw [Finset.insert_eq_of_mem (mem_dutiesOfValidators.2 old)]
  · rfl

/-! ## The balance -/

/-- What the counters of a world and the records of its ledger add up to. -/
structure Tallied (w : World) : Prop where
  records : ∀ kind, w.table.recordCount kind + w.metrics.pruned kind =
    (w.dutiesOfValidators kind).card
  permitted : ∀ kind, w.metrics.permitted kind = w.log.countP fun e => e.isAnswer kind .permit
  prevented : ∀ kind reason, w.metrics.prevented kind reason =
    w.log.countP fun e => e.isAnswer kind (.deny reason)

/-- Worlds whose ledgers account for all that was permitted. -/
structure Accounted (w : World) : Prop extends DutiesTrail w, Tallied w where
  accounts : ∀ id, (w.table.account id).Accounts (w.permittedFor id)

theorem accounted_empty : Accounted empty where
  toDutiesTrail := dutiesTrail_empty
  records kind := by cases kind <;> rfl
  permitted _ := rfl
  prevented _ _ := rfl
  accounts id := by
    constructor
    · intro kind i hi
      cases kind <;> contradiction
    · rintro kind i ⟨e, he, -⟩
      contradiction

/-- What an operation does to the records and to their counter it does to the duties. -/
theorem Accounted.records_step (h : w.Accounted) (w_ok : w.Protected run) {g g' : Guard}
    (hg : g ∈ w.guards) {op : Operation} {reply : Except GuardError Reply} {t' : Table Bytes}
    (outcome : Outcome g w.table op reply g' t') (table : w'.table = t')
    (counts : op.Counts w.metrics w.table reply w'.metrics t')
    (log : w'.log = w.log ++ [⟨op, reply⟩]) (kind : DutyKind) :
    t'.recordCount kind + w'.metrics.pruned kind = (w'.dutiesOfValidators kind).card := by
  have remembers : w.table.Remembers w'.table := table ▸ outcome.remembers
  have legible := w_ok.wellFormed.legible
  -- Only a permit puts a record in.  Whatever else is done, what is gone was counted.
  by_cases permit : reply = .ok .permit
  · subst permit
    cases outcome with
    | idle refused | thinned _ refused => exact absurd rfl refused
    | unchecked disabled =>
      rw [w_ok.enabled g hg] at disabled
      contradiction
    | @block key id slot root known _ free permit =>
      have number := w_ok.agrees g hg key id known
      -- The slot is free and above the floor, so it was not permitted before.
      have unrecorded : slot ∉ (w.table.account id).recorded .block := by simp [free]
      have new := (h.accounts id).not_mem unrecorded (Account.judgeBlock_eq_permit_iff.1 permit).1
      rw [card_dutiesOfValidators_new h.toDutiesTrail remembers log ⟨rfl, rfl⟩ number new,
        Table.recordCount_recordBlock legible unrecorded, (counts.asked rfl).1, ← h.records kind,
        Nat.add_right_comm]
    | @blockAgain key id slot root known again _ =>
      have number := w_ok.agrees g hg key id known
      -- The record of the slot is one of an earlier permit.
      have old := (h.accounts id).recorded .block slot (by simp [again])
      rw [card_dutiesOfValidators_again h.toDutiesTrail remembers log ⟨rfl, rfl⟩ number old,
        (counts.asked rfl).1, ← h.records kind]
    | @vote key id vote root known _ free permit =>
      have number := w_ok.agrees g hg key id known
      have unrecorded : vote.target ∉ (w.table.account id).recorded .attestation := by simp [free]
      have visible : ¬ (w.table.account id).Outdates .attestation vote.target := by
        rintro ⟨f, hf, lt⟩
        have le := Account.le_of_not_hidesVote (Account.judgeVote_eq_permit_iff.1 permit).2.1 hf
        exact UInt64.not_lt.2 le lt
      have new := (h.accounts id).not_mem unrecorded visible
      rw [card_dutiesOfValidators_new h.toDutiesTrail remembers log ⟨rfl, rfl⟩ number new,
        Table.recordCount_recordVote legible unrecorded, (counts.asked rfl).1, ← h.records kind,
        Nat.add_right_comm]
    | @voteAgain key id vote root source known again _ =>
      have number := w_ok.agrees g hg key id known
      have old := (h.accounts id).recorded .attestation vote.target (by simp [again])
      rw [card_dutiesOfValidators_again h.toDutiesTrail remembers log ⟨rfl, rfl⟩ number old,
        (counts.asked rfl).1, ← h.records kind]
  · rw [dutiesOfValidators_refused h.toDutiesTrail remembers log permit,
      counts.records_of_refused permit, h.records]

/-- One operation keeps the balance. -/
theorem Accounted.step (h : w.Accounted) (w_ok : w.Protected run) {g g' : Guard}
    (hg : g ∈ w.guards) {op : Operation} {reply : Except GuardError Reply}
    (outcome : Outcome g w.table op reply g' w'.table)
    (counts : op.Counts w.metrics w.table reply w'.metrics w'.table)
    (log : w'.log = w.log ++ [⟨op, reply⟩]) : w'.Accounted where
  toDutiesTrail := h.toDutiesTrail.step w_ok hg outcome log
  records := h.records_step w_ok hg outcome rfl counts log
  permitted kind := by
    rw [counts.permitted, h.permitted, log, List.countP_append]
    simp [Event.isAnswer]
  prevented kind reason := by
    rw [counts.prevented, h.prevented, log, List.countP_append]
    simp [Event.isAnswer]
  accounts id := outcome.carries Account.carried_accounts (w_ok.enabled g hg) (w_ok.agrees g hg)
    (h.accounts id) (h.extends outcome.remembers log id)

/-- The guards themselves do not count. -/
theorem Accounted.guards (h : w.Accounted) (guards : List Guard) :
    Accounted { w with guards := guards } :=
  { named := h.named, trails := h.trails, records := h.records, permitted := h.permitted,
    prevented := h.prevented, accounts := h.accounts }

theorem accounted_after (guarded : ∀ s ∈ run, s.Guarded) (storable : run.Storable) :
    (after run).Protected run ∧ (after run).Accounted := by
  apply after_induction (P := fun w => w.Protected run ∧ w.Accounted)
  · exact ⟨protected_empty run, accounted_empty⟩
  intro w s hs both
  obtain ⟨w_ok, h⟩ := both
  refine ⟨(w_ok.step_cases storable hs (guarded s hs)).1, ?_⟩
  cases s with
  | start config =>
    show (w.start config).Accounted
    rcases start_cases w config with same | started
    · rwa [same]
    · rw [started]
      exact h.guards _
  | ask index op faults =>
    show (w.ask index op faults).Accounted
    cases found : w.guards[index]? with
    | none => rwa [ask, found]
    | some g =>
      have hg := List.mem_of_getElem? found
      obtain ⟨reply, c, t, ran, asked⟩ := ask_eq found op faults
      have outcome := (Operation.always_perform (c := ⟨g, w.metrics⟩) w_ok.wellFormed op).runFaulty
        faults
      have counts := (Operation.always_counts (c := ⟨g, w.metrics⟩) w_ok.wellFormed
        (w_ok.enabled g hg) op).runFaulty faults
      rw [ran] at outcome counts
      rw [asked]
      exact h.step w_ok hg outcome counts rfl
  | transact mutations commit faults => exact absurd (guarded _ hs) id
  | reopen =>
    show w.reopen.Accounted
    rwa [reopen_eq (w_ok.fits hs)]

/-- Where different keys have different numbers, it makes no difference whether keys or validators
    are counted. -/
theorem DutiesTrail.card_dutiesOfValidators (h : w.DutiesTrail) {n : Nat}
    (numbered : w.table.registry.Numbered n) (kind : DutyKind) :
    (w.dutiesOfValidators kind).card = (w.dutiesOfKeys kind).card := by
  let number (duty : PublicKey × UInt64) : ValidatorId × UInt64 :=
    ((w.table.registry.idOf duty.1).getD ⟨0⟩, duty.2)
  have named : ∀ duty ∈ w.dutiesOfKeys kind, ∃ id, w.table.registry.idOf duty.1 = some id := by
    rintro ⟨key, index⟩ member
    obtain ⟨e, he, permits⟩ := mem_dutiesOfKeys.1 member
    exact h.named e he key kind index permits
  -- Every key that was permitted anything has a number, so the default above is never taken.
  have image : w.dutiesOfValidators kind = (w.dutiesOfKeys kind).image number := by
    ext ⟨id, index⟩
    rw [mem_dutiesOfValidators, Finset.mem_image]
    constructor
    · rintro ⟨e, he, key, permits, hid⟩
      exact ⟨(key, index), mem_dutiesOfKeys.2 ⟨e, he, permits⟩, by simp [number, hid]⟩
    · rintro ⟨⟨key, i⟩, member, same⟩
      obtain ⟨id', hid⟩ := named _ member
      obtain ⟨e, he, permits⟩ := mem_dutiesOfKeys.1 member
      simp only [number, hid, Option.getD_some, Prod.mk.injEq] at same
      obtain ⟨rfl, rfl⟩ := same
      exact ⟨e, he, key, permits, hid⟩
  rw [image]
  apply Finset.card_image_of_injOn
  rintro ⟨key, i⟩ member ⟨key', i'⟩ member' same
  obtain ⟨id, hid⟩ := named _ member
  obtain ⟨id', hid'⟩ := named _ member'
  simp only [number, hid, hid', Option.getD_some, Prod.mk.injEq] at same
  obtain ⟨rfl, rfl⟩ := same
  rw [numbered.injective key key' id hid hid']

/-- A prune that a guard was asked for reports what has gone, if it succeeds. -/
theorem Sound.prune_reports (sound : w.Sound run) {index : Nat} {g : Guard}
    (found : w.guards[index]? = some g) {faults : Store.FaultSchedule} {summary : PruneSummary}
    (done : (w.ask index .prune faults).log = w.log ++ [⟨.prune, .ok (.prunedAll summary)⟩]) :
    Guard.Reports summary w.table (w.ask index .prune faults).table g.registeredIds := by
  have always : GuardWork.Always True Operation.prune.perform ⟨g, w.metrics⟩ w.table fun r _ t' =>
      ∀ s, r = .ok (.prunedAll s) → Guard.Reports s w.table t' g.registeredIds := by
    refine Operation.always_reply ((Guard.always_prune_reports sound.wellFormed.regular).mono ?_)
    intro r c t reports s same
    cases r with
    | error _ => contradiction
    | ok total =>
      obtain rfl : total = s := Reply.prunedAll.inj (Except.ok.inj same)
      exact reports total rfl
  obtain ⟨reply, c, t, ran, asked⟩ := ask_eq found .prune faults
  have reports := Program.Always.runFaulty always faults
  rw [ran] at reports
  rw [asked] at done ⊢
  have event := (List.cons.inj (List.append_cancel_left done)).1
  exact reports summary (Event.mk.inj event).2

/-- At every moment of a run of guards that check what they permit, the records of a kind and those
    that were counted as removed are as many as the duties of the kind that were permitted, and the
    counters of answers are right.  If fewer keys were registered than there are numbers, validators
    are keys.  A prune that succeeds then reports what it removes, summed over the validators that
    its guard knows. -/
theorem records_conserved {run : Run} (guarded : ∀ s ∈ run, s.Guarded) (storable : run.Storable)
    {earlier : Run} (part : earlier <+: run) :
    (after earlier).Tallied ∧
      ((after earlier).keysAsked < 2 ^ 64 → ∀ kind,
        (after earlier).table.recordCount kind + (after earlier).metrics.pruned kind =
          ((after earlier).dutiesOfKeys kind).card) ∧
      ∀ index g faults summary, (after earlier).guards[index]? = some g →
        ((after earlier).ask index .prune faults).log =
            (after earlier).log ++ [⟨.prune, .ok (.prunedAll summary)⟩] →
          Guard.Reports summary (after earlier).table
            ((after earlier).ask index .prune faults).table g.registeredIds := by
  have sub := part.subset
  have guarded : ∀ s ∈ earlier, s.Guarded := fun s hs => guarded s (sub hs)
  have storable : earlier.Storable := fun s hs bytes hb again =>
    storable s (sub hs) bytes hb (sub again)
  obtain ⟨w_ok, accounted⟩ := accounted_after guarded storable
  refine ⟨accounted.toTallied, fun room kind => ?_, fun index g faults summary found done => ?_⟩
  · obtain ⟨n, -, numbered, -⟩ := keysNumbered_after guarded storable room
    rw [accounted.records, accounted.toDutiesTrail.card_dutiesOfValidators numbered]
  · exact w_ok.toSound.prune_reports found done

/-- Three votes were permitted in the run of two guards, one of them is pruned, and the two that are
    left are on record. -/
theorem records_conserved_twoGuards :
    (∀ s ∈ Run.twoGuards, s.Guarded) ∧ Run.twoGuards.Storable ∧
      (after Run.twoGuards).table.recordCount .attestation = 2 ∧
      (after Run.twoGuards).metrics.pruned .attestation = 1 ∧
      ((after Run.twoGuards).dutiesOfKeys .attestation).card = 3 := by
  have tallied := records_conserved Run.guarded_twoGuards Run.storable_twoGuards
    (List.prefix_refl Run.twoGuards)
  have room : (after Run.twoGuards).keysAsked < 2 ^ 64 := by decide +kernel
  have left : (after Run.twoGuards).table.recordCount .attestation = 2 := by decide +kernel
  have pruned : (after Run.twoGuards).metrics.pruned .attestation = 1 := by decide +kernel
  have balance := tallied.2.1 room .attestation
  rw [left, pruned] at balance
  exact ⟨Run.guarded_twoGuards, Run.storable_twoGuards, left, pruned, balance.symm⟩

end World

end SlashingGuard
