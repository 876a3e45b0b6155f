import SlashingGuard.Proofs.Run.Rules
import SlashingGuard.Proofs.Run.Votes

/-! # Fresh duties are permitted

    A guard that checks what it permits does not lock its validators out.  In
    every world that a run of such guards leads to, the floors of a validator
    trail behind its newest duty: there is a floor of a kind exactly if there
    is a record of it, the floor is not above the newest record, and that
    record is the newest that was ever permitted.  The two floors for votes
    agree.

    So whatever lies behind everything that was permitted is above all floors
    and is in conflict with no record, and the rules permit it, however
    prunes were interleaved or cut. -/

namespace SlashingGuard

/-! ## Floors that trail -/

section Greatest

variable {s s' : Set UInt64} {n index : UInt64}

theorem isGreatest_of_le (h : IsGreatest s n) (le : index ≤ n)
    (added : ∀ i, i ∈ s' ↔ i ∈ s ∨ i = index) : IsGreatest s' n := by
  refine ⟨(added n).2 (.inl h.1), ?_⟩
  intro i hi
  rcases (added i).1 hi with old | rfl
  · exact h.2 old
  · exact le

theorem isGreatest_added (below : ∀ i ∈ s, i ≤ index)
    (added : ∀ i, i ∈ s' ↔ i ∈ s ∨ i = index) : IsGreatest s' index := by
  refine ⟨(added index).2 (.inr rfl), ?_⟩
  intro i hi
  rcases (added i).1 hi with old | rfl
  · exact below i old
  · exact UInt64.le_refl _

end Greatest

/-- A floor of a kind, the records of the kind and what was permitted of it: the floor is set
    exactly if there is a record, it is not above the newest record, and nothing newer than that
    record was permitted. -/
structure Floor.Trails (floor : Floor) (recorded permitted : Set UInt64) : Prop where
  isSome_iff : floor.isSome ↔ recorded.Nonempty
  newest : ∀ f, floor = some f →
    ∃ newest, f ≤ newest ∧ IsGreatest recorded newest ∧ IsGreatest permitted newest
  unset : floor = none → permitted = ∅

namespace Floor.Trails

variable {floor : Floor} {recorded recorded' permitted permitted' : Set UInt64} {index : UInt64}

theorem of_isGreatest {f newest : UInt64} (le : f ≤ newest) (hr : IsGreatest recorded newest)
    (hp : IsGreatest permitted newest) : Trails (some f) recorded permitted where
  isSome_iff := ⟨fun _ => ⟨newest, hr.1⟩, fun _ => rfl⟩
  newest f' hf := by
    obtain rfl := Option.some.inj hf
    exact ⟨newest, le, hr, hp⟩
  unset none := by contradiction

theorem of_unused (hr : ∀ i, i ∉ recorded) (hp : ∀ i, i ∉ permitted) :
    Trails none recorded permitted where
  isSome_iff := ⟨fun h => by contradiction, fun ⟨i, hi⟩ => absurd hi (hr i)⟩
  newest _ h := by contradiction
  unset _ := Set.ext fun i => ⟨fun hi => absurd hi (hp i), fun hi => by contradiction⟩

/-- A duty that is not below the floor is permitted and recorded; the floor is set if it was
    not. -/
theorem record (h : floor.Trails recorded permitted) (visible : ∀ f, floor = some f → f ≤ index)
    (hr : ∀ i, i ∈ recorded' ↔ i ∈ recorded ∨ i = index)
    (hp : ∀ i, i ∈ permitted' ↔ i ∈ permitted ∨ i = index) :
    Trails (some (floor.raised 0)) recorded' permitted' := by
  cases floor with
  | none =>
    have unrecorded : ∀ i ∈ recorded, i ≤ index := by
      intro i hi
      have set := h.isSome_iff.2 ⟨i, hi⟩
      contradiction
    have unpermitted : ∀ i ∈ permitted, i ≤ index := by
      intro i hi
      rw [h.unset rfl] at hi
      contradiction
    exact of_isGreatest UInt64.zero_le (isGreatest_added unrecorded hr)
      (isGreatest_added unpermitted hp)
  | some f =>
    obtain ⟨n, le, greatest, greatest'⟩ := h.newest f rfl
    by_cases older : index ≤ n
    · have bound : Floor.raised (some f) 0 ≤ n :=
        Floor.raised_le (fun f' hf => Option.some.inj hf ▸ le) UInt64.zero_le
      exact of_isGreatest bound (isGreatest_of_le greatest older hr)
        (isGreatest_of_le greatest' older hp)
    · -- The duty is newer than all before it.
      have newer := UInt64.le_of_lt (UInt64.not_le.1 older)
      have bound : Floor.raised (some f) 0 ≤ index := Floor.raised_le visible UInt64.zero_le
      exact of_isGreatest bound
        (isGreatest_added (fun i hi => UInt64.le_trans (greatest.2 hi) newer) hr)
        (isGreatest_added (fun i hi => UInt64.le_trans (greatest'.2 hi) newer) hp)

/-- A duty that is recorded is permitted once more. -/
theorem again (h : floor.Trails recorded permitted) (there : index ∈ recorded)
    (hp : ∀ i, i ∈ permitted' ↔ i ∈ permitted ∨ i = index) :
    floor.Trails recorded permitted' := by
  obtain ⟨f, hf⟩ := Option.isSome_iff_exists.1 (h.isSome_iff.2 ⟨index, there⟩)
  subst hf
  obtain ⟨n, le, greatest, greatest'⟩ := h.newest f rfl
  exact of_isGreatest le greatest (isGreatest_of_le greatest' (greatest.2 there) hp)

/-- Something as new as the floor was permitted. -/
theorem floor_le (h : floor.Trails recorded permitted) {f : UInt64} (hf : floor = some f) :
    ∃ i ∈ permitted, f ≤ i := by
  obtain ⟨n, le, -, greatest⟩ := h.newest f hf
  exact ⟨n, greatest.1, le⟩

/-- Something as new as any record was permitted. -/
theorem recorded_le (h : floor.Trails recorded permitted) (there : index ∈ recorded) :
    ∃ i ∈ permitted, index ≤ i := by
  obtain ⟨f, hf⟩ := Option.isSome_iff_exists.1 (h.isSome_iff.2 ⟨index, there⟩)
  obtain ⟨n, -, greatest, greatest'⟩ := h.newest f hf
  exact ⟨n, greatest'.1, greatest.2 there⟩

end Floor.Trails

/-! ## Accounts whose floors trail -/

namespace Account

/-- The floors of an account trail behind what was permitted of each kind, and the two floors for
    votes agree. -/
structure Trails (a : Account) (permitted : DutyKind → Set UInt64) : Prop where
  floor : ∀ kind, (a.floorOf kind).Trails (a.recorded kind) (permitted kind)
  even : a.sourceFloor = a.targetFloor

variable {a b : Account} {permitted permitted' : DutyKind → Set UInt64} {slot : Slot} {vote : Vote}

theorem le_of_not_hidesBlock (visible : ¬ a.HidesBlock slot) {f : Slot}
    (hf : a.slotFloor = some f) : f ≤ slot :=
  UInt64.not_lt.1 fun lt => visible ⟨f, hf, lt⟩

theorem le_of_not_hidesVote (visible : ¬ a.HidesVote vote) {f : Epoch}
    (hf : a.targetFloor = some f) : f ≤ vote.target := by
  obtain ⟨⟨source, target⟩, floors, rfl⟩ := Option.map_eq_some_iff.1 hf
  exact UInt64.not_lt.1 fun lt => visible ⟨source, target, floors, .inl lt⟩

namespace Trails

theorem recordBlock (h : a.Trails permitted) (visible : ¬ a.HidesBlock slot) (root : SigningRoot)
    (hp : ∀ kind i, i ∈ permitted' kind ↔ i ∈ permitted kind ∨ kind = .block ∧ i = slot) :
    (a.recordBlock slot root).Trails permitted' where
  floor kind := by
    cases kind with
    | block =>
      apply (h.floor .block).record (fun f hf => le_of_not_hidesBlock visible hf)
      · intro i
        simpa using mem_recorded_recordBlock a slot root .block i
      · intro i
        simpa using hp .block i
    | attestation =>
      have same : permitted' .attestation = permitted .attestation :=
        Set.ext fun i => by simpa using hp .attestation i
      rw [same]
      exact h.floor .attestation
  even := h.even

theorem recordVote (h : a.Trails permitted) (visible : ¬ a.HidesVote vote) (root : SigningRoot)
    (hp : ∀ kind i,
      i ∈ permitted' kind ↔ i ∈ permitted kind ∨ kind = .attestation ∧ i = vote.target) :
    (a.recordVote vote root).Trails permitted' where
  floor kind := by
    cases kind with
    | block =>
      have same : permitted' .block = permitted .block :=
        Set.ext fun i => by simpa using hp .block i
      rw [same]
      exact h.floor .block
    | attestation =>
      apply (h.floor .attestation).record (fun f hf => le_of_not_hidesVote visible hf)
      · intro i
        simpa using mem_recorded_recordVote a vote root .attestation i
      · intro i
        simpa using hp .attestation i
  even := by
    show some (a.sourceFloor.raised 0) = some (a.targetFloor.raised 0)
    rw [h.even]

/-- A duty that is recorded is permitted once more. -/
theorem again (h : a.Trails permitted) {kind : DutyKind} {index : UInt64}
    (there : index ∈ a.recorded kind)
    (hp : ∀ k i, i ∈ permitted' k ↔ i ∈ permitted k ∨ k = kind ∧ i = index) :
    a.Trails permitted' where
  floor k := by
    by_cases same : k = kind
    · subst same
      exact (h.floor k).again there fun i => by simpa using hp k i
    · have unchanged : permitted' k = permitted k := Set.ext fun i => by simpa [same] using hp k i
      rw [unchanged]
      exact h.floor k
  even := h.even

/-- A prune leaves the newest record of a kind and a floor that is not above it. -/
theorem pruned (h : a.Trails permitted) (pruned : a.Pruned b) (keeps : a.KeepsNewest b) :
    b.Trails permitted where
  floor kind := by
    have sub : ∀ i ∈ b.recorded kind, i ∈ a.recorded kind := by
      intro i hi
      cases kind with
      | block =>
        rcases pruned.block i with same | ⟨gone, -⟩
        · simpa [same] using hi
        · simp [gone] at hi
      | attestation =>
        rcases pruned.vote i with same | ⟨gone, -⟩
        · simpa [same] using hi
        · simp [gone] at hi
    have same := keeps.floor_isSome kind
    cases set : b.floorOf kind with
    | none =>
      have unset : a.floorOf kind = none := by simpa [set] using same
      refine ⟨⟨fun h => by contradiction, fun ⟨i, hi⟩ => ?_⟩, fun _ h => by contradiction,
        fun _ => (h.floor kind).unset unset⟩
      have there := (h.floor kind).isSome_iff.2 ⟨i, sub i hi⟩
      simp [unset] at there
    | some f =>
      obtain ⟨f₀, set₀⟩ := Option.isSome_iff_exists.1 (same ▸ by rw [set]; rfl :
        (a.floorOf kind).isSome = true)
      obtain ⟨n, le, greatest, greatest'⟩ := (h.floor kind).newest f₀ set₀
      have newest : a.NewestAt kind n := by
        refine ⟨greatest, fun f hf => ?_⟩
        obtain rfl := Option.some.inj (set₀.symm.trans hf)
        exact le
      have kept := keeps.newest kind n newest
      exact .of_isGreatest (kept.floor_le f set) kept.greatest greatest'
  even := keeps.even h.even

/-! ## What is judged fresh -/

/-- A block behind all blocks that were permitted is permitted. -/
theorem judgeBlock_fresh (h : a.Trails permitted) (fresh : ∀ i ∈ permitted .block, i < slot)
    (root : SigningRoot) : a.judgeBlock slot root = .permit := by
  rw [judgeBlock_eq_permit_iff]
  constructor
  · intro hidden
    obtain ⟨f, hf, lt⟩ := hidden
    obtain ⟨i, hi, le⟩ := (h.floor .block).floor_le hf
    exact UInt64.lt_irrefl _ (UInt64.lt_trans (UInt64.lt_of_lt_of_le lt le) (fresh i hi))
  · intro signed stored
    have there : slot ∈ a.recorded .block := by simp [stored]
    obtain ⟨i, hi, le⟩ := (h.floor .block).recorded_le there
    exact absurd (UInt64.lt_of_le_of_lt le (fresh i hi)) (UInt64.lt_irrefl _)

/-- So is a vote with its target behind all targets that were permitted, and its source not before
    any of them. -/
theorem judgeVote_fresh (h : a.Trails permitted) (ordered : a.Ordered)
    (order : vote.source ≤ vote.target) (fresh : ∀ i ∈ permitted .attestation, i < vote.target)
    (reached : ∀ i ∈ permitted .attestation, i ≤ vote.source) (root : SigningRoot) :
    a.judgeVote vote root = .permit := by
  -- Every record ends before the target of the vote, and no later than its source.
  have behind : ∀ target source root, a.vote target = some (source, root) →
      target < vote.target ∧ target ≤ vote.source := by
    intro target source root stored
    have there : target ∈ a.recorded .attestation := by simp [stored]
    obtain ⟨i, hi, le⟩ := (h.floor .attestation).recorded_le there
    exact ⟨UInt64.lt_of_le_of_lt le (fresh i hi), UInt64.le_trans le (reached i hi)⟩
  rw [judgeVote_eq_permit_iff]
  refine ⟨order, ?_, .inr ⟨?_, ?_, ?_⟩⟩
  · intro hidden
    obtain ⟨s, t, floors, below⟩ := hidden
    have target : a.targetFloor = some t := by rw [targetFloor, floors]; rfl
    have source : a.sourceFloor = some s := by rw [sourceFloor, floors]; rfl
    obtain rfl : s = t := Option.some.inj (source.symm.trans (h.even.trans target))
    obtain ⟨i, hi, le⟩ := (h.floor .attestation).floor_le target
    rcases below with below | below
    · exact UInt64.lt_irrefl _ (UInt64.lt_trans (UInt64.lt_of_lt_of_le below le) (fresh i hi))
    · exact UInt64.lt_irrefl _
        (UInt64.lt_of_lt_of_le (UInt64.lt_of_lt_of_le below le) (reached i hi))
  · cases stored : a.vote vote.target with
    | none => rfl
    | some signed => exact absurd (behind _ _ _ stored).1 (UInt64.lt_irrefl _)
  · intro surrounds
    obtain ⟨source, target, signed, stored, -, later⟩ := surrounds
    exact UInt64.lt_irrefl _ (UInt64.lt_trans later (behind _ _ _ stored).1)
  · intro surrounded
    obtain ⟨source, target, signed, stored, later, -⟩ := surrounded
    have le := UInt64.le_trans (ordered _ _ _ stored) (behind _ _ _ stored).2
    exact UInt64.lt_irrefl _ (UInt64.lt_of_lt_of_le later le)

end Trails

end Account

/-! ## What was permitted -/

/-- The key, the kind and the slot or target that a signing request is about. -/
def Operation.duty? : Operation → Option (PublicKey × DutyKind × UInt64)
  | .signBlock key slot _ => some (key, .block, slot)
  | .signAttestation key vote _ => some (key, .attestation, vote.target)
  | _ => none

/-- An event in which a duty was permitted for a key. -/
def Event.Permits (e : Event) (key : PublicKey) (kind : DutyKind) (index : UInt64) : Prop :=
  e.reply = .ok .permit ∧ e.operation.duty? = some (key, kind, index)

namespace Event

/-- What was permitted of each kind for the validator `id`, before an event and with it. -/
def Extends (e : Event) (r : Registry) (id : ValidatorId)
    (permitted permitted' : DutyKind → Set UInt64) : Prop :=
  ∀ kind i, i ∈ permitted' kind ↔
    i ∈ permitted kind ∨ ∃ key, e.Permits key kind i ∧ r.idOf key = some id

variable {e : Event} {r : Registry} {id id' : ValidatorId}
  {permitted permitted' : DutyKind → Set UInt64} {key : PublicKey} {kind : DutyKind}
  {index : UInt64}

/-- What permits nothing for the validator adds nothing. -/
theorem Extends.eq (h : e.Extends r id permitted permitted')
    (nothing : ∀ key kind i, e.Permits key kind i → r.idOf key ≠ some id) :
    permitted' = permitted := by
  funext kind
  apply Set.ext
  intro i
  rw [h kind i]
  constructor
  · intro hi
    rcases hi with old | ⟨key, permits, number⟩
    · exact old
    · exact absurd number (nothing key kind i permits)
  · exact .inl

/-- An event permits one duty. -/
theorem Extends.mem_iff (h : e.Extends r id permitted permitted')
    (permits : e.Permits key kind index) (number : r.idOf key = some id) (k : DutyKind)
    (i : UInt64) : i ∈ permitted' k ↔ i ∈ permitted k ∨ k = kind ∧ i = index := by
  rw [h k i]
  constructor
  · intro hi
    refine hi.imp_right ?_
    intro new
    obtain ⟨key', permits', -⟩ := new
    have same := Option.some.inj (permits'.2.symm.trans permits.2)
    exact Prod.mk.inj (Prod.mk.inj same).2
  · intro hi
    refine hi.imp_right ?_
    intro new
    obtain ⟨rfl, rfl⟩ := new
    exact ⟨key, permits, number⟩

/-- It adds nothing for anybody but the validator of its key. -/
theorem Extends.eq_of_ne (h : e.Extends r id permitted permitted')
    (permits : e.Permits key kind index) (number : r.idOf key = some id') (ne : id ≠ id') :
    permitted' = permitted := by
  apply h.eq
  intro key' kind' i permits' number'
  have same := Option.some.inj (permits'.2.symm.trans permits.2)
  obtain rfl : key' = key := (Prod.mk.inj same).1
  exact ne (Option.some.inj (number'.symm.trans number))

end Event

/-- A guard that checks permits duties of keys that it knows. -/
theorem Outcome.known_of_permits {g g' : Guard} {t t' : Table Bytes} {op : Operation}
    {reply : Except GuardError Reply} (h : Outcome g t op reply g' t')
    (enabled : g.config.enabled) {key : PublicKey} {kind : DutyKind} {index : UInt64}
    (permits : Event.Permits ⟨op, reply⟩ key kind index) : ∃ id, g.validatorId? key = some id := by
  obtain ⟨permit, duty⟩ := permits
  cases h with
  | idle refused => exact absurd permit refused
  | thinned _ refused => exact absurd permit refused
  | unchecked disabled =>
    rw [enabled] at disabled
    contradiction
  | registered _ => contradiction
  | block known _ _ _ | blockAgain known _ _ | vote known _ _ _ | voteAgain known _ _ =>
    have same := (Prod.mk.inj (Option.some.inj duty)).1
    exact ⟨_, same ▸ known⟩

/-- What is said of an account and of what was permitted for it, and is kept by permits and by
    prunes. -/
structure Account.Carried (R : Account → (DutyKind → Set UInt64) → Prop) : Prop where
  recordBlock : ∀ {a permitted permitted' slot} (root : SigningRoot), R a permitted →
    ¬ a.HidesBlock slot →
      (∀ kind i, i ∈ permitted' kind ↔ i ∈ permitted kind ∨ kind = .block ∧ i = slot) →
        R (a.recordBlock slot root) permitted'
  recordVote : ∀ {a permitted permitted' vote} (root : SigningRoot), R a permitted →
    ¬ a.HidesVote vote →
      (∀ kind i, i ∈ permitted' kind ↔ i ∈ permitted kind ∨
        kind = .attestation ∧ i = vote.target) →
          R (a.recordVote vote root) permitted'
  again : ∀ {a permitted permitted' kind index}, R a permitted → index ∈ a.recorded kind →
    (∀ k i, i ∈ permitted' k ↔ i ∈ permitted k ∨ k = kind ∧ i = index) → R a permitted'
  pruned : ∀ {a b permitted}, R a permitted → a.Pruned b → a.KeepsNewest b → R b permitted

theorem Account.carried_trails : Account.Carried Account.Trails where
  recordBlock root h visible more := h.recordBlock visible root more
  recordVote root h visible more := h.recordVote visible root more
  again h there more := h.again there more
  pruned h pruned keeps := h.pruned pruned keeps

/-- It holds of every account that an operation leaves, with what the operation permitted itself. -/
theorem Outcome.carries {g g' : Guard} {t t' : Table Bytes} {op : Operation}
    {reply : Except GuardError Reply} (h : Outcome g t op reply g' t')
    {R : Account → (DutyKind → Set UInt64) → Prop} (carried : Account.Carried R)
    (enabled : g.config.enabled)
    (agrees : ∀ key id, g.validatorId? key = some id → t.registry.idOf key = some id)
    {id : ValidatorId} {permitted permitted' : DutyKind → Set UInt64}
    (holds : R (t.account id) permitted)
    (more : Event.Extends ⟨op, reply⟩ t'.registry id permitted permitted') :
    R (t'.account id) permitted' := by
  cases h with
  | idle refused =>
    rw [more.eq fun _ _ _ permits => absurd permits.1 refused]
    exact holds
  | unchecked disabled =>
    rw [enabled] at disabled
    contradiction
  | registered _ =>
    rw [more.eq fun _ _ _ permits => nomatch permits.1]
    rwa [Table.account_registerKeys]
  | thinned thinned refused =>
    rw [more.eq fun _ _ _ permits => absurd permits.1 refused]
    exact carried.pruned holds (thinned.account id) (thinned.newest id)
  | @block key id' slot root known _ _ permit =>
    have visible := (Account.judgeBlock_eq_permit_iff.1 permit).1
    have number : (t.recordBlock id' slot root).registry.idOf key = some id' := by
      rw [Table.registry_recordBlock]
      exact agrees key id' known
    rw [Table.account_recordBlock]
    split
    · next same =>
      subst same
      exact carried.recordBlock root holds visible (more.mem_iff ⟨rfl, rfl⟩ number)
    · next other =>
      rw [more.eq_of_ne ⟨rfl, rfl⟩ number other]
      exact holds
  | @blockAgain key id' slot root known again permit =>
    have number := agrees key id' known
    by_cases same : id = id'
    · subst same
      have there : slot ∈ (t.account id).recorded .block := by simp [again]
      exact carried.again holds there (more.mem_iff ⟨rfl, rfl⟩ number)
    · rw [more.eq_of_ne ⟨rfl, rfl⟩ number same]
      exact holds
  | @vote key id' vote root known _ _ permit =>
    have visible := (Account.judgeVote_eq_permit_iff.1 permit).2.1
    have number : (t.recordVote id' vote root).registry.idOf key = some id' := by
      rw [Table.registry_recordVote]
      exact agrees key id' known
    rw [Table.account_recordVote]
    split
    · next same =>
      subst same
      exact carried.recordVote _ holds visible (more.mem_iff ⟨rfl, rfl⟩ number)
    · next other =>
      rw [more.eq_of_ne ⟨rfl, rfl⟩ number other]
      exact holds
  | @voteAgain key id' vote root source known again permit =>
    have number := agrees key id' known
    by_cases same : id = id'
    · subst same
      have there : vote.target ∈ (t.account id).recorded .attestation := by simp [again]
      exact carried.again holds there (more.mem_iff ⟨rfl, rfl⟩ number)
    · rw [more.eq_of_ne ⟨rfl, rfl⟩ number same]
      exact holds

namespace World

variable {run : Run} {w w' : World}

/-- The slots or targets that were permitted for the keys of a validator. -/
def permittedFor (w : World) (id : ValidatorId) (kind : DutyKind) : Set UInt64 :=
  {i | ∃ e ∈ w.log, ∃ key, e.Permits key kind i ∧ w.table.registry.idOf key = some id}

/-- Every key that something was permitted for has a number, and all floors trail. -/
structure DutiesTrail (w : World) : Prop where
  named : ∀ e ∈ w.log, ∀ key kind i, e.Permits key kind i →
    ∃ id, w.table.registry.idOf key = some id
  trails : ∀ id, (w.table.account id).Trails (w.permittedFor id)

/-- What is permitted for a validator grows by what the last event permits, also when numbers are
    given out in it. -/
theorem DutiesTrail.extends (h : w.DutiesTrail) (remembers : w.table.Remembers w'.table)
    {e : Event} (log : w'.log = w.log ++ [e]) (id : ValidatorId) :
    e.Extends w'.table.registry id (w.permittedFor id) (w'.permittedFor id) := by
  intro kind i
  constructor
  · intro hi
    obtain ⟨e', he, key, permits, number⟩ := hi
    rw [log] at he
    rcases List.mem_append.1 he with he | he
    · -- An old permit is for a key that had its number already.
      obtain ⟨id', number'⟩ := h.named e' he key kind i permits
      have same := (remembers.idOf key id' number').symm.trans number
      exact .inl ⟨e', he, key, permits, number'.trans same⟩
    · rw [List.mem_singleton.1 he] at permits
      exact .inr ⟨key, permits, number⟩
  · intro hi
    rcases hi with ⟨e', he, key, permits, number⟩ | ⟨key, permits, number⟩
    · exact ⟨e', log ▸ List.mem_append_left _ he, key, permits,
        remembers.idOf key id number⟩
    · exact ⟨e, log ▸ List.mem_append_right _ List.mem_cons_self, key, permits, number⟩

theorem DutiesTrail.step (h : w.DutiesTrail) (w_ok : w.Protected run) {g g' : Guard}
    (hg : g ∈ w.guards) {op : Operation} {reply : Except GuardError Reply}
    (outcome : Outcome g w.table op reply g' w'.table)
    (log : w'.log = w.log ++ [⟨op, reply⟩]) : w'.DutiesTrail where
  named e he key kind i permits := by
    rw [log] at he
    rcases List.mem_append.1 he with he | he
    · obtain ⟨id, number⟩ := h.named e he key kind i permits
      exact ⟨id, outcome.remembers.idOf key id number⟩
    · rw [List.mem_singleton.1 he] at permits
      obtain ⟨id, known⟩ := outcome.known_of_permits (w_ok.enabled g hg) permits
      exact ⟨id, outcome.remembers.idOf key id (w_ok.agrees g hg key id known)⟩
  trails id := outcome.carries Account.carried_trails (w_ok.enabled g hg) (w_ok.agrees g hg)
    (h.trails id) (h.extends outcome.remembers log id)

theorem dutiesTrail_empty : DutiesTrail empty where
  named _ h := by contradiction
  trails id := by
    have unpermitted : ∀ kind i, i ∉ permittedFor empty id kind := by
      intro kind i hi
      obtain ⟨e, he, -⟩ := hi
      contradiction
    refine ⟨fun kind => ?_, rfl⟩
    cases kind with
    | block => exact .of_unused (fun _ hi => by contradiction) (unpermitted .block)
    | attestation => exact .of_unused (fun _ hi => by contradiction) (unpermitted .attestation)

theorem dutiesTrail_after (guarded : ∀ s ∈ run, s.Guarded) (storable : run.Storable) :
    (after run).Protected run ∧ (after run).DutiesTrail := by
  apply protected_induction guarded storable dutiesTrail_empty
  · intro w w' table log h
    obtain ⟨named, trails⟩ := h
    unfold permittedFor at trails
    rw [← table, ← log] at named trails
    exact ⟨named, trails⟩
  · intro w w' w_ok s _ g hg op reply g' _ outcome log h
    exact h.step w_ok hg outcome log

/-- After every run of guards that check what they permit, the floors of every validator trail
    behind its duties.  A guard that knows a key of it permits every block behind all blocks that
    were permitted, and every vote whose target is behind, and whose source is not before, all
    targets that were permitted.  If fewer keys were registered than there are numbers, what was
    permitted for the validator is what was permitted for this key. -/
theorem fresh_duties_permitted {run : Run} (guarded : ∀ s ∈ run, s.Guarded)
    (storable : run.Storable) (id : ValidatorId) :
    ((after run).table.account id).Trails ((after run).permittedFor id) ∧
      ∀ g ∈ (after run).guards, ∀ key, g.validatorId? key = some id → ∀ metrics,
        (∀ slot root, (∀ i ∈ (after run).permittedFor id .block, i < slot) →
          ((Guard.signBlock key slot root).onTable ⟨g, metrics⟩ (after run).table).1 =
            .ok .permit) ∧
        (∀ vote root, vote.source ≤ vote.target →
          (∀ i ∈ (after run).permittedFor id .attestation,
            i < vote.target ∧ i ≤ vote.source) →
          ((Guard.signAttestation key vote root).onTable ⟨g, metrics⟩ (after run).table).1 =
            .ok .permit) ∧
        ((after run).keysAsked < 2 ^ 64 → ∀ kind i, i ∈ (after run).permittedFor id kind ↔
          ∃ e ∈ (after run).log, e.Permits key kind i) := by
  obtain ⟨w_ok, duties⟩ := dutiesTrail_after guarded storable
  have trails := duties.trails id
  refine ⟨trails, ?_⟩
  intro g hg key known metrics
  have number := w_ok.agrees g hg key id known
  have registered := w_ok.linked key id number
  have free : ∀ lock, lock ∉ g.held := by simp [w_ok.idle g hg]
  refine ⟨?_, ?_, ?_⟩
  · intro slot root fresh
    have follows := Guard.followsRule_signBlock (c := ⟨g, metrics⟩) w_ok.wellFormed registered
      (w_ok.enabled g hg) known (free _) slot root
    rw [follows.answer]
    exact congrArg Except.ok (trails.judgeBlock_fresh fresh root)
  · intro vote root ordered fresh
    have follows := Guard.followsRule_signAttestation (c := ⟨g, metrics⟩) w_ok.wellFormed
      registered (w_ok.enabled g hg) known (free _) vote root
    rw [follows.answer]
    exact congrArg Except.ok (trails.judgeVote_fresh (w_ok.wellFormed.ordered id) ordered
      (fun i hi => (fresh i hi).1) (fun i hi => (fresh i hi).2) root)
  · intro room kind i
    obtain ⟨n, -, numbered, -⟩ := keysNumbered_after guarded storable room
    constructor
    · intro hi
      obtain ⟨e, he, key', permits, number'⟩ := hi
      obtain rfl := numbered.injective key' key id number' number
      exact ⟨e, he, permits⟩
    · intro hi
      obtain ⟨e, he, permits⟩ := hi
      exact ⟨e, he, key, permits, number⟩

/-- Nothing that two guards permit is behind nine. -/
theorem permits_le_twoGuards {e : Event} (he : e ∈ (after Run.twoGuards).log) {key : PublicKey}
    {kind : DutyKind} {i : UInt64} (permits : e.Permits key kind i) : i ≤ 9 := by
  have all : (after Run.twoGuards).log.all (fun e =>
      e.operation.duty?.all fun duty => decide (duty.2.2 ≤ 9)) = true := by
    decide +kernel
  have le := List.all_eq_true.1 all e he
  rw [permits.2] at le
  simpa using le

/-- A vote was pruned and floors were raised in the run of two guards; the next duties are permitted
    all the same. -/
theorem fresh_duties_permitted_twoGuards :
    ((after Run.twoGuards).table.account ⟨1⟩).epochFloors = some (7, 7) ∧
      ∃ g ∈ (after Run.twoGuards).guards,
        ((Guard.signBlock Run.oneKey 10 ⟨[5]⟩).onTable ⟨g, .zero⟩
          (after Run.twoGuards).table).1 = .ok .permit ∧
        ((Guard.signAttestation Run.oneKey ⟨9, 10⟩ ⟨[5]⟩).onTable ⟨g, .zero⟩
          (after Run.twoGuards).table).1 = .ok .permit := by
  have floors : ((after Run.twoGuards).table.account ⟨1⟩).epochFloors = some (7, 7) := by
    decide +kernel
  have guard : (after Run.twoGuards).guards[0]?.map (·.validatorId? Run.oneKey) =
      some (some ⟨1⟩) := by
    decide +kernel
  obtain ⟨g, found, known⟩ := Option.map_eq_some_iff.1 guard
  have hg := List.mem_of_getElem? found
  have le : ∀ kind, ∀ i ∈ (after Run.twoGuards).permittedFor ⟨1⟩ kind, i ≤ 9 := by
    intro kind i hi
    obtain ⟨e, he, key, permits, -⟩ := hi
    exact permits_le_twoGuards he permits
  have behind : ∀ i : UInt64, i ≤ 9 → i < 10 := fun i hi => UInt64.lt_of_le_of_lt hi (by decide)
  obtain ⟨-, fresh⟩ := fresh_duties_permitted Run.guarded_twoGuards Run.storable_twoGuards ⟨1⟩
  obtain ⟨blocks, votes, -⟩ := fresh g hg Run.oneKey known .zero
  refine ⟨floors, g, hg, ?_, ?_⟩
  · exact blocks 10 ⟨[5]⟩ fun i hi => behind i (le .block i hi)
  · have ordered : (9 : UInt64) ≤ 10 := by decide
    exact votes ⟨9, 10⟩ ⟨[5]⟩ ordered fun i hi =>
      ⟨behind i (le .attestation i hi), le .attestation i hi⟩

end World

end SlashingGuard
