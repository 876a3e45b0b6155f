import SlashingGuard.Proofs.Ledger.Pruning

/-! # Raising floors and dropping records

    The two things that half a prune does, for either duty kind: it raises the
    floor of the kind, and it drops records of the kind below a bound.  Done
    twice, the higher mark or bound counts; done for different kinds, or one
    after the other, their order does not matter.

    All equations are between ledgers, key for key.  A floor that does not
    move is not written, so the bytes of its value stay even if others would
    read as the same floor. -/

namespace SlashingGuard

/-! ## Floors raised twice -/

namespace Floor

/-- Where a candidate moves a floor, a higher one moves it too. -/
theorem moves_mono {floor : Floor} {candidate candidate' : UInt64} (le : candidate ≤ candidate')
    (h : floor.moves candidate) : floor.moves candidate' := by
  cases floor with
  | none => rfl
  | some current =>
    simp only [moves, decide_eq_true_eq] at h ⊢
    exact UInt64.lt_of_lt_of_le h le

/-- Of two candidates the higher counts. -/
theorem raised_raised {floor : Floor} {candidate candidate' : UInt64}
    (le : candidate ≤ candidate') :
    Floor.raised (some (floor.raised candidate)) candidate' = floor.raised candidate' := by
  cases floor with
  | none => exact raised_of_le le
  | some current =>
    by_cases lt : current < candidate
    · have first : Floor.raised (some current) candidate = candidate := by
        simp only [raised, if_pos lt]
      have le' : current ≤ candidate' := UInt64.le_trans (UInt64.le_of_lt lt) le
      rw [first, raised_of_le le, raised_of_le le']
    · have first : Floor.raised (some current) candidate = current := by
        simp only [raised, if_neg lt]
      rw [first]

end Floor

/-! ## Accounts, one kind at a time -/

namespace Account

/-- The account with the floor of a kind raised; the two epoch floors are raised together. -/
def raiseFloor (a : Account) : DutyKind → UInt64 → Account
  | .block, mark => a.raiseSlot mark
  | .attestation, mark => a.raiseEpochs mark mark

/-- The account without the records of a kind below a bound. -/
def dropRecords (a : Account) : DutyKind → UInt64 → Account
  | .block, bound => a.dropBlocks bound
  | .attestation, bound => a.dropVotes bound

/-- Whether the floor of a kind has to be written to raise it. -/
def floorMoves (a : Account) : DutyKind → UInt64 → Bool
  | .block, mark => Floor.moves a.slotFloor mark
  | .attestation, mark => Floor.moves a.sourceFloor mark || Floor.moves a.targetFloor mark

/-- What is written for the floor of a kind when it is raised. -/
def floorBytes (a : Account) : DutyKind → UInt64 → Bytes
  | .block, mark => Bytes.ofWord (a.slotFloor.raised mark)
  | .attestation, mark =>
    LedgerValue.writeEpochFloors (a.sourceFloor.raised mark) (a.targetFloor.raised mark)

variable {a : Account} {kind kind' : DutyKind} {mark mark' bound : UInt64}

@[simp] theorem recorded_raiseFloor :
    (a.raiseFloor kind' mark).recorded kind = a.recorded kind := by
  cases kind <;> cases kind' <;> rfl

@[simp] theorem floorOf_raiseFloor :
    (a.raiseFloor kind mark).floorOf kind = some ((a.floorOf kind).raised mark) := by
  cases kind <;> rfl

theorem floorOf_raiseFloor_of_ne (ne : kind ≠ kind') :
    (a.raiseFloor kind' mark).floorOf kind = a.floorOf kind := by
  cases kind <;> cases kind' <;> first | rfl | contradiction

@[simp] theorem floorOf_dropRecords :
    (a.dropRecords kind' bound).floorOf kind = a.floorOf kind := by
  cases kind <;> cases kind' <;> rfl

@[simp] theorem recorded_dropRecords :
    (a.dropRecords kind bound).recorded kind = {n ∈ a.recorded kind | bound ≤ n} := by
  ext n
  rw [Set.mem_sep_iff, ← UInt64.not_lt]
  cases kind with
  | block => by_cases below : n < bound <;> simp [dropRecords, below]
  | attestation => by_cases below : n < bound <;> simp [dropRecords, below]

theorem recorded_dropRecords_of_ne (ne : kind ≠ kind') :
    (a.dropRecords kind' bound).recorded kind = a.recorded kind := by
  cases kind <;> cases kind' <;> first | rfl | contradiction

/-! ### What is written -/

@[simp] theorem floorMoves_dropRecords :
    (a.dropRecords kind' bound).floorMoves kind mark = a.floorMoves kind mark := by
  cases kind <;> cases kind' <;> rfl

@[simp] theorem floorBytes_dropRecords :
    (a.dropRecords kind' bound).floorBytes kind mark = a.floorBytes kind mark := by
  cases kind <;> cases kind' <;> rfl

theorem floorMoves_raiseFloor_of_ne (ne : kind ≠ kind') :
    (a.raiseFloor kind' mark').floorMoves kind mark = a.floorMoves kind mark := by
  cases kind <;> cases kind' <;> first | rfl | contradiction

theorem floorBytes_raiseFloor_of_ne (ne : kind ≠ kind') :
    (a.raiseFloor kind' mark').floorBytes kind mark = a.floorBytes kind mark := by
  cases kind <;> cases kind' <;> first | rfl | contradiction

theorem floorMoves_mono (le : mark ≤ mark') (h : a.floorMoves kind mark) :
    a.floorMoves kind mark' := by
  cases kind with
  | block => exact Floor.moves_mono le h
  | attestation =>
    simp only [floorMoves, Bool.or_eq_true] at h ⊢
    exact h.imp (Floor.moves_mono le) (Floor.moves_mono le)

theorem floorBytes_raiseFloor (le : mark ≤ mark') :
    (a.raiseFloor kind mark).floorBytes kind mark' = a.floorBytes kind mark' := by
  cases kind with
  | block => exact congrArg Bytes.ofWord (Floor.raised_raised le)
  | attestation =>
    exact congrArg₂ LedgerValue.writeEpochFloors (Floor.raised_raised le) (Floor.raised_raised le)

/-- What does not have to be written is there already. -/
theorem floorBytes_of_still (le : mark ≤ mark')
    (still : (a.raiseFloor kind mark).floorMoves kind mark' = false) :
    a.floorBytes kind mark' = a.floorBytes kind mark := by
  have same := @floorBytes_raiseFloor a kind mark mark' le
  rw [← same]
  cases kind with
  | block => exact congrArg Bytes.ofWord (Floor.raised_of_not_moves still)
  | attestation =>
    obtain ⟨source, target⟩ := Bool.or_eq_false_iff.1 still
    exact congrArg₂ LedgerValue.writeEpochFloors (Floor.raised_of_not_moves source)
      (Floor.raised_of_not_moves target)

end Account

/-! ## Ledgers, one kind at a time -/

theorem Place.record_ne_floor (kind kind' : DutyKind) (id id' : ValidatorId) (n : UInt64) :
    Place.record kind id n ≠ .floor id' kind' := by
  cases kind <;> nofun

namespace Table

/-- The ledger with the floor of a kind raised; a floor that is high enough is not written. -/
def raiseFloor (t : Table Bytes) (id : ValidatorId) (kind : DutyKind) (m : UInt64) :
    Table Bytes :=
  if (t.account id).floorMoves kind m then
    t.insert (Place.floor id kind).bytes ((t.account id).floorBytes kind m)
  else t

/-- The ledger without the records of a kind below a bound. -/
def dropRecords (t : Table Bytes) (id : ValidatorId) (kind : DutyKind) (bound : UInt64) :
    Table Bytes :=
  t.dropBelow kind.family id bound

theorem raiseFloor_block (t : Table Bytes) (id : ValidatorId) (m : UInt64) :
    t.raiseFloor id .block m = t.raiseSlot id m := rfl

theorem raiseFloor_attestation (t : Table Bytes) (id : ValidatorId) (m : UInt64) :
    t.raiseFloor id .attestation m = t.raiseEpochs id m m := rfl

variable {t : Table Bytes} {id : ValidatorId} {kind kind' : DutyKind}
  {m m' bound bound' : UInt64}

@[simp] theorem account_raiseFloor :
    (t.raiseFloor id kind m).account id = (t.account id).raiseFloor kind m := by
  cases kind with
  | block => simp [raiseFloor_block, Account.raiseFloor]
  | attestation => simp [raiseFloor_attestation, Account.raiseFloor]

@[simp] theorem account_dropRecords :
    (t.dropRecords id kind bound).account id = (t.account id).dropRecords kind bound := by
  cases kind with
  | block => exact (account_dropBlocks t id id bound).trans (if_pos rfl)
  | attestation => exact (account_dropVotes t id id bound).trans (if_pos rfl)

theorem Legible.raiseFloor (legible : t.Legible) (id : ValidatorId) (kind : DutyKind)
    (m : UInt64) : (t.raiseFloor id kind m).Legible := by
  cases kind with
  | block => exact legible.raiseSlot id m
  | attestation => exact legible.raiseEpochs id m m

theorem Legible.dropRecords (legible : t.Legible) (id : ValidatorId) (kind : DutyKind)
    (bound : UInt64) : (t.dropRecords id kind bound).Legible :=
  legible.dropBelow kind.family id bound

/-! ### Two changes, one after the other -/

/-- Of two marks the higher counts. -/
theorem raiseFloor_raiseFloor (t : Table Bytes) (id : ValidatorId) (kind : DutyKind)
    (le : m ≤ m') :
    (t.raiseFloor id kind m).raiseFloor id kind m' = t.raiseFloor id kind m' := by
  by_cases moves : (t.account id).floorMoves kind m
  · have moves' := Account.floorMoves_mono le moves
    have raised : t.raiseFloor id kind m' =
        t.insert (Place.floor id kind).bytes ((t.account id).floorBytes kind m') := if_pos moves'
    have first : t.raiseFloor id kind m =
        t.insert (Place.floor id kind).bytes ((t.account id).floorBytes kind m) := if_pos moves
    rw [raised]
    by_cases again : ((t.account id).raiseFloor kind m).floorMoves kind m'
    · rw [raiseFloor, account_raiseFloor, if_pos again, Account.floorBytes_raiseFloor le, first,
        insert_insert]
    · have still := Bool.eq_false_iff.2 again
      rw [raiseFloor, account_raiseFloor, if_neg again, first, Account.floorBytes_of_still le still]
  · have first : t.raiseFloor id kind m = t := if_neg moves
    rw [first]

/-- The floors of the two kinds are raised in either order. -/
theorem raiseFloor_comm (t : Table Bytes) (id : ValidatorId) (ne : kind ≠ kind')
    (m m' : UInt64) :
    (t.raiseFloor id kind' m').raiseFloor id kind m =
      (t.raiseFloor id kind m).raiseFloor id kind' m' := by
  have keys : (Place.floor id kind).bytes ≠ (Place.floor id kind').bytes := by simpa using ne
  rw [raiseFloor, account_raiseFloor, Account.floorMoves_raiseFloor_of_ne ne,
    Account.floorBytes_raiseFloor_of_ne ne]
  conv_rhs => rw [raiseFloor, account_raiseFloor, Account.floorMoves_raiseFloor_of_ne ne.symm,
    Account.floorBytes_raiseFloor_of_ne ne.symm]
  simp only [raiseFloor]
  split
  · split
    · exact insert_comm _ keys.symm _ _
    · rfl
  · rfl

/-- Records are dropped before or after floors are raised. -/
theorem raiseFloor_dropRecords (t : Table Bytes) (id : ValidatorId) (kind kind' : DutyKind)
    (m bound : UInt64) :
    (t.dropRecords id kind' bound).raiseFloor id kind m =
      (t.raiseFloor id kind m).dropRecords id kind' bound := by
  rw [raiseFloor, account_dropRecords, Account.floorMoves_dropRecords,
    Account.floorBytes_dropRecords, raiseFloor]
  split
  · -- The key of a floor is not that of a record, and so it stays.
    have stays : ¬ isBelow kind'.family id bound (Place.floor id kind).bytes := by
      rw [isBelow_record_iff]
      rintro ⟨n, -, same⟩
      exact Place.record_ne_floor _ _ _ _ _ same.symm
    apply ext_get?
    intro key
    simp only [dropRecords, get?_insert, get?_dropBelow]
    by_cases here : (Place.floor id kind).bytes = key
    · subst here
      simp only [if_pos, if_neg stays]
    · simp only [if_neg here]
  · rfl

theorem dropRecords_comm (t : Table Bytes) (id : ValidatorId) (kind kind' : DutyKind)
    (bound bound' : UInt64) :
    (t.dropRecords id kind bound).dropRecords id kind' bound' =
      (t.dropRecords id kind' bound').dropRecords id kind bound := by
  apply ext_get?
  intro key
  simp only [dropRecords, get?_dropBelow]
  split <;> split <;> rfl

/-- Of two bounds the higher counts. -/
theorem dropRecords_dropRecords (t : Table Bytes) (id : ValidatorId) (kind : DutyKind)
    (le : bound ≤ bound') :
    (t.dropRecords id kind bound).dropRecords id kind bound' = t.dropRecords id kind bound' := by
  apply ext_get?
  intro key
  simp only [dropRecords, get?_dropBelow]
  by_cases below : isBelow kind.family id bound key
  · have below' : isBelow kind.family id bound' key := by
      rcases UInt64.lt_or_eq_of_le le with lt | rfl
      · simp only [isBelow, Bool.and_eq_true, decide_eq_true_eq] at below ⊢
        exact ⟨below.1, List.lt_trans below.2 (LedgerKey.indexed_lt_indexed.2 lt)⟩
      · exact below
    rw [if_pos below', if_pos below']
  · rw [if_neg below]

/-- The ledger with the floor of a kind raised to a mark and the records below the mark gone. -/
def trim (t : Table Bytes) (id : ValidatorId) (kind : DutyKind) (m : UInt64) : Table Bytes :=
  (t.raiseFloor id kind m).dropRecords id kind m

theorem trim_raiseFloor (t : Table Bytes) (id : ValidatorId) (kind : DutyKind)
    (le : m ≤ m') :
    (t.raiseFloor id kind m).trim id kind m' = t.trim id kind m' := by
  rw [trim, raiseFloor_raiseFloor t id kind le, trim]

theorem trim_trim (t : Table Bytes) (id : ValidatorId) (kind : DutyKind) (le : m ≤ m') :
    (t.trim id kind m).trim id kind m' = t.trim id kind m' := by
  rw [trim, trim, raiseFloor_dropRecords, raiseFloor_raiseFloor t id kind le,
    dropRecords_dropRecords _ id kind le, trim]

theorem trim_raiseFloor_of_ne (t : Table Bytes) (id : ValidatorId) (ne : kind ≠ kind')
    (m m' : UInt64) :
    (t.raiseFloor id kind' m').trim id kind m =
      (t.trim id kind m).raiseFloor id kind' m' := by
  rw [trim, raiseFloor_comm t id ne, trim, raiseFloor_dropRecords]

theorem trim_dropRecords_of_ne (t : Table Bytes) (id : ValidatorId) (kind kind' : DutyKind)
    (m bound : UInt64) :
    (t.dropRecords id kind' bound).trim id kind m =
      (t.trim id kind m).dropRecords id kind' bound := by
  rw [trim, raiseFloor_dropRecords, dropRecords_comm, trim]

end Table

end SlashingGuard
