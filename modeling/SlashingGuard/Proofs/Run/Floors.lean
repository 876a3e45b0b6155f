import SlashingGuard.Proofs.Run.Proposals
import SlashingGuard.Proofs.Run.Votes

/-! # Floors rise and bind

    Over a run of guards that check what they permit, also with transactions
    that are taken past them, a floor that is stored stays stored and does not
    fall.  A request that lies below a floor stored at any earlier moment is
    therefore below the floor of the moment it is asked, and is not permitted,
    whatever the ledger has recorded for it.

    Nothing is asked of the transactions: no change that work on a ledger is
    made of takes a floor away or lowers it. -/

namespace SlashingGuard

/-! ## No change lowers a floor -/

namespace Table

variable {allowed : Bytes → Prop} {t t' : Table Bytes}

theorem Changed.floorsRise (h : Changed allowed t t') (id : ValidatorId) :
    (t.account id).FloorsRise (t'.account id) := by
  cases h with
  | block slot _ _ =>
    rw [account_putBlock]
    split
    · next same => exact same ▸ .of_eq rfl rfl
    · exact .refl _
  | vote _ _ _ =>
    rw [account_putVote]
    split
    · next same => exact same ▸ .of_eq rfl rfl
    · exact .refl _
  | slotFloor slot _ =>
    rw [account_raiseSlot]
    split
    · next same => exact same ▸ .raiseSlot _ slot
    · exact .refl _
  | epochFloors source target _ =>
    rw [account_raiseEpochs]
    split
    · next same => exact same ▸ .raiseEpochs _ source target
    · exact .refl _
  | dropBlocks id' bound =>
    rw [account_dropBlocks]
    split
    · next same => exact same ▸ .of_eq rfl rfl
    · exact .refl _
  | dropVotes id' bound =>
    rw [account_dropVotes]
    split
    · next same => exact same ▸ .of_eq rfl rfl
    · exact .refl _
  | enroll number _ _ =>
    rw [account_enroll]
    exact .refl _
  | setNext number =>
    rw [account_setNext]
    exact .refl _

theorem Reaches.floorsRise (h : Reaches allowed t t') (id : ValidatorId) :
    (t.account id).FloorsRise (t'.account id) := by
  induction h with
  | refl => exact .refl _
  | tail _ change ih => exact ih.trans (change.floorsRise id)

end Table

/-! ## Steps of guards that check -/

/-- A step of guards that check what they permit; anybody may write to the ledger past them. -/
def Step.Checked : Step → Prop
  | .start config => config.enabled
  | _ => True

namespace World

variable {run : Run} {w w' : World}

/-- One step makes changes of a ledger.  What it adds to the log is what an operation of a guard
    that checks has replied on the ledger as it was. -/
theorem Protected.checked_step (w_ok : w.Protected run) (storable : run.Storable) {s : Step}
    (hs : s ∈ run) (checked : s.Checked) :
    (w.step s).Protected run ∧ w.table.Reaches (fun _ => True) (w.step s).table ∧
      ((w.step s).log = w.log ∨
        ∃ g ∈ w.guards, ∃ op reply g', Outcome g w.table op reply g' (w.step s).table ∧
          (w.step s).log = w.log ++ [⟨op, reply⟩]) := by
  cases s with
  | transact mutations commit faults =>
    have sound := w_ok.toSound.step storable hs
    have reaches := (Mutation.always_transact w_ok.wellFormed mutations commit
      fun _ _ _ _ => trivial).runFaulty faults
    exact ⟨{ sound with enabled := w_ok.enabled }, reaches, .inl rfl⟩
  | _ =>
    -- All other steps are steps of guards alone.
    obtain ⟨kept, same | asked⟩ := w_ok.step_cases storable hs checked
    · obtain ⟨table, log⟩ := same
      exact ⟨kept, by rw [table], .inl log⟩
    · obtain ⟨g, hg, op, reply, g', -, outcome, log⟩ := asked
      have reaches := outcome.reaches (fun _ _ => trivial) fun _ _ => trivial
      exact ⟨kept, reaches, .inr ⟨g, hg, op, reply, g', outcome, log⟩⟩

/-! ## Permits above old floors -/

/-- A permit in the world `w` for a duty that lay below no floor in an earlier world. -/
structure AboveFloors (before w : World) (e : Event) : Prop where
  block : ∀ key slot root, e = ⟨.signBlock key slot root, .ok .permit⟩ →
    ∃ id, w.table.registry.idOf key = some id ∧ ¬ (before.table.account id).HidesBlock slot
  vote : ∀ key vote root, e = ⟨.signAttestation key vote root, .ok .permit⟩ →
    ∃ id, w.table.registry.idOf key = some id ∧ ¬ (before.table.account id).HidesVote vote

/-- What a run has done since an earlier world: floors have not fallen, and everything that was
    permitted lay above the floors of that world. -/
structure FloorsHeld (before w : World) : Prop where
  rise : ∀ id, (before.table.account id).FloorsRise (w.table.account id)
  permits : ∃ more, w.log = before.log ++ more ∧ ∀ e ∈ more, AboveFloors before w e

variable {before : World}

theorem floorsHeld_refl (w : World) : FloorsHeld w w where
  rise _ := .refl _
  permits := ⟨[], (List.append_nil _).symm, fun _ h => by contradiction⟩

theorem AboveFloors.remembers {e : Event} (h : AboveFloors before w e)
    (remembers : w.table.Remembers w'.table) : AboveFloors before w' e where
  block key slot root he := by
    obtain ⟨id, number, visible⟩ := h.block key slot root he
    exact ⟨id, remembers.idOf key id number, visible⟩
  vote key vote root he := by
    obtain ⟨id, number, visible⟩ := h.vote key vote root he
    exact ⟨id, remembers.idOf key id number, visible⟩

/-- What a guard permits lies above the floors of the moment, and so above all earlier ones. -/
theorem aboveFloors_outcome (w_ok : w.Protected run)
    (rise : ∀ id, (before.table.account id).FloorsRise (w.table.account id)) {g g' : Guard}
    (hg : g ∈ w.guards) {op : Operation} {reply : Except GuardError Reply}
    (outcome : Outcome g w.table op reply g' w'.table) : AboveFloors before w' ⟨op, reply⟩ where
  block key slot root he := by
    obtain ⟨rfl, rfl⟩ := Event.mk.inj he
    obtain ⟨id, known, permit, -⟩ := outcome.permittedBlock (w_ok.enabled g hg)
    have visible := (Account.judgeBlock_eq_permit_iff.1 permit).1
    have number := outcome.remembers.idOf key id (w_ok.agrees g hg key id known)
    exact ⟨id, number, fun hidden => visible ((rise id).hidesBlock hidden)⟩
  vote key vote root he := by
    obtain ⟨rfl, rfl⟩ := Event.mk.inj he
    obtain ⟨id, known, permit, -⟩ := outcome.permittedVote (w_ok.enabled g hg)
    have visible := (Account.judgeVote_eq_permit_iff.1 permit).2.1
    have number := outcome.remembers.idOf key id (w_ok.agrees g hg key id known)
    exact ⟨id, number, fun hidden => visible ((rise id).hidesVote hidden)⟩

theorem FloorsHeld.step (h : FloorsHeld before w) (w_ok : w.Protected run)
    (storable : run.Storable) {s : Step} (hs : s ∈ run) (checked : s.Checked) :
    FloorsHeld before (w.step s) := by
  obtain ⟨-, reaches, log⟩ := w_ok.checked_step storable hs checked
  obtain ⟨more, sofar, above⟩ := h.permits
  refine ⟨fun id => (h.rise id).trans (reaches.floorsRise id), ?_⟩
  have still : ∀ e ∈ more, AboveFloors before (w.step s) e :=
    fun e he => (above e he).remembers reaches.remembers
  rcases log with same | ⟨g, hg, op, reply, g', outcome, log⟩
  · exact ⟨more, same.trans sofar, still⟩
  · refine ⟨more ++ [⟨op, reply⟩], by rw [log, sofar, List.append_assoc], ?_⟩
    intro e he
    rcases List.mem_append.1 he with he | he
    · exact still e he
    · rw [List.mem_singleton.1 he]
      exact aboveFloors_outcome w_ok h.rise hg outcome

/-- Floors that are stored at some moment of a run are stored and no lower at any later moment, and
    what is permitted after that moment does not lie below them. -/
theorem floors_bind {earlier later : Run} (checked : ∀ s ∈ earlier ++ later, s.Checked)
    (storable : (earlier ++ later).Storable) :
    FloorsHeld (after earlier) (after (earlier ++ later)) := by
  have first : (after earlier).Protected (earlier ++ later) := by
    apply after_induction (P := fun w => w.Protected (earlier ++ later))
    · exact protected_empty _
    · intro w s hs w_ok
      have hs := List.mem_append_left later hs
      exact (w_ok.checked_step storable hs (checked s hs)).1
  have both : (after (earlier ++ later)).Protected (earlier ++ later) ∧
      FloorsHeld (after earlier) (after (earlier ++ later)) := by
    rw [after, List.foldl_append]
    apply steps_induction
      (P := fun w => w.Protected (earlier ++ later) ∧ FloorsHeld (after earlier) w)
    · exact ⟨first, floorsHeld_refl _⟩
    · intro w s hs h
      obtain ⟨w_ok, held⟩ := h
      have hs := List.mem_append_right earlier hs
      exact ⟨(w_ok.checked_step storable hs (checked s hs)).1,
        held.step w_ok storable hs (checked s hs)⟩
  exact both.2

end World

namespace Run

/-- Floors are raised past the guard. -/
def raisedFloors : Run :=
  [.start .standard, .ask 0 (.register [oneKey]) [],
    .transact [.raiseSlotFloor ⟨1⟩ 5, .raiseEpochFloors ⟨1⟩ 2 3] true []]

/-- Blocks below and above the floor are asked for, and a prune keeps a wide window. -/
def requestsAtFloor : Run :=
  [.ask 0 (.signBlock oneKey 4 ⟨[1]⟩) [], .ask 0 (.signBlock oneKey 6 ⟨[1]⟩) [],
    .ask 0 (.pruneValidator ⟨1⟩ 100 1) [], .ask 0 (.signBlock oneKey 4 ⟨[1]⟩) []]

end Run

namespace World

/-- The block below the floor is denied before the prune and after it. -/
theorem floors_bind_raisedFloors :
    ((after Run.raisedFloors).table.account ⟨1⟩).slotFloor = some 5 ∧
      (after (Run.raisedFloors ++ Run.requestsAtFloor)).log[1]? =
        some ⟨.signBlock Run.oneKey 4 ⟨[1]⟩, .ok (.answered (.deny .belowWatermark))⟩ ∧
      (after (Run.raisedFloors ++ Run.requestsAtFloor)).log[2]? =
        some ⟨.signBlock Run.oneKey 6 ⟨[1]⟩, .ok .permit⟩ ∧
      (after (Run.raisedFloors ++ Run.requestsAtFloor)).log[4]? =
        some ⟨.signBlock Run.oneKey 4 ⟨[1]⟩, .ok (.answered (.deny .belowWatermark))⟩ ∧
      FloorsHeld (after Run.raisedFloors) (after (Run.raisedFloors ++ Run.requestsAtFloor)) := by
  have checked : ∀ s ∈ Run.raisedFloors ++ Run.requestsAtFloor, s.Checked := by
    simp [Run.raisedFloors, Run.requestsAtFloor, Step.Checked, GuardConfig.standard]
  have storable : (Run.raisedFloors ++ Run.requestsAtFloor).Storable := by
    simp [Run.Storable, Run.raisedFloors, Run.requestsAtFloor, Step.payload, Operation.payload,
      Run.Admits]
  exact ⟨by decide +kernel, by decide +kernel, by decide +kernel, by decide +kernel,
    floors_bind checked storable⟩

end World

end SlashingGuard
