import SlashingGuard.Proofs.Guard.Failure
import SlashingGuard.Proofs.Run.World

/-! # Careful runs

    In a careful run everybody who takes a transaction of the ledger's own
    steps drops it at the first error.  Guards do so anyway.  Such a run keeps
    more than a ledger that can be read: the numbers of validators are those
    from one on, and a key and its number find one another.

    So all checks that work on the ledger makes of what it reads are passed.
    Where no call fails and no lock is held, nothing that is asked of a guard
    ends in an error of the ledger. -/

namespace SlashingGuard

namespace World

variable {run : Run} {w : World}

/-! ## Steps -/

/-- Takes a transaction of the ledger's own steps, which the first error drops. -/
def transactWhole (w : World) (mutations : List Mutation) (commit : Bool)
    (faults : Store.FaultSchedule) : World :=
  { w with table := ((Mutation.transactWhole mutations commit).run.runFaulty faults w.table).2 }

/-- A step of a run in which nobody goes on after an error. -/
def carefulStep (w : World) : Step → World
  | .transact mutations commit faults => w.transactWhole mutations commit faults
  | s => w.step s

/-- The world after a careful run that starts from an empty store. -/
def afterCareful (run : Run) : World := run.foldl carefulStep empty

/-! ## Orderly worlds -/

/-- What holds of every world that a careful run leads to. -/
structure Orderly (run : Run) (w : World) : Prop extends Sound run w where
  tidy : w.table.Tidy
  checked : ∀ g ∈ w.guards, g.config.check = .ok ()

theorem orderly_empty (run : Run) : Orderly run empty :=
  { sound_empty run with tidy := Table.tidy_empty, checked := fun _ h => by contradiction }

/-- A guard starts only with settings that are usable. -/
theorem checked_start (checked : ∀ g ∈ w.guards, g.config.check = .ok ()) (config : GuardConfig) :
    ∀ g ∈ (w.start config).guards, g.config.check = .ok () := by
  unfold start Guard.create
  cases usable : config.check with
  | error _ => exact checked
  | ok _ =>
    intro g hg
    rcases List.mem_append.1 hg with hg | hg
    · exact checked g hg
    · rw [List.mem_singleton.1 hg]
      exact usable

/-- One step keeps a world orderly. -/
theorem Orderly.carefulStep (orderly : w.Orderly run) (storable : run.Storable) {s : Step}
    (hs : s ∈ run) : (w.carefulStep s).Orderly run := by
  cases s with
  | start config =>
    have sound := orderly.toSound.step storable hs
    refine { sound with tidy := ?_, checked := checked_start orderly.checked config }
    show (w.start config).table.Tidy
    rcases start_cases w config with same | started
    · rw [same]; exact orderly.tidy
    · rw [started]; exact orderly.tidy
  | ask index op faults =>
    have sound := orderly.toSound.step storable hs
    rcases ask_cases orderly.wellFormed index op faults with same | asked
    · have same : w.carefulStep (.ask index op faults) = w := same
      rwa [same]
    · obtain ⟨g, hg, reply, g', metrics, t', outcome, asked⟩ := asked
      have asked : w.step (.ask index op faults) = _ := asked
      show (w.step (.ask index op faults)).Orderly run
      rw [asked] at sound ⊢
      refine { sound with
        tidy := orderly.tidy.registersWhole outcome.registersWhole, checked := fun g₁ hg₁ => ?_ }
      rcases List.mem_or_eq_of_mem_set hg₁ with hg₁ | rfl
      · exact orderly.checked g₁ hg₁
      · rw [outcome.config]
        exact orderly.checked g hg
  | transact mutations commit faults =>
    have admitted : ∀ m ∈ mutations, ∀ bytes ∈ m.payload, run.Admits bytes :=
      fun m hm bytes hb => storable _ hs bytes (List.mem_flatMap.2 ⟨m, hm, hb⟩)
    obtain ⟨reaches, tidy⟩ := (Mutation.always_transactWhole orderly.wellFormed orderly.tidy
      mutations commit admitted).runFaulty faults
    exact { orderly.toSound.reaches reaches w.metrics w.log with
      tidy := tidy, checked := orderly.checked }
  | reopen =>
    have same : w.carefulStep .reopen = w := reopen_eq (orderly.fits hs)
    rwa [same]

/-- Every careful run leads to an orderly world. -/
theorem orderly_afterCareful (storable : run.Storable) : (afterCareful run).Orderly run :=
  List.foldlRecOn run carefulStep (orderly_empty run) fun _ orderly _ hs =>
    orderly.carefulStep storable hs

end World

/-! ## What careful runs keep -/

namespace Table

/-- A ledger that is well formed and whose registry goes both ways, as long as the counter has not
    gone round. -/
structure Intact (t : Table Bytes) : Prop extends WellFormed t where
  inverse : t.HasRoom → ∀ key id, t.registry.idOf key = some id ↔ t.registry.keyOf id = some key
  bounds : t.HasRoom → ∀ id key, t.registry.keyOf id = some key →
    1 ≤ id.number ∧ id.number < t.registry.next

theorem Tidy.intact {t : Table Bytes} (tidy : t.Tidy) (wf : t.WellFormed) : t.Intact where
  toWellFormed := wf
  inverse room key id := by
    obtain ⟨order, lists⟩ := tidy room
    exact lists.idOf key id
  bounds room id key known := by
    obtain ⟨order, lists⟩ := tidy room
    exact lists.number_bounds known

end Table

namespace World

variable {run : Run}

/-- A careful run leaves a ledger that is intact.  Where no call fails from then on, whatever is
    asked of one of its guards is done, or refused for what was asked; it never ends in an error
    of the ledger. -/
theorem afterCareful_intact (storable : run.Storable) :
    (afterCareful run).table.Intact ∧
      ∀ g ∈ (afterCareful run).guards, ∀ (op : Operation) (metrics : Metrics) (e : GuardError),
        (op.perform.onTable ⟨g, metrics⟩ (afterCareful run).table).1 = .error e →
          op.RefusedFor g e ∧ ∀ error, e ≠ .ledger error := by
  have orderly := orderly_afterCareful storable
  refine ⟨orderly.tidy.intact orderly.wellFormed, ?_⟩
  intro g hg op metrics e failed
  have ready : g.Ready (afterCareful run).table :=
    { idle := orderly.idle g hg
      registered := fun key id known => orderly.linked key id (orderly.agrees g hg key id known)
      checked := orderly.checked g hg }
  have refused := (Operation.always_refusedFor (c := ⟨g, metrics⟩) orderly.wellFormed ready
    op).onTable e failed
  exact ⟨refused, refused.ne_ledger⟩

end World

namespace Run

/-- A run that never reopens the store may bring anything from outside. -/
theorem storable_of_not_reopened {run : Run} (h : Step.reopen ∉ run) : run.Storable :=
  fun _ _ _ _ again => absurd again h

/-- A guard registers a key at the second attempt.  Somebody registers another key and puts a block
    in, at first with a vote behind it whose source is after its target. -/
def twoWriters : Run :=
  [.start .standard, .ask 0 (.register [oneKey]) [none, none, some (.io "busy")],
    .ask 0 (.register [oneKey]) [],
    .transact
      [.register [⟨[9]⟩], .insertBlock ⟨2⟩ 5 ⟨[1]⟩, .insertAttestation ⟨2⟩ ⟨4, 3⟩ ⟨[2]⟩] true [],
    .transact [.register [⟨[9]⟩], .insertBlock ⟨2⟩ 5 ⟨[1]⟩] true [],
    .ask 0 (.signBlock oneKey 5 ⟨[3]⟩) [none, none, none, some (.io "full")]]

end Run

namespace World

/-- The number of the other key is found from the key; a prune, which finds no floor for its block,
    does not end in an error. -/
theorem afterCareful_intact_twoWriters :
    let w := afterCareful Run.twoWriters
    Run.twoWriters.Storable ∧ w.table.HasRoom ∧ w.guards.length = 1 ∧
      w.table.contains (Place.block ⟨2⟩ 5).bytes ∧ w.table.registry.idOf ⟨[9]⟩ = some ⟨2⟩ ∧
      ∀ g ∈ w.guards, ∀ error,
        ((Operation.pruneValidator ⟨2⟩ 1 1).perform.onTable ⟨g, .zero⟩ w.table).1 ≠
          .error (.ledger error) := by
  have storable : Run.twoWriters.Storable :=
    Run.storable_of_not_reopened (by simp [Run.twoWriters])
  have room : (afterCareful Run.twoWriters).table.HasRoom :=
    Table.hasRoom_of_size (by decide +kernel)
  obtain ⟨intact, refused⟩ := afterCareful_intact storable
  refine ⟨storable, room, by decide +kernel, by decide +kernel, ?_, ?_⟩
  · exact (intact.inverse room _ _).2 (by decide +kernel)
  · intro g hg error failed
    exact (refused g hg _ .zero _ failed).2 error rfl

end World

end SlashingGuard
