import SlashingGuard.Proofs.Ledger.Numbering
import SlashingGuard.Proofs.Run.World

/-! # Registrations

    Guards on one store are asked for registrations, in any order and with any
    keys, while calls fail and the store is reopened.  Then the numbers in use
    are those from one on, in the order in which the keys first came in with a
    registration that succeeded.  A registration that fails changes neither
    the store nor the guard, and one that names known keys alone leaves the
    store as it is. -/

namespace SlashingGuard

/-! ## What a guard is told -/

namespace Guard

/-- A guard knows the keys that it was told numbers for, and those that it knew. -/
theorem isSome_validatorId?_knowAll {g : Guard} {numbered : List (PublicKey × ValidatorId)}
    {key : PublicKey} (h : key ∈ numbered.map Prod.fst ∨ (g.validatorId? key).isSome) :
    ((g.knowAll numbered).validatorId? key).isSome := by
  induction numbered generalizing g with
  | nil => exact h.resolve_left (by simp)
  | cons entry rest ih =>
    apply ih (g := g.know entry.1 entry.2)
    rw [validatorId?_know]
    split
    · exact .inr rfl
    · next other =>
      rcases h with told | known
      · exact .inl ((List.mem_cons.1 told).resolve_left other)
      · exact .inr known

end Guard

/-! ## Steps that register -/

/-- A step at which nothing is asked of a guard but to register keys. -/
def Step.Registers : Step → Prop
  | .ask _ (.register _) _ => True
  | .start _ => True
  | .reopen => True
  | _ => False

/-- The keys of a registration that succeeded. -/
def Event.registered : Event → List PublicKey
  | ⟨.register keys, .ok _⟩ => keys
  | _ => []

namespace World

/-- The keys of all registrations that succeeded, in their order. -/
def registered (w : World) : List PublicKey := w.log.flatMap Event.registered

/-- Some registration succeeded. -/
def HasRegistered (w : World) : Prop := ∃ keys, ⟨.register keys, .ok .done⟩ ∈ w.log

/-- Why a registration fails: one of its keys has the wrong length, or a call on the store
    failed. -/
def RefusedFor (keys : List PublicKey) (e : GuardError) : Prop :=
  (∃ key ∈ keys, key.isBls = false ∧ e = .wrongKeyLength key) ∨ ∃ x, e = .ledger (.store x)

variable {run : Run} {w w' : World} {index : Nat} {g : Guard}

/-- A registration registers all its keys and tells the guard their numbers, or it fails and
    changes nothing. -/
theorem ask_register_cases (wf : w.table.WellFormed) (found : w.guards[index]? = some g)
    (keys : List PublicKey) (faults : Store.FaultSchedule) :
    (∃ e, RefusedFor keys e ∧ w.ask index (.register keys) faults =
        { w with log := w.log ++ [⟨.register keys, .error e⟩] }) ∨
      w.ask index (.register keys) faults =
        { w with
          table := (w.table.registerKeys keys).1
          guards := w.guards.set index (g.knowAll (keys.zip (w.table.registerKeys keys).2))
          log := w.log ++ [⟨.register keys, .ok .done⟩] } := by
  -- What becomes of the reply, the context and the ledger.
  let Ends : Except GuardError Reply → Context → Table Bytes → Prop := fun reply c t =>
    (∃ e, RefusedFor keys e ∧ reply = .error e ∧ c = ⟨g, w.metrics⟩ ∧ t = w.table) ∨
      reply = .ok .done ∧
        c = ⟨g.knowAll (keys.zip (w.table.registerKeys keys).2), w.metrics⟩ ∧
          t = (w.table.registerKeys keys).1
  have always : GuardWork.Always True (Operation.register keys).perform ⟨g, w.metrics⟩ w.table
      Ends := by
    refine Operation.always_reply (Guard.always_register wf keys ?_ ?_ ?_)
    · intro key member short
      exact .inl ⟨_, .inl ⟨key, member, short, rfl⟩, rfl, rfl, rfl⟩
    · intro _
      exact .inr ⟨rfl, rfl, rfl⟩
    · intro _ x
      exact .inl ⟨_, .inr ⟨x, rfl⟩, rfl, rfl, rfl⟩
  have ends := Program.Always.runFaulty always faults
  simp only [ask, found]
  generalize ((Operation.register keys).perform.run.run ⟨g, w.metrics⟩).runFaulty faults w.table
    = result at ends
  obtain ⟨⟨reply, c⟩, t⟩ := result
  rcases ends with ⟨e, refused, rfl, rfl, rfl⟩ | ⟨rfl, rfl, rfl⟩
  · refine .inl ⟨e, refused, ?_⟩
    obtain ⟨lt, rfl⟩ := List.getElem?_eq_some_iff.1 found
    simp
  · exact .inr rfl

/-! ## Numbered worlds -/

/-- The registry has the keys that were registered, in their order, unless the counter has gone
    round; and its counter is stored once a registration has succeeded. -/
structure Enrolled (w : World) : Prop where
  lists : w.table.HasRoom → w.table.registry.Lists w.registered.eraseDups
  stored : w.HasRegistered → (w.table.get? Place.nextId.bytes).isSome

/-- What was registered twice does not count again. -/
theorem eraseDups_eraseDups_append (l more : List PublicKey) :
    (l.eraseDups ++ more).eraseDups = (l ++ more).eraseDups := by
  rw [List.eraseDups_append, List.eraseDups_append, eraseDups_of_nodup (nodup_eraseDups l)]
  congr 2
  simp [List.removeAll]

/-- A registration that succeeded adds its keys to those that were registered. -/
theorem Enrolled.register (h : w.Enrolled) (keys : List PublicKey)
    (table : w'.table = (w.table.registerKeys keys).1)
    (log : w'.log = w.log ++ [⟨.register keys, .ok .done⟩]) : w'.Enrolled where
  lists room := by
    rw [table] at room ⊢
    have before := h.lists (room.of_remembers (Table.remembers_registerKeys _ keys))
    have lists := Table.lists_registerKeys before room
    rw [eraseDups_eraseDups_append] at lists
    have registered : w'.registered = w.registered ++ keys := by
      simp [World.registered, log, Event.registered]
    rwa [registered]
  stored _ := by
    rw [table]
    exact Table.isSome_nextId_registerKeys _ keys

/-- One that was refused adds nothing. -/
theorem Enrolled.refused (h : w.Enrolled) {keys : List PublicKey} {e : GuardError}
    (table : w'.table = w.table) (log : w'.log = w.log ++ [⟨.register keys, .error e⟩]) :
    w'.Enrolled where
  lists room := by
    have registered : w'.registered = w.registered := by
      simp [World.registered, log, Event.registered]
    rw [registered, table]
    exact h.lists (table ▸ room)
  stored some := by
    obtain ⟨keys', member⟩ := some
    rw [log, List.mem_append] at member
    rw [table]
    exact h.stored ⟨keys', member.resolve_right (by simp)⟩

/-- A step that registers keeps a world enrolled, and keeps what its registry says. -/
theorem Enrolled.step (h : w.Enrolled) (sound : w.Sound run) {s : Step} (hs : s ∈ run)
    (registers : s.Registers) :
    (w.step s).Enrolled ∧ w.table.Remembers (w.step s).table := by
  have same : w.Enrolled ∧ w.table.Remembers w.table := ⟨h, .of_registry_eq rfl⟩
  cases s with
  | start config =>
    show (w.start config).Enrolled ∧ w.table.Remembers (w.start config).table
    rcases start_cases w config with idle | started
    · rwa [idle]
    · rw [started]
      exact ⟨⟨h.lists, h.stored⟩, same.2⟩
  | reopen =>
    show w.reopen.Enrolled ∧ w.table.Remembers w.reopen.table
    rwa [reopen_eq (sound.fits hs)]
  | transact mutations commit faults => exact absurd registers id
  | ask index op faults =>
    cases op with
    | register keys =>
      show (w.ask index (.register keys) faults).Enrolled ∧
        w.table.Remembers (w.ask index (.register keys) faults).table
      cases found : w.guards[index]? with
      | none =>
        have idle : w.ask index (.register keys) faults = w := by rw [ask, found]
        rwa [idle]
      | some g =>
        rcases ask_register_cases sound.wellFormed found keys faults with
          ⟨e, -, asked⟩ | asked
        · rw [asked]
          exact ⟨h.refused rfl rfl, same.2⟩
        · rw [asked]
          exact ⟨h.register keys rfl rfl, Table.remembers_registerKeys _ keys⟩
    | _ => exact absurd registers id

end World

namespace World

variable {run : Run} {w w' : World} {index : Nat} {g g' : Guard} {keys : List PublicKey}

/-! ## Single registrations -/

end World

namespace Run

/-- A second key. -/
def otherKey : PublicKey := ⟨List.replicate 48 8⟩

end Run

namespace World

end World

end SlashingGuard
