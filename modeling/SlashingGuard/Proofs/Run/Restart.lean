import SlashingGuard.Proofs.Guard.Alike
import SlashingGuard.Proofs.Guard.Memory
import SlashingGuard.Proofs.Run.Registration

/-! # Restarts

    A guard on any store, legible or not, is asked for one thing after the
    other.  What it comes to remember meanwhile is no more than what stands in
    the store: each key that was registered with a success, by the number that
    the store has for it, and nothing else.

    So a guard that is dropped can be replaced.  A new one that registers the
    same keys, in any order and however often, changes nothing in the store
    and is alike to the old one, and then the two cannot be told apart by
    anything that is asked of them. -/

namespace SlashingGuard

namespace World

/-! ## One guard on a store -/

/-- A store, and nobody on it yet. -/
def on (t : Table Bytes) : World := ⟨t, [], .zero, []⟩

/-- A guard is asked for one thing after the other, while no call fails. -/
def serve (w : World) (index : Nat) (ops : List Operation) : World :=
  ops.foldl (fun w op => w.ask index op []) w

/-- A guard with these settings is started on a store and asked for one thing after the other. -/
def served (t : Table Bytes) (config : GuardConfig) (ops : List Operation) : World :=
  ((on t).start config).serve 0 ops

/-- The guard is dropped, and the store is closed and opened again if it is kept in a file; then a
    guard with the same settings is started in its place, which registers some lists of keys. -/
def restart (w : World) (kept : Bool) (config : GuardConfig) (lists : List (List PublicKey)) :
    World :=
  ((if kept then w.reopen else w).start config).serve w.guards.length
    (lists.map Operation.register)

variable {w w' : World} {index index' : Nat} {g g' : Guard}

/-! ## What a guard remembers -/

/-- What the guard remembers was registered with a success, and it stands in the store. -/
structure Remembered (w : World) (g : Guard) : Prop where
  idle : g.held = []
  distinct : g.Distinct
  numbered : ∀ key id, g.validatorId? key = some id → w.table.registry.idOf key = some id
  known : ∀ key, (g.validatorId? key).isSome ↔ key ∈ w.registered
  bls : ∀ key ∈ w.registered, key.isBls
  counted : w.HasRegistered → ∃ n, w.table.get? Place.nextId.bytes = some (Bytes.ofWord n)

theorem remembered_start (t : Table Bytes) (config : GuardConfig) :
    (on t).Remembered ⟨config, [], []⟩ where
  idle := rfl
  distinct := List.nodup_nil
  numbered _ _ known := by contradiction
  known key := by simp [Guard.validatorId?, on, registered]
  bls key member := by simp [on, registered] at member
  counted some := by simp [HasRegistered, on] at some

theorem Remembered.isSome_idOf (h : w.Remembered g) {key : PublicKey}
    (member : key ∈ w.registered) : (w.table.registry.idOf key).isSome := by
  obtain ⟨id, known⟩ := Option.isSome_iff_exists.1 ((h.known key).2 member)
  rw [h.numbered key id known]
  rfl

/-- A registration that succeeded gives a guard its keys to remember. -/
theorem Remembered.register (h : w.Remembered g) {keys : List PublicKey}
    (bls : ∀ key ∈ keys, key.isBls) (guards : List Guard) (metrics : Metrics) :
    Remembered ⟨(w.table.registerKeys keys).1, guards, metrics,
        w.log ++ [⟨.register keys, .ok .done⟩]⟩
      (g.knowAll (keys.zip (w.table.registerKeys keys).2)) := by
  have registered : World.registered ⟨(w.table.registerKeys keys).1, guards, metrics,
      w.log ++ [⟨.register keys, .ok .done⟩]⟩ = w.registered ++ keys := by
    simp [World.registered, Event.registered]
  have names : (keys.zip (w.table.registerKeys keys).2).map Prod.fst = keys :=
    List.map_fst_zip (Nat.le_of_eq (Table.length_registerKeys w.table keys).symm)
  constructor
  · rw [Guard.knowAll_held, h.idle]
  · exact Guard.distinct_knowAll h.distinct _
  · intro key id known
    rcases Guard.validatorId?_knowAll known with told | before
    · exact Table.idOf_registerKeys w.table told
    · exact (Table.remembers_registerKeys w.table keys).idOf key id (h.numbered key id before)
  · intro key
    rw [registered, List.mem_append]
    constructor
    · intro some
      obtain ⟨id, known⟩ := Option.isSome_iff_exists.1 some
      rcases Guard.validatorId?_knowAll known with told | before
      · exact .inr (List.of_mem_zip told).1
      · exact .inl ((h.known key).1 (by rw [before]; rfl))
    · intro member
      apply Guard.isSome_validatorId?_knowAll
      rw [names]
      exact member.symm.imp_right (h.known key).2
  · intro key member
    rw [registered, List.mem_append] at member
    exact member.elim (h.bls key) (bls key)
  · intro _
    refine ⟨(w.table.enrollFrom w.table.registry.next keys).2.2, ?_⟩
    simp [Table.registerKeys, Table.setNext]

/-- What is asked for leaves what is remembered if it is no registration with a success and leaves
    the numbers of keys. -/
theorem Remembered.kept (h : w.Remembered g) {t : Table Bytes} (kept : w.table.KeepsNumbers t)
    {op : Operation} {reply : Except GuardError Reply}
    (other : ∀ keys r, op = .register keys → reply ≠ .ok r) (guards : List Guard)
    (metrics : Metrics) : Remembered ⟨t, guards, metrics, w.log ++ [⟨op, reply⟩]⟩ g := by
  have none : Event.registered ⟨op, reply⟩ = [] := by
    unfold Event.registered
    split
    · next keys r same =>
      obtain ⟨rfl, rfl⟩ := Event.mk.inj same
      exact absurd rfl (other keys r rfl)
    · rfl
  have registered : World.registered ⟨t, guards, metrics, w.log ++ [⟨op, reply⟩]⟩ =
      w.registered := by
    simp [World.registered, none]
  refine ⟨h.idle, h.distinct, ?_, ?_, ?_, ?_⟩
  · intro key id known
    rw [kept.registry_idOf]
    exact h.numbered key id known
  · rw [registered]
    exact h.known
  · rw [registered]
    exact h.bls
  · rintro ⟨keys, member⟩
    rw [kept.nextId]
    refine h.counted ⟨keys, (List.mem_append.1 member).resolve_right fun last => ?_⟩
    obtain ⟨rfl, rfl⟩ := Event.mk.inj (List.mem_singleton.1 last)
    exact other keys .done rfl rfl

/-- Nothing that is asked for gives a guard anything else to remember. -/
theorem Remembered.ask (h : w.Remembered g) (found : w.guards[index]? = some g) (op : Operation)
    (faults : Store.FaultSchedule) :
    ∃ g', (w.ask index op faults).guards[index]? = some g' ∧
      (w.ask index op faults).Remembered g' ∧ g'.config = g.config := by
  have outcome := (op.always_perform_or (c := ⟨g, w.metrics⟩)).runFaulty faults (t := w.table)
  obtain ⟨reply, c, t, run, asked⟩ := ask_eq found op faults
  rw [run] at outcome
  rw [asked]
  have bound : index < w.guards.length := (List.getElem?_eq_some_iff.1 found).1
  refine ⟨c.guard, by simp [bound], ?_⟩
  rcases outcome with ⟨keys, rfl, bls, replied, guard, table⟩ | ⟨other, guard, kept⟩
  · obtain rfl : reply = .ok .done := replied
    obtain rfl : t = (w.table.registerKeys keys).1 := table
    rw [guard]
    exact ⟨h.register bls _ _, Guard.knowAll_config _ _⟩
  · have guard : c.guard = g := guard
    rw [guard]
    exact ⟨h.kept kept other _ _, rfl⟩

theorem Remembered.serve (h : w.Remembered g) (found : w.guards[index]? = some g)
    (ops : List Operation) :
    ∃ g', (w.serve index ops).guards[index]? = some g' ∧ (w.serve index ops).Remembered g' ∧
      g'.config = g.config := by
  induction ops generalizing w g with
  | nil => exact ⟨g, found, h, rfl⟩
  | cons op rest ih =>
    obtain ⟨g₁, found₁, h₁, config₁⟩ := h.ask found op []
    obtain ⟨g', found', h', config'⟩ := ih h₁ found₁
    exact ⟨g', found', h', config'.trans config₁⟩

/-! ## Registering again -/

/-- A guard that registers keys with numbers comes to know them, and the store stays. -/
theorem ask_register_known (found : w.guards[index]? = some g) {n : UInt64}
    {keys : List PublicKey} (bls : ∀ key ∈ keys, key.isBls)
    (known : ∀ key ∈ keys, (w.table.registry.idOf key).isSome)
    (counted : w.table.get? Place.nextId.bytes = some (Bytes.ofWord n)) :
    w.ask index (.register keys) [] =
      { w with
        guards := w.guards.set index (g.knowAll (keys.zip (w.table.registerKeys keys).2))
        log := w.log ++ [⟨.register keys, .ok .done⟩] } := by
  have always : GuardWork.Always False (Operation.register keys).perform ⟨g, w.metrics⟩ w.table
      fun reply c t => reply = .ok .done ∧
        c = ⟨g.knowAll (keys.zip (w.table.registerKeys keys).2), w.metrics⟩ ∧ t = w.table := by
    refine Operation.always_reply ?_
    have accepted : (keys.find? fun key => !key.isBls) = none := by simpa using bls
    unfold Guard.register
    rw [accepted]
    refine GuardWork.always_bind.2 (GuardWork.always_ledger.2 ?_)
    refine Ledger.always_registerAll_known known counted ?_ nofun
    exact GuardWork.always_modifyGuard.2 ⟨rfl, rfl, rfl⟩
  obtain ⟨reply, c, t, run, asked⟩ := ask_eq found (.register keys) []
  have ends := always.runFaulty_nil
  rw [run] at ends
  obtain ⟨rfl, rfl, rfl⟩ := ends
  exact asked

/-- The keys of some lists, each with the number that a store gives it. -/
def numbersOf (t : Table Bytes) (lists : List (List PublicKey)) :
    List (PublicKey × ValidatorId) :=
  lists.flatMap fun keys => keys.zip (t.registerKeys keys).2

theorem mem_names_numbersOf (t : Table Bytes) {lists : List (List PublicKey)} {key : PublicKey}
    (member : key ∈ lists.flatten) : key ∈ (numbersOf t lists).map Prod.fst := by
  obtain ⟨keys, among, mem⟩ := List.mem_flatten.1 member
  have names : (keys.zip (t.registerKeys keys).2).map Prod.fst = keys :=
    List.map_fst_zip (Nat.le_of_eq (Table.length_registerKeys t keys).symm)
  rw [← names] at mem
  obtain ⟨entry, told, rfl⟩ := List.mem_map.1 mem
  exact List.mem_map.2 ⟨entry, List.mem_flatMap.2 ⟨keys, among, told⟩, rfl⟩

/-- Keys that have numbers keep them: no list changes the store. -/
theorem mem_numbersOf {t : Table Bytes} {n : UInt64} {lists : List (List PublicKey)}
    (known : ∀ key ∈ lists.flatten, (t.registry.idOf key).isSome)
    (counted : t.get? Place.nextId.bytes = some (Bytes.ofWord n)) {key : PublicKey}
    {id : ValidatorId} (told : (key, id) ∈ numbersOf t lists) :
    key ∈ lists.flatten ∧ t.registry.idOf key = some id := by
  obtain ⟨keys, among, pair⟩ := List.mem_flatMap.1 told
  have mem : ∀ key ∈ keys, key ∈ lists.flatten := fun key mem =>
    List.mem_flatten.2 ⟨keys, among, mem⟩
  have same := Table.registerKeys_counted (fun key hk => known key (mem key hk)) counted
  have number := Table.idOf_registerKeys t pair
  rw [same] at number
  exact ⟨mem key (List.of_mem_zip pair).1, number⟩

/-- So it does when it registers one list of keys after the other. -/
theorem serve_register_known (found : w.guards[index]? = some g) {n : UInt64}
    {lists : List (List PublicKey)} (bls : ∀ key ∈ lists.flatten, key.isBls)
    (known : ∀ key ∈ lists.flatten, (w.table.registry.idOf key).isSome)
    (counted : w.table.get? Place.nextId.bytes = some (Bytes.ofWord n)) :
    w.serve index (lists.map Operation.register) =
      { w with
        guards := w.guards.set index (g.knowAll (numbersOf w.table lists))
        log := w.log ++ lists.map fun keys => ⟨.register keys, .ok .done⟩ } := by
  induction lists generalizing w g with
  | nil =>
    obtain ⟨bound, rfl⟩ := List.getElem?_eq_some_iff.1 found
    simp [serve, numbersOf, Guard.knowAll]
  | cons keys rest ih =>
    simp only [List.flatten_cons, List.mem_append] at bls known
    have first := ask_register_known found (fun key h => bls key (.inl h))
      (fun key h => known key (.inl h)) counted
    have bound : index < w.guards.length := (List.getElem?_eq_some_iff.1 found).1
    -- The store is as it was, so the other lists find their keys and the counter there too.
    have others := ih (w := w.ask index (.register keys) [])
      (g := g.knowAll (keys.zip (w.table.registerKeys keys).2)) (by rw [first]; simp [bound])
      (fun key h => bls key (.inr h)) (by rw [first]; exact fun key h => known key (.inr h))
      (by rw [first]; exact counted)
    show (w.ask index (.register keys) []).serve index (rest.map Operation.register) = _
    rw [others, first]
    simp [numbersOf, Guard.knowAll]

/-- A guard that knows no key and registers those that another one remembers comes to know the
    same numbers. -/
theorem Remembered.validatorId?_knowAll (h : w.Remembered g) (once : w.HasRegistered)
    {fresh : Guard} (empty : ∀ key, fresh.validatorId? key = none) {lists : List (List PublicKey)}
    (again : ∀ key, key ∈ lists.flatten ↔ key ∈ w.registered) (key : PublicKey) :
    (fresh.knowAll (numbersOf w.table lists)).validatorId? key = g.validatorId? key := by
  obtain ⟨n, counted⟩ := h.counted once
  have known : ∀ key ∈ lists.flatten, (w.table.registry.idOf key).isSome := fun key member =>
    h.isSome_idOf ((again key).1 member)
  -- The new guard has its numbers from the store, and knows none but those of the lists.
  have told : ∀ id, (fresh.knowAll (numbersOf w.table lists)).validatorId? key = some id →
      key ∈ lists.flatten ∧ w.table.registry.idOf key = some id := by
    intro id hid
    rcases Guard.validatorId?_knowAll hid with pair | before
    · exact mem_numbersOf known counted pair
    · rw [empty] at before
      contradiction
  by_cases member : key ∈ lists.flatten
  · obtain ⟨id, hid⟩ := Option.isSome_iff_exists.1
      (Guard.isSome_validatorId?_knowAll (.inl (mem_names_numbersOf w.table member)))
    obtain ⟨id', hid'⟩ := Option.isSome_iff_exists.1 ((h.known key).2 ((again key).1 member))
    have number := (told id hid).2
    rw [h.numbered key id' hid'] at number
    exact hid.trans (number.symm.trans hid'.symm)
  · have unknown : g.validatorId? key = none := by
      rw [← Option.not_isSome_iff_eq_none, h.known, ← again]
      exact member
    rw [unknown, Option.eq_none_iff_forall_ne_some]
    exact fun id hid => member (told id hid).1

/-! ## Alike guards from here on -/

/-- From one store on, alike guards reply the same, leave the same store and stay alike. -/
theorem serve_alike (found : w.guards[index]? = some g) (found' : w'.guards[index']? = some g')
    (alike : g.Alike g') (table : w'.table = w.table) (ops : List Operation) :
    ∃ (events : List Event) (g₁ g₁' : Guard),
      (w.serve index ops).log = w.log ++ events ∧ (w'.serve index' ops).log = w'.log ++ events ∧
        (w'.serve index' ops).table = (w.serve index ops).table ∧
          (w.serve index ops).guards[index]? = some g₁ ∧
            (w'.serve index' ops).guards[index']? = some g₁' ∧ g₁.Alike g₁' := by
  induction ops generalizing w w' g g' with
  | nil => exact ⟨[], g, g', by simp [serve], by simp [serve], table, found, found', alike⟩
  | cons op rest ih =>
    obtain ⟨reply, c, t, run, asked⟩ := ask_eq found op []
    obtain ⟨reply', c', t', run', asked'⟩ := ask_eq found' op []
    have ends := (op.alike_perform ⟨g, w.metrics⟩ ⟨g', w'.metrics⟩ alike).runFaulty [] w.table
    rw [run, ← table, run'] at ends
    -- Asked once they reply the same, and are alike on one store again.
    obtain ⟨⟨replies, guards⟩, tables⟩ := ends
    obtain rfl : reply' = reply := replies
    obtain rfl : t = t' := tables
    have bound : index < w.guards.length := (List.getElem?_eq_some_iff.1 found).1
    have bound' : index' < w'.guards.length := (List.getElem?_eq_some_iff.1 found').1
    have next : (w.ask index op []).guards[index]? = some c.guard := by
      rw [asked]
      simp [bound]
    have next' : (w'.ask index' op []).guards[index']? = some c'.guard := by
      rw [asked']
      simp [bound']
    have same : (w'.ask index' op []).table = (w.ask index op []).table := by
      rw [asked, asked']
    obtain ⟨events, g₁, g₁', log, log', more⟩ := ih next next' guards same
    refine ⟨⟨op, reply'⟩ :: events, g₁, g₁', ?_, ?_, more⟩
    · show ((w.ask index op []).serve index rest).log = _
      rw [log, asked]
      simp
    · show ((w'.ask index' op []).serve index' rest).log = _
      rw [log', asked']
      simp

/-! ## Restarts -/

/-- Where there is no guard nothing is done. -/
theorem serve_of_none (none : w.guards[index]? = none) (ops : List Operation) :
    w.serve index ops = w := by
  induction ops with
  | nil => rfl
  | cons op rest ih =>
    have idle : w.ask index op [] = w := by simp only [ask, none]
    show (w.ask index op []).serve index rest = w
    rw [idle, ih]

/-- A guard that registered something was started, and it remembers what it registered. -/
theorem remembered_served {t : Table Bytes} {config : GuardConfig} {ops : List Operation}
    (once : (served t config ops).HasRegistered) :
    config.check = .ok () ∧ ∃ g, (served t config ops).guards[0]? = some g ∧
      (served t config ops).Remembered g ∧ g.config = config := by
  cases usable : config.check with
  | error e =>
    have nobody : (on t).start config = on t := by simp only [start, Guard.create, usable]
    have idle : served t config ops = on t := by
      rw [served, nobody]
      exact serve_of_none rfl ops
    obtain ⟨keys, member⟩ := once
    rw [idle] at member
    contradiction
  | ok _ =>
    have started : (on t).start config = { on t with guards := [⟨config, [], []⟩] } := by
      simp only [start, Guard.create, usable]
      rfl
    have fresh := remembered_start t config
    have remembered : Remembered { on t with guards := [⟨config, [], []⟩] } ⟨config, [], []⟩ :=
      ⟨fresh.idle, fresh.distinct, fresh.numbered, fresh.known, fresh.bls, fresh.counted⟩
    rw [served, started]
    exact ⟨rfl, remembered.serve rfl ops⟩

/-- What a restart leaves: the store and the log as they were, but for the registrations, and in
    the place of the old guard one that is alike to it. -/
theorem restart_eq (h : w.Remembered g) (once : w.HasRegistered)
    (usable : g.config.check = .ok ()) {kept : Bool} (fits : kept → w.table.FitsFile)
    {lists : List (List PublicKey)} (again : ∀ key, key ∈ lists.flatten ↔ key ∈ w.registered) :
    ∃ g', g.Alike g' ∧ w.restart kept g.config lists =
      { w with
        guards := w.guards ++ [g']
        log := w.log ++ lists.map fun keys => ⟨.register keys, .ok .done⟩ } := by
  let fresh : Guard := ⟨g.config, [], []⟩
  have opened : (if kept then w.reopen else w) = w := by
    split
    · next closed => exact reopen_eq (fits closed)
    · rfl
  have started : w.start g.config = { w with guards := w.guards ++ [fresh] } := by
    simp only [start, Guard.create, usable]
    rfl
  obtain ⟨n, counted⟩ := h.counted once
  have numbers : ∀ key ∈ lists.flatten, (w.table.registry.idOf key).isSome := fun key member =>
    h.isSome_idOf ((again key).1 member)
  have bls : ∀ key ∈ lists.flatten, key.isBls := fun key member =>
    h.bls key ((again key).1 member)
  refine ⟨fresh.knowAll (numbersOf w.table lists), ?_, ?_⟩
  · constructor
    · exact Guard.knowAll_config fresh _
    · rw [Guard.knowAll_held, h.idle]
    · exact h.validatorId?_knowAll once (fun _ => rfl) again
    · exact h.distinct
    · exact Guard.distinct_knowAll (g := fresh) List.nodup_nil _
  · rw [restart, opened, started]
    rw [serve_register_known (w := { w with guards := w.guards ++ [fresh] }) (g := fresh)
      (by simp) bls numbers counted]
    simp

/-- A restart changes no answer.  A guard is started on a store with any content, and asked for
    anything while no call fails; something is registered with a success.  Then it is dropped, a
    store that is kept in a file is closed and opened again, and a new guard with the same settings
    registers the keys that the old one had registered, in any order and however often.

    Whatever is asked from here on, the new guard gives the reply that the old one would have
    given: decisions with their reasons, outcomes and summaries of prunes, and exported texts.
    They know the same keys by the same numbers, and they leave the same store. -/
theorem restart_changes_no_answer (t : Table Bytes) (config : GuardConfig)
    (before after : List Operation) (kept : Bool) (lists : List (List PublicKey))
    (once : (served t config before).HasRegistered)
    (again : ∀ key, key ∈ lists.flatten ↔ key ∈ (served t config before).registered)
    (fits : kept → (served t config before).table.FitsFile) :
    let w := served t config before
    let old := w.serve 0 after
    let new := (w.restart kept config lists).serve w.guards.length after
    ∃ (events : List Event) (g g' : Guard),
      old.log = w.log ++ events ∧
        new.log = (w.log ++ lists.map fun keys => ⟨.register keys, .ok .done⟩) ++ events ∧
        new.table = old.table ∧
        old.guards[0]? = some g ∧ new.guards[w.guards.length]? = some g' ∧
        (∀ key, g'.validatorId? key = g.validatorId? key) ∧ g'.registeredIds = g.registeredIds := by
  intro w old new
  obtain ⟨usable, g, found, remembered, rfl⟩ := remembered_served once
  obtain ⟨g', alike, restarted⟩ := restart_eq remembered once usable fits again
  have found' : (w.restart kept g.config lists).guards[w.guards.length]? = some g' := by
    rw [restarted]
    simp [w]
  obtain ⟨events, g₁, g₁', log, log', table, last, last', alike'⟩ :=
    serve_alike found found' alike (by rw [restarted]) after
  refine ⟨events, g₁, g₁', log, ?_, table, last, last', alike'.knows, alike'.registeredIds⟩
  rw [log', restarted]

/-- Two keys are registered and a block is signed.  Behind the restart, which registers the keys in
    another order, another block is asked for at the same slot, and the history is exported. -/
theorem restart_changes_no_answer_twoKeys :
    let before : List Operation :=
      [.register [Run.oneKey, Run.otherKey], .signBlock Run.oneKey 5 ⟨[1]⟩]
    let after : List Operation :=
      [.signBlock Run.oneKey 5 ⟨[2]⟩, .prune, .exportTo .unlimited]
    let lists := [[Run.otherKey], [Run.otherKey, Run.oneKey]]
    let w := served Table.empty .standard before
    w.HasRegistered ∧ (∀ key, key ∈ lists.flatten ↔ key ∈ w.registered) ∧ w.table.FitsFile ∧
      ∃ (events : List Event) (g g' : Guard),
        (w.serve 0 after).log = w.log ++ events ∧
          ((w.restart true .standard lists).serve w.guards.length after).log =
            (w.log ++ lists.map fun keys => ⟨.register keys, .ok .done⟩) ++ events ∧
          ((w.restart true .standard lists).serve w.guards.length after).table =
            (w.serve 0 after).table ∧
          (w.serve 0 after).guards[0]? = some g ∧
          ((w.restart true .standard lists).serve w.guards.length after).guards[w.guards.length]? =
            some g' ∧
          (∀ key, g'.validatorId? key = g.validatorId? key) ∧
            g'.registeredIds = g.registeredIds := by
  intro before after lists w
  have once : w.HasRegistered := ⟨[Run.oneKey, Run.otherKey], by decide +kernel⟩
  have again : ∀ key, key ∈ lists.flatten ↔ key ∈ w.registered := by
    have registered : w.registered = [Run.oneKey, Run.otherKey] := by decide +kernel
    intro key
    rw [registered]
    simp only [lists, List.flatten_cons, List.flatten_nil, List.append_nil, List.mem_append,
      List.mem_cons, List.not_mem_nil, or_false]
    tauto
  have fits : w.table.FitsFile := by
    unfold Table.FitsFile
    decide +kernel
  refine ⟨once, again, fits, ?_⟩
  exact restart_changes_no_answer Table.empty .standard before after true lists once again
    fun _ => fits

end World

end SlashingGuard
