import SlashingGuard.Proofs.Ledger.Registration

/-! # What a transaction leaves pending

    Beside the table that a transaction sees there are the writes that it has
    pending, and they tell more: whether a step wrote at all, and which key.
    Here a step is described by what it leaves pending, on any table and with
    any writes pending before, also where values cannot be read and where
    calls fail. -/

namespace SlashingGuard

variable {α β : Type}

/-! ## Steps -/

namespace Transaction

/-- However the transaction ends on the table `t` with `p` pending: a value and what is pending then
    are as `Q` says, an error and what is pending then are as `E` says, and nothing is written. -/
def Leaves (faulty : Prop) (tx : Transaction α) (t : Table Bytes) (p : Pending)
    (Q : α → Pending → Prop) (E : LedgerError → Pending → Prop) : Prop :=
  (tx.run.run p).Always faulty t fun r t' => t' = t ∧
    match r.1 with
    | .ok a => Q a r.2
    | .error e => E e r.2

variable {faulty : Prop} {t : Table Bytes} {p : Pending} {Q : β → Pending → Prop}
  {E : LedgerError → Pending → Prop}

theorem leaves_pure {b : β} (h : Q b p) : Leaves faulty (pure b) t p Q E := ⟨rfl, h⟩

theorem leaves_throw {e : LedgerError} (h : E e p) :
    Leaves faulty (throw e : Transaction β) t p Q E := ⟨rfl, h⟩

theorem Leaves.mono {tx : Transaction β} {Q' : β → Pending → Prop}
    {E' : LedgerError → Pending → Prop} (h : Leaves faulty tx t p Q E)
    (value : ∀ b q, Q b q → Q' b q) (error : ∀ e q, E e q → E' e q) :
    Leaves faulty tx t p Q' E' := by
  refine Program.Always.mono h ?_
  rintro ⟨r, q⟩ t' ⟨same, post⟩
  refine ⟨same, ?_⟩
  cases r with
  | ok b => exact value b q post
  | error e => exact error e q post

theorem Leaves.bind {tx : Transaction α} {k : α → Transaction β}
    (h : Leaves faulty tx t p (fun a q => Leaves faulty (k a) t q Q E) E) :
    Leaves faulty (tx >>= k) t p Q E := by
  show Program.Always faulty (Program.bind (tx.run.run p) _) t _
  rw [Program.always_bind]
  refine Program.Always.mono h ?_
  rintro ⟨r, q⟩ t' ⟨rfl, post⟩
  cases r with
  | ok a => exact post
  | error e => exact ⟨rfl, post⟩

theorem leaves_ofExcept {r : Except LedgerError β} (value : ∀ b, r = .ok b → Q b p)
    (error : ∀ e, r = .error e → E e p) : Leaves faulty (ofExcept r) t p Q E := by
  cases r with
  | ok b => exact ⟨rfl, value b rfl⟩
  | error e => exact ⟨rfl, error e rfl⟩

/-- A query leaves what is pending, however it ends. -/
theorem leaves_query {q : Query β} {r : Except LedgerError β} (hq : q.Yields (t.overlaid p) r)
    (value : ∀ b, r = .ok b → Q b p) (error : ∀ e, r = .error e → E e p)
    (fault : faulty → ∀ x, E (.store x) p) : Leaves faulty (liftM q : Transaction β) t p Q E := by
  show Program.Always faulty (Program.bind (q p).run _) t _
  rw [Program.always_bind]
  refine hq faulty t p _ rfl ?_ fun fails x => ⟨rfl, fault fails x⟩
  cases r with
  | ok b => exact ⟨rfl, value b rfl⟩
  | error e => exact ⟨rfl, error e rfl⟩

/-- A query, and what follows it. -/
theorem leaves_query_bind {q : Query α} {k : α → Transaction β} {r : Except LedgerError α}
    (hq : q.Yields (t.overlaid p) r) (value : ∀ a, r = .ok a → Leaves faulty (k a) t p Q E)
    (error : ∀ e, r = .error e → E e p) (fault : faulty → ∀ x, E (.store x) p) :
    Leaves faulty (liftM q >>= k) t p Q E :=
  (leaves_query hq value error fault).bind

theorem leaves_put {key value : Bytes} {Q : Unit → Pending → Prop}
    (h : Q () (p.insert key (some value))) : Leaves faulty (put key value) t p Q E := ⟨rfl, h⟩

theorem leaves_delete {key : Bytes} {Q : Unit → Pending → Prop} (h : Q () (p.insert key none)) :
    Leaves faulty (delete key) t p Q E := ⟨rfl, h⟩

end Transaction

/-! ## Reading on any table -/

/-- What is read at a place: nothing, a value, or an error. -/
def Table.tryRead (v : Table Bytes) (place : Place) (read : Bytes → Except LedgerError α) :
    Except LedgerError (Option α) :=
  match v.get? place.bytes with
  | some bytes => (read bytes).map some
  | none => .ok none

theorem Table.tryRead_insert (v : Table Bytes) (place place' : Place) (value : Bytes)
    (read : Bytes → Except LedgerError α) :
    (v.insert place.bytes value).tryRead place' read =
      if place = place' then (read value).map some else v.tryRead place' read := by
  by_cases same : place = place' <;> simp [tryRead, same]

/-- What can be read is what a ledger is said to hold. -/
theorem Table.readAt_of_tryRead {v : Table Bytes} {place : Place}
    {read : Bytes → Except LedgerError α} {found : Option α}
    (h : v.tryRead place read = .ok found) : v.readAt place read = found := by
  unfold tryRead at h
  unfold readAt
  cases stored : v.get? place.bytes with
  | none =>
    rw [stored] at h
    exact Except.ok.inj h
  | some bytes =>
    rw [stored] at h
    change (read bytes).map some = .ok found at h
    cases result : read bytes with
    | error e =>
      rw [result] at h
      contradiction
    | ok a =>
      rw [result] at h
      rw [Option.bind_some, result]
      exact Except.ok.inj h

/-- The floors of a validator as a row; none if it has none of either kind. -/
def Watermark.ofFloors? (id : ValidatorId) (slot : Floor) (epochs : Option (Epoch × Epoch)) :
    Option Watermark :=
  if slot.isNone && epochs.isNone then none
  else some ⟨id, slot, epochs.map Prod.fst, epochs.map Prod.snd⟩

/-- As a row that may be empty. -/
@[simp] theorem Watermark.getD_ofFloors? (id : ValidatorId) (slot : Floor)
    (epochs : Option (Epoch × Epoch)) :
    (ofFloors? id slot epochs).getD (empty id) =
      ⟨id, slot, epochs.map Prod.fst, epochs.map Prod.snd⟩ := by
  cases slot <;> cases epochs <;> rfl

/-- The floors of a validator, or the error of the first that cannot be read. -/
def Table.tryRow? (v : Table Bytes) (id : ValidatorId) : Except LedgerError (Option Watermark) := do
  let slot ← v.tryRead (.floor id .block) (LedgerKey.readWord .slotFloor)
  let epochs ← v.tryRead (.floor id .attestation) LedgerValue.readEpochFloors
  return Watermark.ofFloors? id slot epochs

theorem Table.tryRow?_eq_ok_iff {v : Table Bytes} {id : ValidatorId} {row : Option Watermark} :
    v.tryRow? id = .ok row ↔ ∃ slot epochs,
      v.tryRead (.floor id .block) (LedgerKey.readWord .slotFloor) = .ok slot ∧
      v.tryRead (.floor id .attestation) LedgerValue.readEpochFloors = .ok epochs ∧
      row = Watermark.ofFloors? id slot epochs := by
  unfold tryRow?
  cases v.tryRead (.floor id .block) (LedgerKey.readWord .slotFloor) <;>
    cases v.tryRead (.floor id .attestation) LedgerValue.readEpochFloors <;>
      simp [bind, Except.bind, pure, Except.pure, eq_comm]

/-- The number of a key, or the error if it cannot be read. -/
def Table.tryId (v : Table Bytes) (key : PublicKey) : Except LedgerError (Option ValidatorId) :=
  v.tryRead (.idOf key) fun bytes => (LedgerKey.readWord .validator bytes).map ValidatorId.mk

/-- An error that ends a reading: what is stored cannot be read, or a call failed. -/
def LedgerError.Stops (e : LedgerError) (reading : Except LedgerError α) : Prop :=
  reading = .error e ∨ ∃ fault, e = .store fault

namespace Ledger

variable {v : Table Bytes}

theorem yields_tryRead (v : Table Bytes) (place : Place) (read : Bytes → Except LedgerError α) :
    (Query.record place.bytes read).Yields v (v.tryRead place read) :=
  Query.yields_record place.bytes read

theorem yields_tryRow? (v : Table Bytes) (id : ValidatorId) :
    (watermark? id).Yields v (v.tryRow? id) := by
  have slots := yields_tryRead v (.floor id .block) (LedgerKey.readWord .slotFloor)
  have epochs := yields_tryRead v (.floor id .attestation) LedgerValue.readEpochFloors
  unfold Table.tryRow?
  cases hs : v.tryRead (.floor id .block) (LedgerKey.readWord .slotFloor) with
  | error e =>
    rw [hs] at slots
    exact slots.bind_error
  | ok slot =>
    rw [hs] at slots
    refine slots.bind ?_
    cases he : v.tryRead (.floor id .attestation) LedgerValue.readEpochFloors with
    | error e =>
      rw [he] at epochs
      exact epochs.bind_error
    | ok floors =>
      rw [he] at epochs
      refine epochs.bind ?_
      show Query.Yields _ v (.ok (Watermark.ofFloors? id slot floors))
      rw [Watermark.ofFloors?]
      split
      · exact Query.yields_pure none
      · exact Query.yields_pure _

theorem yields_tryRow (v : Table Bytes) (id : ValidatorId) :
    (watermark id).Yields v ((v.tryRow? id).map fun row => row.getD (Watermark.empty id)) :=
  (yields_tryRow? v id).map _

/-! ## Raising floors -/

open Transaction

/-- Raises what is read at a place if it moves, and gives the floors of a validator that are stored
    then. -/
def raising (id : ValidatorId) (place : Place) (read : Bytes → Except LedgerError α)
    (moves : Option α → Bool) (value : Option α → Bytes) : Transaction Watermark := do
  requireRegistered id
  let floor ← Query.record place.bytes read
  if moves floor then
    Transaction.put place.bytes (value floor)
  watermark id

theorem raiseSlotFloor_eq (id : ValidatorId) (slot : Slot) :
    raiseSlotFloor id slot =
      raising id (.floor id .block) (LedgerKey.readWord .slotFloor)
        (fun floor => Floor.moves floor slot)
        fun floor => Bytes.ofWord (Floor.raised floor slot) := by
  unfold raiseSlotFloor raising
  simp only [Watermark.raiseSlot, Floor.raise_eq, Option.getD_some]
  rfl

theorem raiseEpochFloors_eq (id : ValidatorId) (source target : Epoch) :
    raiseEpochFloors id source target =
      raising id (.floor id .attestation) LedgerValue.readEpochFloors
        (fun floors => Floor.moves (floors.map Prod.fst) source ||
          Floor.moves (floors.map Prod.snd) target)
        fun floors => LedgerValue.writeEpochFloors (Floor.raised (floors.map Prod.fst) source)
          (Floor.raised (floors.map Prod.snd) target) := by
  unfold raiseEpochFloors raising
  simp only [Watermark.raiseEpochs, Floor.raise_eq, Option.getD_some]
  rfl

end Ledger

/-- The pending writes with a floor raised from where it was read; one that does not move is not
    written. -/
def Pending.raise (p : Pending) (place : Place) (moves : Option α → Bool)
    (value : Option α → Bytes) (floor : Option α) : Pending :=
  if moves floor then p.insert place.bytes (some (value floor)) else p

theorem Table.overlaid_raise (t : Table Bytes) (p : Pending) (place : Place)
    (moves : Option α → Bool) (value : Option α → Bytes) (floor : Option α) :
    t.overlaid (p.raise place moves value floor) =
      if moves floor then (t.overlaid p).insert place.bytes (value floor) else t.overlaid p := by
  unfold Pending.raise
  split
  · exact overlaid_insert_some t p place.bytes (value floor)
  · rfl

theorem Pending.get?_raise_of_ne (p : Pending) {place : Place} {moves : Option α → Bool}
    {value : Option α → Bytes} {floor : Option α} {key : Bytes} (ne : key ≠ place.bytes) :
    (p.raise place moves value floor).get? key = p.get? key := by
  unfold raise
  split
  · rw [Table.get?_insert, if_neg (Ne.symm ne)]
  · rfl

namespace Ledger

open Transaction

variable {faulty : Prop} {t : Table Bytes} {p : Pending} {Q : Watermark → Pending → Prop}
  {E : LedgerError → Pending → Prop}

/-- Reading a row leaves what is pending. -/
theorem leaves_watermark {id : ValidatorId}
    (found : ∀ row, (t.overlaid p).tryRow? id = .ok row → Q (row.getD (Watermark.empty id)) p)
    (unreadable : ∀ e, (t.overlaid p).tryRow? id = .error e → E e p)
    (fault : faulty → ∀ x, E (.store x) p) : Leaves faulty (liftM (watermark id)) t p Q E := by
  have reads := yields_tryRow (t.overlaid p) id
  cases stored : (t.overlaid p).tryRow? id with
  | ok row =>
    rw [stored] at reads
    refine leaves_query reads (fun b hb => ?_) nofun fault
    obtain rfl := Except.ok.inj hb
    exact found row stored
  | error e =>
    rw [stored] at reads
    refine leaves_query reads nofun (fun e' he => ?_) fault
    obtain rfl := Except.error.inj he
    exact unreadable e stored

/-- A floor is raised between two readings.  An error of the first leaves what was pending; one of
    the second comes up when the raised floor is pending already. -/
theorem leaves_raising {id : ValidatorId} {place : Place} {read : Bytes → Except LedgerError α}
    {moves : Option α → Bool} {value : Option α → Bytes}
    (unregistered : (t.overlaid p).isRegistered id = false → E (.breach (.unregistered id)) p)
    (unreadable : ∀ e, (t.overlaid p).tryRead place read = .error e → E e p)
    (raised : (t.overlaid p).isRegistered id → ∀ floor row,
      (t.overlaid p).tryRead place read = .ok floor →
      (t.overlaid (p.raise place moves value floor)).tryRow? id = .ok row →
        Q (row.getD (Watermark.empty id)) (p.raise place moves value floor))
    (unreadBack : (t.overlaid p).isRegistered id → ∀ floor e,
      (t.overlaid p).tryRead place read = .ok floor →
      (t.overlaid (p.raise place moves value floor)).tryRow? id = .error e →
        E e (p.raise place moves value floor))
    (fault : faulty → ∀ x, E (.store x) p)
    (late : faulty → (t.overlaid p).isRegistered id → ∀ floor x,
      (t.overlaid p).tryRead place read = .ok floor →
        E (.store x) (p.raise place moves value floor)) :
    Leaves faulty (raising id place read moves value) t p Q E := by
  unfold raising
  cases registered : (t.overlaid p).isRegistered id with
  | false =>
    refine leaves_query_bind (yields_requireRegistered_error registered) nofun (fun e he => ?_)
      fault
    obtain rfl := Except.error.inj he
    exact unregistered registered
  | true =>
    refine leaves_query_bind (yields_requireRegistered registered) (fun _ _ => ?_) nofun fault
    refine leaves_query_bind (yields_tryRead _ place read) (fun floor found => ?_) unreadable fault
    -- Whether or not the floor moves, the row is read back from what is pending then.
    have back : Leaves faulty (liftM (watermark id)) t (p.raise place moves value floor) Q E :=
      leaves_watermark (raised registered floor · found) (unreadBack registered floor · found)
        fun fails x => late fails registered floor x found
    unfold Pending.raise at back
    split
    · next moved =>
      rw [if_pos moved] at back
      exact (leaves_put back).bind
    · next still =>
      rw [if_neg still] at back
      exact back

/-- Where the floor can be read, and the row that is stored then, no call that fails is in the
    way. -/
theorem leaves_raising_of_stored {id : ValidatorId} {place : Place}
    {read : Bytes → Except LedgerError α} {moves : Option α → Bool} {value : Option α → Bytes}
    {floor : Option α} {row : Watermark} (registered : (t.overlaid p).isRegistered id)
    (found : (t.overlaid p).tryRead place read = .ok floor)
    (stored : (t.overlaid (p.raise place moves value floor)).tryRow? id = .ok (some row)) :
    Leaves False (raising id place read moves value) t p
      (fun given q => given = row ∧ q = p.raise place moves value floor) fun _ _ => False := by
  have there : (t.overlaid p).isRegistered id ≠ false := by simp [registered]
  refine leaves_raising (absurd · there) (fun e failed => ?_) (fun _ floor' back found' read => ?_)
    (fun _ floor' e found' failed => ?_) nofun nofun
  · rw [found] at failed
    contradiction
  · obtain rfl := Except.ok.inj (found.symm.trans found')
    obtain rfl := Except.ok.inj (stored.symm.trans read)
    exact ⟨rfl, rfl⟩
  · obtain rfl := Except.ok.inj (found.symm.trans found')
    rw [stored] at failed
    contradiction

end Ledger

/-! ## Registering keys -/

namespace Pending

/-- The pending writes with a key under the number that comes next. -/
def enroll (p : Pending) (key : PublicKey) (number : UInt64) : Pending :=
  (p.insert (Place.idOf key).bytes (some (Bytes.ofWord number))).insert
    (Place.keyOf ⟨number⟩).bytes (some key.bytes)

/-- The pending writes after keys were given their numbers on the table `t`, new keys from `next`
    on; the counter is left. -/
def enrollFrom (t : Table Bytes) (p : Pending) (next : UInt64) : List PublicKey → Pending
  | [] => p
  | key :: rest =>
    match (t.overlaid p).registry.idOf key with
    | some _ => p.enrollFrom t next rest
    | none => (p.enroll key next).enrollFrom t (next + 1) rest

theorem enrollFrom_cons_known {t : Table Bytes} {p : Pending} {key : PublicKey} {id : ValidatorId}
    (h : (t.overlaid p).registry.idOf key = some id) (next : UInt64) (rest : List PublicKey) :
    p.enrollFrom t next (key :: rest) = p.enrollFrom t next rest := by
  rw [enrollFrom, h]

theorem enrollFrom_cons_new {t : Table Bytes} {p : Pending} {key : PublicKey}
    (h : (t.overlaid p).registry.idOf key = none) (next : UInt64) (rest : List PublicKey) :
    p.enrollFrom t next (key :: rest) = (p.enroll key next).enrollFrom t (next + 1) rest := by
  rw [enrollFrom, h]

end Pending

namespace Table

@[simp] theorem overlaid_enroll (t : Table Bytes) (p : Pending) (key : PublicKey)
    (number : UInt64) : t.overlaid (p.enroll key number) = (t.overlaid p).enroll key number := by
  rw [Pending.enroll, overlaid_insert_some, overlaid_insert_some, enroll]

end Table

/-- The counter stays as it was. -/
theorem Pending.get?_enrollFrom_nextId (t : Table Bytes) (p : Pending) (next : UInt64)
    (keys : List PublicKey) :
    (p.enrollFrom t next keys).get? Place.nextId.bytes = p.get? Place.nextId.bytes := by
  induction keys generalizing p next with
  | nil => rfl
  | cons key rest ih =>
    cases known : (t.overlaid p).registry.idOf key with
    | some id => rw [enrollFrom_cons_known known, ih]
    | none =>
      rw [enrollFrom_cons_new known, ih]
      simp [enroll]

namespace Ledger

open Transaction

variable {faulty : Prop} {t : Table Bytes} {p : Pending} {E : LedgerError → Pending → Prop}

/-- Keys get their numbers one after the other.  An error comes up at one of the keys, when those
    before it have theirs. -/
theorem leaves_registerFrom (next : UInt64) (keys : List PublicKey)
    {Q : List ValidatorId × UInt64 → Pending → Prop}
    (done : Q ((t.overlaid p).enrollFrom next keys).2 (p.enrollFrom t next keys))
    (cut : ∀ first key rest e, keys = first ++ key :: rest →
      e.Stops ((t.overlaid (p.enrollFrom t next first)).tryId key) →
        E e (p.enrollFrom t next first)) :
    Leaves faulty (registerFrom next keys) t p Q E := by
  induction keys generalizing p next Q with
  | nil => exact leaves_pure done
  | cons key rest ih =>
    have here : ∀ e, e.Stops ((t.overlaid p).tryId key) → E e p := fun e => cut [] key rest e rfl
    unfold registerFrom
    refine leaves_query_bind (yields_tryRead _ (.idOf key) _) (fun found read => ?_)
      (fun e unread => here e (.inl unread)) fun _ x => here (.store x) (.inr ⟨x, rfl⟩)
    have known : (t.overlaid p).registry.idOf key = found := Table.readAt_of_tryRead read
    cases found with
    | some id =>
      rw [Table.enrollFrom_cons_known known, Pending.enrollFrom_cons_known known] at done
      refine (ih next (leaves_pure done) fun first key' rest' e split => ?_).bind
      rw [← Pending.enrollFrom_cons_known known]
      exact cut (key :: first) key' rest' e (congrArg _ split)
    | none =>
      rw [Table.enrollFrom_cons_new known, Pending.enrollFrom_cons_new known] at done
      rw [← Table.overlaid_enroll] at done
      refine (leaves_put (leaves_put (Leaves.bind ?_)).bind).bind
      refine ih (next + 1) (leaves_pure done) fun first key' rest' e split => ?_
      show e.Stops ((t.overlaid ((p.enroll key next).enrollFrom t (next + 1) first)).tryId key') →
        E e ((p.enroll key next).enrollFrom t (next + 1) first)
      rw [← Pending.enrollFrom_cons_new known]
      exact cut (key :: first) key' rest' e (congrArg _ split)

/-- The counter is read before the first key, and written behind the last. -/
theorem leaves_register (keys : List PublicKey) {Q : List ValidatorId → Pending → Prop}
    (unread : ∀ e, E e p)
    (done : Q ((t.overlaid p).registerKeys keys).2
      ((p.enrollFrom t (t.overlaid p).registry.next keys).insert Place.nextId.bytes
        (some (Bytes.ofWord ((t.overlaid p).enrollFrom (t.overlaid p).registry.next keys).2.2))))
    (cut : ∀ first key rest e, keys = first ++ key :: rest →
      e.Stops ((t.overlaid (p.enrollFrom t (t.overlaid p).registry.next first)).tryId key) →
        E e (p.enrollFrom t (t.overlaid p).registry.next first)) :
    Leaves faulty (register keys) t p Q E := by
  have counter : nextId.Yields (t.overlaid p)
      (((t.overlaid p).tryRead .nextId (LedgerKey.readWord .nextId)).map fun n => n.getD 1) :=
    (yields_tryRead _ .nextId _).map _
  unfold register
  refine leaves_query_bind counter (fun next read => ?_) (fun e _ => unread e)
    fun _ x => unread (.store x)
  have known : next = (t.overlaid p).registry.next := by
    cases stored : (t.overlaid p).tryRead .nextId (LedgerKey.readWord .nextId) with
    | error e =>
      rw [stored] at read
      contradiction
    | ok found =>
      rw [stored] at read
      rw [Table.registry, Table.readAt_of_tryRead stored]
      exact (Except.ok.inj read).symm
  subst known
  exact (leaves_registerFrom _ keys (leaves_put (leaves_pure done)).bind cut).bind

end Ledger

end SlashingGuard
