import SlashingGuard.Ledger.Decision
import SlashingGuard.Proofs.Ledger.Confinement
import SlashingGuard.Proofs.Ledger.Queries

/-! # Decisions and prunes are confined to their locks

    What is pending in a transaction of a lock belongs to the lock, and each
    query and step that a decision or half a prune is made of reads the
    registry and what belongs to its own lock.  There is one exception: the
    floors of both kinds are read together, as a row.  The floors of the other
    kind can be read on a legible ledger, whatever they are, and nothing that
    follows depends on them. -/

namespace SlashingGuard

variable {α β : Type} {lock : LockName}

/-! ## Pending writes -/

namespace Pending

/-- Whether a lock allows all that is pending. -/
def Under (lock : LockName) (p : Pending) : Prop :=
  ∀ key value, p.get? key = some value → lock.Allows (change (key, value))

theorem under_empty (lock : LockName) : Under lock Table.empty := nofun

variable {p : Pending}

theorem Under.insert (h : p.Under lock) {key : Bytes} {value : Option Bytes}
    (allowed : lock.Allows (change (key, value))) : Under lock (p.insert key value) := by
  intro key' value' found
  rw [Table.get?_insert] at found
  split at found
  · next same =>
    subst same
    rwa [← Option.some.inj found]
  · exact h key' value' found

theorem Under.batch (h : p.Under lock) : ∀ change ∈ p.batch, lock.Allows change := by
  intro change member
  obtain ⟨entry, found, rfl⟩ := List.mem_map.1 member
  exact h entry.1 entry.2 (Table.get?_eq_some_iff.2 found)

/-- Nothing is pending at a key of another lock. -/
theorem Under.get?_eq_none (h : p.Under lock) {key : Bytes} (other : ¬ lock.Owns key) :
    p.get? key = none := by
  cases found : p.get? key with
  | none => rfl
  | some value =>
    have owns := (h key value found).owns
    cases value <;> exact absurd owns other

theorem Under.overlaid (h : p.Under lock) {t : Table Bytes} (legible : t.Legible) :
    (t.overlaid p).Legible :=
  legible.applyBatch h.batch

end Pending

/-! ## Queries -/

namespace Query

/-- Run through pending writes of a lock, the query is confined to the lock; a value that it gives
    is as `P` says. -/
def Confined (lock : LockName) (q : Query α) (P : α → Prop) : Prop :=
  ∀ p : Pending, p.Under lock → (q p).run.Confined lock fun r => ∀ a, r = .ok a → P a

variable {P : α → Prop}

theorem confined_pure {a : α} (h : P a) : Confined lock (pure a) P := by
  intro p _ b same
  obtain rfl := Except.ok.inj same
  exact h

theorem confined_throw (e : LedgerError) : Confined lock (throw e) P := by
  intro p _ b same
  contradiction

theorem confined_ofExcept {r : Except LedgerError α} (h : ∀ a, r = .ok a → P a) :
    Confined lock (ofExcept r) P := by
  intro p _
  cases r with
  | ok a => exact h
  | error e => exact h

theorem Confined.bind {q : Query α} {k : α → Query β} {P' : β → Prop} (hq : q.Confined lock P)
    (hk : ∀ a, P a → (k a).Confined lock P') : (q >>= k).Confined lock P' := by
  intro p under
  show Program.Confined lock _ (Program.bind (q p).run _)
  apply (hq p under).bind
  intro r post
  cases r with
  | ok a => exact hk a (post a rfl) p under
  | error e =>
    intro b same
    contradiction

theorem confined_get {key : Bytes} (sees : lock.Sees key) :
    (get key).Confined lock fun _ => True := by
  intro p _
  unfold get
  split
  · intro _ _
    trivial
  · refine ⟨nofun, ?_, ?_⟩
    · intro t u alike
      have same := alike.same key sees
      simp only [Table.answer, same]
    · intro t _ _ _
      trivial

theorem confined_contains {key : Bytes} (sees : lock.Sees key) :
    (contains key).Confined lock fun _ => True := by
  intro p _
  unfold contains
  split
  · intro _ _
    trivial
  · refine ⟨nofun, ?_, ?_⟩
    · intro t u alike
      have same := alike.same key sees
      simp only [Table.answer, Table.contains, same]
    · intro t _ _ _
      trivial

theorem confined_record (place : Place) (sees : lock.Sees place.bytes)
    (read : Bytes → Except LedgerError α) :
    (record place.bytes read).Confined lock fun _ => True := by
  apply (confined_get sees).bind
  intro value _
  cases value with
  | none => exact confined_pure trivial
  | some bytes =>
    apply (confined_ofExcept (P := fun _ => True) fun _ _ => trivial).bind
    intro a _
    exact confined_pure trivial

end Query

/-! ## Transactions -/

namespace Transaction

/-- Begun with pending writes of a lock, the transaction is confined to the lock and leaves such
    writes; a value that it gives is as `P` says. -/
def Confined (lock : LockName) (tx : Transaction α) (P : α → Prop) : Prop :=
  ∀ p : Pending, p.Under lock → (tx.run.run p).Confined lock fun r =>
    r.2.Under lock ∧ ∀ a, r.1 = .ok a → P a

variable {P : α → Prop} {P' : β → Prop}

theorem confined_pure {a : α} (h : P a) : Confined lock (pure a) P := by
  intro p under
  refine ⟨under, ?_⟩
  intro b same
  obtain rfl := Except.ok.inj same
  exact h

theorem confined_throw (e : LedgerError) : Confined lock (throw e : Transaction α) P := by
  intro p under
  exact ⟨under, nofun⟩

theorem confined_ofExcept {r : Except LedgerError α} (h : ∀ a, r = .ok a → P a) :
    Confined lock (ofExcept r) P := by
  intro p under
  exact ⟨under, h⟩

theorem Confined.bind {tx : Transaction α} {k : α → Transaction β} (h : tx.Confined lock P)
    (hk : ∀ a, P a → (k a).Confined lock P') : (tx >>= k).Confined lock P' := by
  intro p under
  show Program.Confined lock _ (Program.bind (tx.run.run p) _)
  apply (h p under).bind
  rintro ⟨r, p'⟩ ⟨under', value⟩
  cases r with
  | ok a => exact hk a (value a rfl) p' under'
  | error e => exact ⟨under', nofun⟩

theorem confined_query {q : Query α} (h : q.Confined lock P) :
    Confined lock (liftM q : Transaction α) P := by
  intro p under
  show Program.Confined lock _ (Program.bind (q p).run _)
  apply (h p under).bind
  intro r value
  exact ⟨under, value⟩

theorem confined_put {place : Place} {value : Bytes} (owner : place.lock? = some lock)
    (reads : place.Reads value) : Confined lock (put place.bytes value) fun _ => True := by
  intro p under
  have allowed : lock.Allows (.put place.bytes value) := ⟨place, owner, rfl, reads⟩
  exact ⟨under.insert allowed, fun _ _ => trivial⟩

theorem confined_delete {key : Bytes} (owns : lock.Owns key) :
    Confined lock (delete key) fun _ => True := by
  intro p under
  have allowed : lock.Allows (.delete key) := owns
  exact ⟨under.insert allowed, fun _ _ => trivial⟩

end Transaction

/-! ## Commits -/

namespace LedgerWork

/-- A transaction of a lock that is committed or dropped. -/
theorem confined_atomically {tx : Transaction α} {P : α → Prop} (h : tx.Confined lock P)
    (keep : α → Bool) : (atomically tx keep).run.Confined lock fun _ => True := by
  have started : tx.start.run.Confined lock fun r => ∀ a p, r = .ok (a, p) → p.Under lock := by
    show Program.Confined lock _ (Program.bind (tx.run.run Table.empty) _)
    apply (h Table.empty (Pending.under_empty lock)).bind
    rintro ⟨r, p⟩ ⟨under, -⟩ a p' same
    cases r with
    | ok b =>
      obtain ⟨-, rfl⟩ := Prod.mk.inj (Except.ok.inj same)
      exact under
    | error e => contradiction
  show Program.Confined lock _ (Program.bind tx.start.run _)
  apply started.bind
  intro r under
  cases r with
  | error e => trivial
  | ok result =>
    obtain ⟨a, p⟩ := result
    show Program.Confined lock _
      (ExceptT.run (if keep a then commit p >>= fun _ => pure a else pure a))
    split
    · unfold commit
      split
      · trivial
      · refine ⟨(under a p rfl).batch, ?_, ?_⟩
        · intro t u _
          rfl
        · intro t _
          trivial
    · trivial

end LedgerWork

/-! ## Floors of the other kind -/

namespace Query

/-- A record of another lock that is read in passing: if what follows does not depend on it, the
    whole is confined. -/
theorem confined_ignored (place : Place) {read : Bytes → Except LedgerError α}
    (reads : ∀ value, place.Reads value → ∃ a, read value = .ok a)
    (other : ¬ lock.Owns place.bytes) {f : Except LedgerError (Option α) → StoreProgram β}
    {P : β → Prop} {p : Pending} (under : p.Under lock) (same : ∀ a b, f (.ok a) = f (.ok b))
    (h : (f (.ok none)).Confined lock P) :
    ((record place.bytes read p).run.bind f).Confined lock P := by
  -- Nothing is pending there, so the store is asked.
  have absent : p.get? place.bytes = none := under.get?_eq_none other
  let next : Except StoreFault (Option Bytes) → StoreProgram β
    | .error x => f (.error (.store x))
    | .ok none => f (.ok none)
    | .ok (some bytes) => f ((read bytes).map some)
  have asked : (record place.bytes read p).run.bind f = .call (.get place.bytes) next := by
    show Program.bind (Program.bind (ExceptT.run (get place.bytes p)) _) f = _
    rw [get, absent]
    show @Program.call Store.calls β (.get place.bytes) _ = _
    congr 1
    funext reply
    match reply with
    | .error x => rfl
    | .ok none => rfl
    | .ok (some bytes) =>
      show Program.bind (ExceptT.run ((some <$> ofExcept (read bytes) : Query (Option α)) p)) f =
        f ((read bytes).map some)
      cases read bytes <;> rfl
  -- What is read there is a value, whatever it is.
  have ignored : ∀ t : Table Bytes, t.Legible → next (.ok (t.get? place.bytes)) = f (.ok none) := by
    intro t legible
    cases found : t.get? place.bytes with
    | none => rfl
    | some value =>
      obtain ⟨a, ha⟩ := reads value (legible.reads place found)
      show f ((read value).map some) = _
      rw [ha]
      exact same _ _
  rw [asked]
  refine ⟨nofun, ?_, ?_⟩
  · intro t u alike
    exact (ignored t alike.left).trans (ignored u alike.right).symm
  · intro t legible
    show Program.Confined lock P (next (.ok (t.get? place.bytes)))
    rw [ignored t legible]
    exact h

end Query

/-- Rows that say the same about the floors of a duty kind. -/
def Watermark.SameFloors : DutyKind → Option Watermark → Option Watermark → Prop
  | .block, row, row' => row.bind Watermark.slot = row'.bind Watermark.slot
  | .attestation, row, row' =>
    row.bind Watermark.source = row'.bind Watermark.source ∧
      row.bind Watermark.target = row'.bind Watermark.target

namespace Ledger

open Transaction

variable {kind : DutyKind} {id : ValidatorId} {P : β → Prop}

/-! ## Reading -/

theorem sees_keyOf (lock : LockName) (id : ValidatorId) : lock.Sees (Place.keyOf id).bytes :=
  LockName.sees_bytes nofun

theorem sees_floor (id : ValidatorId) (kind : DutyKind) :
    LockName.Sees (id, kind) (Place.floor id kind).bytes :=
  LockName.sees_bytes fun _ owner => (Option.some.inj owner).symm

theorem sees_record (id : ValidatorId) (kind : DutyKind) (n : UInt64) :
    LockName.Sees (id, kind) (Place.record kind id n).bytes := by
  apply LockName.sees_bytes
  intro other owner
  rw [Place.lock?_record] at owner
  exact (Option.some.inj owner).symm

theorem owner_floor (id : ValidatorId) (kind : DutyKind) :
    (Place.floor id kind).lock? = some (id, kind) := rfl

theorem confined_requireRegistered (lock : LockName) (id : ValidatorId) :
    (requireRegistered id).Confined lock fun _ => True := by
  apply (Query.confined_contains (sees_keyOf lock id)).bind
  intro registered _
  cases registered with
  | true => exact Query.confined_pure trivial
  | false => exact Query.confined_throw _

theorem confined_slotFloor? (id : ValidatorId) :
    (slotFloor? id).Confined (id, .block) fun _ => True :=
  Query.confined_record (.floor id .block) (sees_floor id .block) _

theorem confined_epochFloors? (id : ValidatorId) :
    (epochFloors? id).Confined (id, .attestation) fun _ => True :=
  Query.confined_record (.floor id .attestation) (sees_floor id .attestation) _

theorem confined_blockAt? (id : ValidatorId) (slot : Slot) :
    (blockAt? id slot).Confined (id, .block) fun _ => True :=
  Query.confined_record (.block id slot) (sees_record id .block slot) _

theorem confined_attestationAt? (id : ValidatorId) (target : Epoch) :
    (attestationAt? id target).Confined (id, .attestation) fun _ => True :=
  Query.confined_record (.attestation id target) (sees_record id .attestation target) _

/-- The records of a kind are read under its lock, and nothing else is. -/
theorem confined_entriesOf (kind : DutyKind) (id : ValidatorId) :
    (entriesOf kind.family id).Confined (id, kind) (Entries.Indexed kind.family id) := by
  intro p under
  refine ⟨nofun, ?_, ?_⟩
  · intro t u alike
    -- On a legible ledger what lies in the scope are records, so both have the same there.
    have same : t.scan (kind.family.scope id) = u.scan (kind.family.scope id) := by
      apply Table.scan_congr
      intro key inside
      apply alike.same
      intro other owns
      obtain ⟨place, owner, rfl⟩ := owns
      obtain ⟨n, rfl⟩ := Place.record_scope_isPrefixOf.1 inside
      rw [Place.lock?_record] at owner
      exact (Option.some.inj owner).symm
    simp only [Table.answer, same]
  · intro t legible entries read
    obtain rfl := Except.ok.inj read
    show Entries.Indexed _ id (p.merge _ (t.scan _))
    rw [Table.merge_scan]
    exact (under.overlaid legible).indexed_records kind id

theorem confined_newest? (kind : DutyKind) (what : RecordKind) (id : ValidatorId) :
    (newest? kind.family what id).Confined (id, kind) fun _ => True := by
  apply (confined_entriesOf kind id).bind
  intro entries _
  cases entries.getLast? with
  | none => exact Query.confined_pure trivial
  | some entry =>
    apply (Query.confined_ofExcept (P := fun _ => True) fun _ _ => trivial).bind
    intro n _
    exact Query.confined_pure trivial

theorem confined_attestations (id : ValidatorId) :
    (attestations id).Confined (id, .attestation) fun _ => True := by
  apply (confined_entriesOf .attestation id).bind
  intro entries _
  exact Query.confined_ofExcept fun _ _ => trivial

theorem confined_surrounding (id : ValidatorId) (vote : Vote) :
    (surrounding id vote).Confined (id, .attestation) fun _ => True := by
  apply (confined_attestations id).bind
  intro records _
  exact Query.confined_pure trivial

theorem confined_surrounded (id : ValidatorId) (vote : Vote) :
    (surrounded id vote).Confined (id, .attestation) fun _ => True := by
  apply (confined_attestations id).bind
  intro records _
  exact Query.confined_pure trivial

/-! ## Floors -/

theorem not_owns_floor {kind other : DutyKind} (h : kind ≠ other) :
    ¬ LockName.Owns (id, kind) (Place.floor id other).bytes := by
  rw [LockName.owns_bytes_iff]
  intro same
  exact h (Prod.mk.inj (Option.some.inj same)).2.symm

/-- Both kinds of floors are read into a row.  What follows is confined if it depends on the floors
    of its own kind alone. -/
theorem confined_watermark? {p : Pending} (under : p.Under (id, kind))
    {f : Except LedgerError (Option Watermark) → StoreProgram β}
    (same : ∀ row row', Watermark.SameFloors kind row row' → f (.ok row) = f (.ok row'))
    (ok : ∀ row, (f (.ok row)).Confined (id, kind) P)
    (error : ∀ e, (f (.error e)).Confined (id, kind) P) :
    ((watermark? id p).run.bind f).Confined (id, kind) P := by
  -- The row that is made of two floors.
  let row (slot : Option Slot) (epochs : Option (Epoch × Epoch)) : Option Watermark :=
    if slot.isNone && epochs.isNone then none
    else some ⟨id, slot, epochs.map Prod.fst, epochs.map Prod.snd⟩
  let second (slot : Option Slot) : Except LedgerError (Option (Epoch × Epoch)) → StoreProgram β
    | .ok epochs => f (.ok (row slot epochs))
    | .error e => f (.error e)
  let first : Except LedgerError (Option Slot) → StoreProgram β
    | .ok slot => (epochFloors? id p).run.bind (second slot)
    | .error e => f (.error e)
  have reads : (watermark? id p).run.bind f = (slotFloor? id p).run.bind first := by
    show Program.bind (Program.bind (slotFloor? id p).run _) f = _
    rw [Program.bind_assoc]
    congr 1
    funext r
    cases r with
    | error e => rfl
    | ok slot =>
      show Program.bind (Program.bind (epochFloors? id p).run _) f = _
      rw [Program.bind_assoc]
      congr 1
      funext r
      cases r with
      | error e => rfl
      | ok epochs => cases slot <;> cases epochs <;> rfl
  rw [reads]
  cases kind with
  | block =>
    apply (confined_slotFloor? id p under).bind
    intro r _
    cases r with
    | error e => exact error e
    | ok slot =>
      refine Query.confined_ignored (.floor id .attestation) (fun _ reads => reads)
        (not_owns_floor (by decide)) under ?_ (ok _)
      intro epochs epochs'
      apply same
      cases slot <;> cases epochs <;> cases epochs' <;> rfl
  | attestation =>
    refine Query.confined_ignored (.floor id .block) (fun _ reads => reads)
      (not_owns_floor (by decide)) under ?_ ?_
    · intro slot slot'
      show Program.bind _ (second slot) = Program.bind _ (second slot')
      congr 1
      funext r
      cases r with
      | error e => rfl
      | ok epochs =>
        apply same
        cases slot <;> cases slot' <;> cases epochs <;> exact ⟨rfl, rfl⟩
    · apply (confined_epochFloors? id p under).bind
      intro r _
      cases r with
      | error e => exact error e
      | ok epochs => exact ok _

/-- A transaction that begins with the row of both kinds. -/
theorem confined_watermark?_bind {k : Option Watermark → Transaction β}
    (same : ∀ row row', Watermark.SameFloors kind row row' → k row = k row')
    (h : ∀ row, (k row).Confined (id, kind) P) :
    (liftM (watermark? id) >>= k : Transaction β).Confined (id, kind) P := by
  intro p under
  let f : Except LedgerError (Option Watermark) →
      StoreProgram (Except LedgerError β × Pending)
    | .ok row => (k row).run.run p
    | .error e => .done (.error e, p)
  have reads : (liftM (watermark? id) >>= k : Transaction β).run.run p =
      (watermark? id p).run.bind f := by
    show Program.bind (Program.bind (watermark? id p).run _) _ = _
    rw [Program.bind_assoc]
    congr 1
    funext r
    cases r <;> rfl
  rw [reads]
  apply confined_watermark? under
  · intro row row' floors
    exact congrArg (fun tx : Transaction β => tx.run.run p) (same row row' floors)
  · intro row
    exact h row p under
  · intro e
    exact ⟨under, nofun⟩

/-- One that goes on with the row of both kinds. -/
theorem confined_watermark_bind {k : Watermark → Transaction β}
    (same : ∀ row row', Watermark.SameFloors kind (some row) (some row') → k row = k row')
    (h : ∀ row, (k row).Confined (id, kind) P) :
    (liftM (watermark id) >>= k : Transaction β).Confined (id, kind) P := by
  have read : (liftM (watermark id) >>= k : Transaction β) =
      liftM (watermark? id) >>= fun row => k (row.getD (Watermark.empty id)) := by
    funext p
    show Program.bind (Program.bind (Program.bind (watermark? id p).run _) _) _ =
      Program.bind (Program.bind (watermark? id p).run _) _
    rw [Program.bind_assoc, Program.bind_assoc, Program.bind_assoc]
    congr 1
    funext r
    cases r <;> rfl
  rw [read]
  apply confined_watermark?_bind
  · intro row row' floors
    apply same
    cases kind with
    | block =>
      -- The empty row has no floors either.
      cases row <;> cases row' <;> exact floors
    | attestation => cases row <;> cases row' <;> exact floors
  · intro row
    exact h _

/-- What follows a raised slot floor may depend on that floor. -/
theorem confined_raiseSlotFloor_bind (slot : Slot) {k : Watermark → Transaction β}
    (same : ∀ row row' : Watermark, row.slot = row'.slot → k row = k row')
    (h : ∀ row, (k row).Confined (id, .block) P) :
    (raiseSlotFloor id slot >>= k).Confined (id, .block) P := by
  have row : (liftM (watermark id) >>= k : Transaction β).Confined (id, .block) P := by
    refine confined_watermark_bind ?_ h
    intro row row' floors
    exact same row row' (by simpa [Watermark.SameFloors] using floors)
  unfold raiseSlotFloor
  simp only [bind_assoc]
  apply Confined.bind (confined_query (confined_requireRegistered _ id))
  intro _ _
  apply Confined.bind (confined_query (confined_slotFloor? id))
  intro floor _
  split
  · rw [bind_assoc]
    apply Confined.bind (confined_put (owner_floor id .block) ⟨_, LedgerKey.readWord_ofWord _ _⟩)
    intro _ _
    exact row
  · exact row

/-- What follows raised epoch floors may depend on both of them. -/
theorem confined_raiseEpochFloors_bind (source target : Epoch) {k : Watermark → Transaction β}
    (same : ∀ row row' : Watermark, row.source = row'.source → row.target = row'.target →
      k row = k row')
    (h : ∀ row, (k row).Confined (id, .attestation) P) :
    (raiseEpochFloors id source target >>= k).Confined (id, .attestation) P := by
  have row : (liftM (watermark id) >>= k : Transaction β).Confined (id, .attestation) P := by
    refine confined_watermark_bind ?_ h
    intro row row' floors
    exact same row row' floors.1 floors.2
  unfold raiseEpochFloors
  simp only [bind_assoc]
  apply Confined.bind (confined_query (confined_requireRegistered _ id))
  intro _ _
  apply Confined.bind (confined_query (confined_epochFloors? id))
  intro floors _
  split
  · rw [bind_assoc]
    apply Confined.bind (confined_put (owner_floor id .attestation)
      ⟨_, LedgerValue.readEpochFloors_writeEpochFloors _ _⟩)
    intro _ _
    exact row
  · exact row

/-! ## Decisions -/

theorem confined_insertBlock (id : ValidatorId) (slot : Slot) (root : SigningRoot) :
    (insertBlock id slot root).Confined (id, .block) fun _ => True := by
  unfold insertBlock
  apply Confined.bind (confined_query (confined_requireRegistered _ id))
  intro _ _
  apply Confined.bind (confined_query (confined_blockAt? id slot))
  intro stored _
  cases stored with
  | none => exact confined_put (Place.lock?_record .block id slot) trivial
  | some existing =>
    show Transaction.Confined _ (if existing.root ≠ root then _ else _) _
    split
    · exact confined_throw _
    · exact confined_pure trivial

theorem confined_admitBlock (id : ValidatorId) (slot : Slot) (root : SigningRoot)
    (hasFloor : Bool) :
    (admitBlock id slot root hasFloor).Confined (id, .block) fun _ => True := by
  unfold admitBlock
  apply Confined.bind (confined_insertBlock id slot root)
  intro _ _
  cases hasFloor with
  | true => exact confined_pure trivial
  | false =>
    exact confined_raiseSlotFloor_bind 0 (fun _ _ _ => rfl) fun _ => confined_pure trivial

/-- Whether a block is denied depends on the slot floor alone. -/
theorem blockFloorDenial_congr {row row' : Option Watermark} (slot : Slot)
    (h : row.bind Watermark.slot = row'.bind Watermark.slot) :
    blockFloorDenial row slot = blockFloorDenial row' slot := by
  have hides : ∀ row : Option Watermark, (row.any fun w => w.hidesBlock slot) =
      Floor.isAbove (row.bind Watermark.slot) slot := by
    intro row
    cases row <;> rfl
  rw [blockFloorDenial, blockFloorDenial, hides, hides, h]

theorem voteFloorDenial_congr {row row' : Option Watermark} (vote : Vote)
    (hs : row.bind Watermark.source = row'.bind Watermark.source)
    (ht : row.bind Watermark.target = row'.bind Watermark.target) :
    voteFloorDenial row vote = voteFloorDenial row' vote := by
  have hides : ∀ row : Option Watermark,
      (row.any fun w => w.hidesAttestation vote.source vote.target) =
        (Floor.isAbove (row.bind Watermark.target) vote.target ||
          Floor.isAbove (row.bind Watermark.source) vote.source) := by
    intro row
    cases row <;> rfl
  rw [voteFloorDenial, voteFloorDenial, hides, hides, hs, ht]

theorem confined_decideBlock (id : ValidatorId) (slot : Slot) (root : SigningRoot) :
    (decideBlock id slot root).Confined (id, .block) fun _ => True := by
  unfold decideBlock
  apply confined_watermark?_bind
  · intro row row' floors
    have floors : row.bind Watermark.slot = row'.bind Watermark.slot := floors
    simp only [blockFloorDenial_congr slot floors, floors]
  · intro row
    split
    · exact confined_pure trivial
    · apply Confined.bind (confined_query (confined_blockAt? id slot))
      intro stored _
      cases stored with
      | some existing => exact confined_pure trivial
      | none => exact confined_admitBlock id slot root _

theorem confined_insertAttestation (id : ValidatorId) (vote : Vote) (root : SigningRoot) :
    (insertAttestation id vote root).Confined (id, .attestation) fun _ => True := by
  unfold insertAttestation
  apply Confined.bind (confined_query (confined_requireRegistered _ id))
  intro _ _
  show Transaction.Confined _ (if vote.target < vote.source then _ else _) _
  split
  · exact confined_throw _
  · apply Confined.bind (confined_query (confined_attestationAt? id vote.target))
    intro stored _
    cases stored with
    | none =>
      exact confined_put (Place.lock?_record .attestation id vote.target)
        ⟨_, _, LedgerValue.readAttestation_writeAttestation _ _⟩
    | some existing =>
      show Transaction.Confined _
        (if existing.root ≠ root ∨ existing.source ≠ vote.source then _ else _) _
      split
      · exact confined_throw _
      · exact confined_pure trivial

theorem confined_admitAttestation (id : ValidatorId) (vote : Vote) (root : SigningRoot)
    (hasFloor : Bool) :
    (admitAttestation id vote root hasFloor).Confined (id, .attestation) fun _ => True := by
  unfold admitAttestation
  apply Confined.bind (confined_insertAttestation id vote root)
  intro _ _
  cases hasFloor with
  | true => exact confined_pure trivial
  | false =>
    exact confined_raiseEpochFloors_bind 0 0 (fun _ _ _ _ => rfl) fun _ => confined_pure trivial

theorem confined_decideAttestation (id : ValidatorId) (vote : Vote) (root : SigningRoot) :
    (decideAttestation id vote root).Confined (id, .attestation) fun _ => True := by
  unfold decideAttestation
  apply confined_watermark?_bind
  · intro row row' floors
    obtain ⟨hs, ht⟩ := floors
    simp only [voteFloorDenial_congr vote hs ht, ht]
  · intro row
    split
    · exact confined_pure trivial
    · apply Confined.bind (confined_query (confined_attestationAt? id vote.target))
      intro stored _
      cases stored with
      | some existing => exact confined_pure trivial
      | none =>
        apply Confined.bind (confined_query (confined_surrounding id vote))
        intro outer _
        split
        · exact confined_pure trivial
        · apply Confined.bind (confined_query (confined_surrounded id vote))
          intro inner _
          split
          · exact confined_pure trivial
          · exact confined_admitAttestation id vote root _

/-! ## Prunes -/

theorem confined_raiseForBlocks (id : ValidatorId) (keep : UInt64) :
    (raiseForBlocks id keep).Confined (id, .block) fun _ => True := by
  unfold raiseForBlocks
  apply confined_watermark?_bind
  · intro row row' floors
    have floors : row.bind Watermark.slot = row'.bind Watermark.slot := floors
    simp only [floors]
  · intro row
    apply Confined.bind (confined_query (confined_newest? .block .block id))
    intro newest _
    split
    · exact confined_pure trivial
    · next mark _ =>
      apply confined_raiseSlotFloor_bind
      · intro row row' same
        simp only [same]
      · intro row
        exact confined_pure trivial

theorem confined_raiseForAttestations (id : ValidatorId) (keep : UInt64) :
    (raiseForAttestations id keep).Confined (id, .attestation) fun _ => True := by
  unfold raiseForAttestations
  apply confined_watermark?_bind
  · intro row row' floors
    obtain ⟨-, floors⟩ := floors
    simp only [floors]
  · intro row
    apply Confined.bind (confined_query (confined_newest? .attestation .attestation id))
    intro newest _
    split
    · exact confined_pure trivial
    · next mark _ =>
      apply confined_raiseEpochFloors_bind
      · intro row row' _ same
        simp only [same]
      · intro row
        exact confined_pure trivial

theorem confined_deleteWhileBelow {entries : List (Entry Bytes)}
    (indexed : Entries.Indexed kind.family id entries) (what : RecordKind) (bound : UInt64) :
    (deleteWhileBelow what bound entries).Confined (id, kind) fun _ => True := by
  induction entries with
  | nil => exact confined_pure trivial
  | cons entry rest ih =>
    obtain ⟨key, value⟩ := entry
    obtain ⟨⟨n, same⟩, others⟩ := List.forall_mem_cons.1 indexed
    have owns : LockName.Owns (id, kind) key :=
      ⟨.record kind id n, Place.lock?_record kind id n, same.trans (Place.bytes_record ..).symm⟩
    unfold deleteWhileBelow
    apply Confined.bind (confined_ofExcept (P := fun _ => True) fun _ _ => trivial)
    intro m _
    show Transaction.Confined _ (if bound ≤ m then _ else _) _
    split
    · exact confined_pure trivial
    · apply Confined.bind (confined_delete owns)
      intro _ _
      apply Confined.bind (ih others)
      intro _ _
      exact confined_pure trivial

theorem confined_deleteBelow (kind : DutyKind) (what : RecordKind) (id : ValidatorId)
    (bound : UInt64) :
    (deleteBelow kind.family what id bound).Confined (id, kind) fun _ => True := by
  unfold deleteBelow
  apply Confined.bind (confined_query (confined_entriesOf kind id))
  intro entries indexed
  exact confined_deleteWhileBelow indexed what bound

theorem confined_pruneBelow {raise : Transaction (Option UInt64)}
    {delete : UInt64 → Transaction Nat} (hr : raise.Confined lock fun _ => True)
    (hd : ∀ floor, (delete floor).Confined lock fun _ => True) :
    (pruneBelow raise delete).run.Confined lock fun _ => True := by
  unfold pruneBelow
  show Program.Confined lock _ (Program.bind (LedgerWork.atomically raise Option.isSome).run _)
  apply (LedgerWork.confined_atomically hr Option.isSome).bind
  intro r _
  match r with
  | .error e => trivial
  | .ok none => trivial
  | .ok (some floor) =>
    show Program.Confined lock _
      (Program.bind (LedgerWork.atomically (delete floor) fun _ => true).run _)
    apply (LedgerWork.confined_atomically (hd floor) fun _ => true).bind
    intro r _
    cases r with
    | ok deleted => trivial
    | error e => trivial

end Ledger

end SlashingGuard
