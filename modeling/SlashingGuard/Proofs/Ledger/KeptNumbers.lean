import SlashingGuard.Proofs.Ledger.Decision
import SlashingGuard.Proofs.Ledger.Held
import SlashingGuard.Proofs.Ledger.Leaving
import SlashingGuard.Proofs.Ledger.Numbering
import SlashingGuard.Proofs.Ledger.Pruning

/-! # Who writes numbers

    The numbers of keys and the counter behind them are written by
    registration alone, and registration only adds to them.  Neither rests on
    a ledger that can be read: a decision or a prune on any table whatever
    writes blocks, attestations and floors only, and a registration that meets
    something that it cannot read gives up and leaves the table as it was. -/

namespace SlashingGuard

/-! ## Numbers that are kept -/

/-- The second table has the numbers of keys and the counter of the first. -/
structure Table.KeepsNumbers (t t' : Table Bytes) : Prop where
  idOf : ∀ key, t'.get? (Place.idOf key).bytes = t.get? (Place.idOf key).bytes
  nextId : t'.get? Place.nextId.bytes = t.get? Place.nextId.bytes

/-- Whether a key is none of those under which numbers and the counter are kept. -/
structure Bytes.HoldsNoNumber (key : Bytes) : Prop where
  idOf : ∀ k, key ≠ (Place.idOf k).bytes
  nextId : key ≠ Place.nextId.bytes

theorem Place.holdsNoNumber (place : Place) (idOf : ∀ k, place ≠ .idOf k)
    (nextId : place ≠ .nextId) : Bytes.HoldsNoNumber place.bytes where
  idOf k same := idOf k (bytes_injective same)
  nextId same := nextId (bytes_injective same)

/-- Nothing under the scope of a validator's records holds a number. -/
theorem KeyFamily.holdsNoNumber_of_scope {family : KeyFamily} {id : ValidatorId} {key : Bytes}
    (keys : family ≠ .idByKey) (metadata : family ≠ .metadata)
    (h : (family.scope id).isPrefixOf key) : key.HoldsNoNumber where
  idOf k same := by
    rw [same, KeyFamily.scope, Place.isPrefixOf_tag_append] at h
    exact keys h.1.symm
  nextId same := by
    rw [same, KeyFamily.scope, Place.isPrefixOf_tag_append] at h
    exact metadata h.1.symm

namespace Table

variable {t t' t'' : Table Bytes}

namespace KeepsNumbers

theorem refl (t : Table Bytes) : t.KeepsNumbers t := ⟨fun _ => rfl, rfl⟩

theorem trans (h : t.KeepsNumbers t') (h' : t'.KeepsNumbers t'') : t.KeepsNumbers t'' :=
  ⟨fun key => (h'.idOf key).trans (h.idOf key), h'.nextId.trans h.nextId⟩

theorem apply (t : Table Bytes) {c : Change} (h : c.key.HoldsNoNumber) :
    t.KeepsNumbers (c.apply t) where
  idOf key := by rw [Change.get?_apply, if_neg (h.idOf key)]
  nextId := by rw [Change.get?_apply, if_neg h.nextId]

theorem registry_idOf (h : t.KeepsNumbers t') (key : PublicKey) :
    t'.registry.idOf key = t.registry.idOf key := by
  simp only [registry, readAt, h.idOf]

end KeepsNumbers

end Table

/-! ## Transactions that keep numbers -/

namespace Transaction

variable {α β : Type}

/-- Whatever table the transaction sees and whatever fails, numbers and the counter stay. -/
def KeepsNumbers (tx : Transaction α) : Prop :=
  ∀ (faulty : Prop) (v : Table Bytes),
    Always faulty tx v (fun _ v' => v.KeepsNumbers v') fun _ _ => True

theorem keepsNumbers_pure (a : α) : KeepsNumbers (pure a) := fun _ v => always_pure (.refl v)

theorem keepsNumbers_throw (e : LedgerError) : KeepsNumbers (throw e : Transaction α) :=
  fun _ _ => always_throw trivial

theorem keepsNumbers_ofExcept (r : Except LedgerError α) : (ofExcept r).KeepsNumbers :=
  fun _ v => always_ofExcept (fun _ _ => .refl v) fun _ _ => trivial

theorem keepsNumbers_put {key : Bytes} (spared : key.HoldsNoNumber) (value : Bytes) :
    (put key value).KeepsNumbers :=
  fun _ v => always_put (.apply v (c := .put key value) spared)

theorem keepsNumbers_delete {key : Bytes} (spared : key.HoldsNoNumber) :
    (delete key).KeepsNumbers :=
  fun _ v => always_delete (.apply v (c := .delete key) spared)

theorem KeepsNumbers.bind {tx : Transaction α} {k : α → Transaction β} (h : tx.KeepsNumbers)
    (hk : ∀ a, (k a).KeepsNumbers) : (tx >>= k).KeepsNumbers := by
  intro faulty v
  refine Always.bind ((h faulty v).mono (fun a v' first => ?_) fun _ _ _ => trivial)
  exact (hk a faulty v').mono (fun _ _ next => first.trans next) fun _ _ _ => trivial

end Transaction

/-- A query writes nothing. -/
theorem Query.ReadOnly.keepsNumbers {α : Type} {q : Query α} (h : q.ReadOnly) :
    (liftM q : Transaction α).KeepsNumbers := by
  intro faulty v t p seen
  show Program.Always faulty (Program.bind (q p).run _) t _
  rw [Program.always_bind]
  refine (h faulty t p).mono ?_
  intro r t' same
  refine ⟨same, ?_⟩
  cases r with
  | error e => trivial
  | ok a => exact seen ▸ .refl v

/-! ## Decisions and prunes -/

namespace Ledger

open Transaction

variable {faulty : Prop} {t v : Table Bytes}

theorem keepsNumbers_record {α : Type} (key : Bytes) (read : Bytes → Except LedgerError α) :
    (liftM (Query.record key read) : Transaction (Option α)).KeepsNumbers :=
  (Query.readOnly_record key read).keepsNumbers

theorem keepsNumbers_insertBlock (id : ValidatorId) (slot : Slot) (root : SigningRoot) :
    (insertBlock id slot root).KeepsNumbers := by
  refine (readOnly_requireRegistered id).keepsNumbers.bind fun _ => ?_
  refine (keepsNumbers_record _ _).bind fun existing => ?_
  split
  · split
    · exact keepsNumbers_throw _
    · exact keepsNumbers_pure ()
  · exact keepsNumbers_put (Place.holdsNoNumber (.block id slot) nofun nofun) _

theorem keepsNumbers_insertAttestation (id : ValidatorId) (vote : Vote) (root : SigningRoot) :
    (insertAttestation id vote root).KeepsNumbers := by
  refine (readOnly_requireRegistered id).keepsNumbers.bind fun _ => ?_
  split
  · exact keepsNumbers_throw _
  · refine (keepsNumbers_record _ _).bind fun existing => ?_
    split
    · split
      · exact keepsNumbers_throw _
      · exact keepsNumbers_pure ()
    · exact keepsNumbers_put (Place.holdsNoNumber (.attestation id vote.target) nofun nofun) _

/-- A floor of either kind is raised without a number in the way. -/
theorem keepsNumbers_raising {α : Type} (id : ValidatorId) (kind : DutyKind)
    (read : Bytes → Except LedgerError α) (moves : Option α → Bool) (value : Option α → Bytes) :
    (raising id (.floor id kind) read moves value).KeepsNumbers := by
  refine (readOnly_requireRegistered id).keepsNumbers.bind fun _ => ?_
  refine (keepsNumbers_record _ _).bind fun floor => ?_
  have row : (liftM (watermark id) : Transaction Watermark).KeepsNumbers :=
    (readOnly_watermark id).keepsNumbers
  split
  · exact (keepsNumbers_put (Place.holdsNoNumber (.floor id kind) nofun nofun) _).bind fun _ => row
  · exact row

theorem keepsNumbers_raiseSlotFloor (id : ValidatorId) (slot : Slot) :
    (raiseSlotFloor id slot).KeepsNumbers := by
  rw [raiseSlotFloor_eq]
  exact keepsNumbers_raising id .block _ _ _

theorem keepsNumbers_raiseEpochFloors (id : ValidatorId) (source target : Epoch) :
    (raiseEpochFloors id source target).KeepsNumbers := by
  rw [raiseEpochFloors_eq]
  exact keepsNumbers_raising id .attestation _ _ _

theorem keepsNumbers_decideBlock (id : ValidatorId) (slot : Slot) (root : SigningRoot) :
    (decideBlock id slot root).KeepsNumbers := by
  refine (readOnly_watermark? id).keepsNumbers.bind fun row => ?_
  split
  · exact keepsNumbers_pure _
  · refine (keepsNumbers_record _ _).bind fun existing => ?_
    split
    · exact keepsNumbers_pure _
    · refine (keepsNumbers_insertBlock id slot root).bind fun _ => ?_
      split
      · exact keepsNumbers_pure _
      · exact (keepsNumbers_raiseSlotFloor id 0).bind fun _ => keepsNumbers_pure _

theorem keepsNumbers_decideAttestation (id : ValidatorId) (vote : Vote) (root : SigningRoot) :
    (decideAttestation id vote root).KeepsNumbers := by
  have picked (keep : SignedAttestation → Bool) : Query.ReadOnly
      (attestations id >>= fun all => pure (all.filter keep)) :=
    (readOnly_attestations id).bind fun _ => Query.readOnly_pure _
  refine (readOnly_watermark? id).keepsNumbers.bind fun row => ?_
  split
  · exact keepsNumbers_pure _
  · refine (keepsNumbers_record _ _).bind fun existing => ?_
    split
    · exact keepsNumbers_pure _
    · refine (picked _).keepsNumbers.bind fun surrounding => ?_
      split
      · exact keepsNumbers_pure _
      · refine (picked _).keepsNumbers.bind fun surrounded => ?_
        split
        · exact keepsNumbers_pure _
        · refine (keepsNumbers_insertAttestation id vote root).bind fun _ => ?_
          split
          · exact keepsNumbers_pure _
          · exact (keepsNumbers_raiseEpochFloors id 0 0).bind fun _ => keepsNumbers_pure _

theorem keepsNumbers_raiseForBlocks (id : ValidatorId) (keep : UInt64) :
    (raiseForBlocks id keep).KeepsNumbers := by
  refine (readOnly_watermark? id).keepsNumbers.bind fun row => ?_
  refine (readOnly_newest? _ _ id).keepsNumbers.bind fun newest => ?_
  split
  · exact keepsNumbers_pure none
  · exact (keepsNumbers_raiseSlotFloor id _).bind fun _ => keepsNumbers_pure _

theorem keepsNumbers_raiseForAttestations (id : ValidatorId) (keep : UInt64) :
    (raiseForAttestations id keep).KeepsNumbers := by
  refine (readOnly_watermark? id).keepsNumbers.bind fun row => ?_
  refine (readOnly_newest? _ _ id).keepsNumbers.bind fun newest => ?_
  split
  · exact keepsNumbers_pure none
  · exact (keepsNumbers_raiseEpochFloors id _ _).bind fun _ => keepsNumbers_pure _

/-- The keys that a prune deletes come from a scan of records, whatever else is under it. -/
theorem keepsNumbers_deleteWhileBelow {entries : List (Entry Bytes)}
    (h : ∀ entry ∈ entries, Bytes.HoldsNoNumber entry.1) (what : RecordKind) (bound : UInt64) :
    (deleteWhileBelow what bound entries).KeepsNumbers := by
  induction entries with
  | nil => exact keepsNumbers_pure 0
  | cons entry rest ih =>
    obtain ⟨first, others⟩ := List.forall_mem_cons.1 h
    refine (keepsNumbers_ofExcept _).bind fun index => ?_
    split
    · exact keepsNumbers_pure 0
    · refine (keepsNumbers_delete first).bind fun _ => ?_
      exact (ih others).bind fun more => keepsNumbers_pure (more + 1)

theorem keepsNumbers_deleteBelow (family : KeyFamily) (keys : family ≠ .idByKey)
    (metadata : family ≠ .metadata) (what : RecordKind) (id : ValidatorId) (bound : UInt64) :
    (deleteBelow family what id bound).KeepsNumbers := by
  intro faulty v
  refine Always.query_bind (Query.yields_scan _) (fun _ _ => trivial) ?_
  refine keepsNumbers_deleteWhileBelow (fun entry member => ?_) what bound faulty v
  exact KeyFamily.holdsNoNumber_of_scope keys metadata (Table.mem_scan.1 member).2

/-- What such a transaction commits has the numbers that were there. -/
theorem keepsNumbers_atomically {α : Type} {tx : Transaction α} (h : tx.KeepsNumbers)
    (keep : α → Bool) :
    (LedgerWork.atomically tx keep).run.Always faulty t fun _ t' => t.KeepsNumbers t' := by
  refine LedgerWork.always_atomically ?_
  refine (h faulty t).mono (fun a v' kept => ?_) fun _ _ _ => .refl t
  split
  · exact ⟨kept, fun _ _ => .refl t⟩
  · exact .refl t

theorem keepsNumbers_pruneBelow {raise : Transaction (Option UInt64)}
    {delete : UInt64 → Transaction Nat} (hraise : raise.KeepsNumbers)
    (hdelete : ∀ bound, (delete bound).KeepsNumbers) :
    (pruneBelow raise delete).run.Always faulty t fun _ t' => t.KeepsNumbers t' := by
  unfold pruneBelow
  rw [LedgerWork.always_bind]
  refine (keepsNumbers_atomically hraise Option.isSome).mono fun r t' raised => ?_
  match r with
  | .error e => exact raised
  | .ok none => exact raised
  | .ok (some floor) =>
    -- The deletions are a transaction of their own, behind the floors that are committed.
    refine LedgerWork.always_bind.2 ?_
    refine (keepsNumbers_atomically (hdelete floor) fun _ => true).mono fun r t'' deleted => ?_
    cases r with
    | error e => exact raised.trans deleted
    | ok count => exact raised.trans deleted

theorem keepsNumbers_pruneBlocks (id : ValidatorId) (keep : UInt64) :
    (pruneBlocks id keep).run.Always faulty t fun _ t' => t.KeepsNumbers t' :=
  keepsNumbers_pruneBelow (keepsNumbers_raiseForBlocks id keep) fun bound =>
    keepsNumbers_deleteBelow .block nofun nofun .block id bound

theorem keepsNumbers_pruneAttestations (id : ValidatorId) (keep : UInt64) :
    (pruneAttestations id keep).run.Always faulty t fun _ t' => t.KeepsNumbers t' :=
  keepsNumbers_pruneBelow (keepsNumbers_raiseForAttestations id keep) fun bound =>
    keepsNumbers_deleteBelow .attestation nofun nofun .attestation id bound

/-! ## Registration on any table -/

/-- A record at a place is what stands there, or it cannot be read. -/
theorem yields_record_or {α : Type} (v : Table Bytes) (place : Place)
    (read : Bytes → Except LedgerError α) :
    (Query.record place.bytes read).Yields v (.ok (v.readAt place read)) ∨
      ∃ e, (Query.record place.bytes read).Yields v (.error e) := by
  have yields := Query.yields_record (v := v) place.bytes read
  simp only [Table.readAt]
  cases found : v.get? place.bytes with
  | none =>
    rw [found] at yields
    exact .inl yields
  | some value =>
    rw [found] at yields
    cases result : read value with
    | ok a =>
      simp only [result, Except.map] at yields
      exact .inl (by simpa [result, Except.toOption] using yields)
    | error e =>
      simp only [result, Except.map] at yields
      exact .inr ⟨e, yields⟩

theorem yields_nextId_or (v : Table Bytes) :
    nextId.Yields v (.ok v.registry.next) ∨ ∃ e, nextId.Yields v (.error e) := by
  rcases yields_record_or v .nextId (LedgerKey.readWord .nextId) with stored | ⟨e, unreadable⟩
  · exact .inl (stored.bind (Query.yields_pure _))
  · exact .inr ⟨e, unreadable.bind_error⟩

/-- What follows a query that may not be able to read what is there. -/
theorem always_query_bind_or {α β : Type} {q : Query α} {k : α → Transaction β} {a : α}
    {Q : β → Table Bytes → Prop} {E : LedgerError → Table Bytes → Prop}
    (hq : q.Yields v (.ok a) ∨ ∃ e, q.Yields v (.error e)) (error : ∀ e, E e v)
    (next : Transaction.Always faulty (k a) v Q E) :
    Transaction.Always faulty (liftM q >>= k) v Q E := by
  rcases hq with ok | ⟨e, failed⟩
  · exact Always.query_bind ok (fun _ x => error (.store x)) next
  · exact Always.query_bind_error failed (fun _ x => error (.store x)) (error e)

/-- On any table, registration gives keys their numbers, or it ends in an error. -/
theorem always_registerFrom_or (next : UInt64) (keys : List PublicKey)
    {Q : List ValidatorId × UInt64 → Table Bytes → Prop}
    (h : Q (v.enrollFrom next keys).2 (v.enrollFrom next keys).1) :
    Transaction.Always faulty (registerFrom next keys) v Q fun _ _ => True := by
  induction keys generalizing v next Q with
  | nil => exact always_pure h
  | cons key rest ih =>
    have answer : (idOf? key).Yields v (.ok (v.registry.idOf key)) ∨
        ∃ e, (idOf? key).Yields v (.error e) := yields_record_or v (.idOf key) _
    unfold registerFrom
    refine always_query_bind_or answer (fun _ => trivial) ?_
    cases known : v.registry.idOf key with
    | some id =>
      rw [Table.enrollFrom_cons_known known] at h
      exact Always.bind (ih next (always_pure h))
    | none =>
      -- The rest of the keys is registered on the table that has this one already.
      rw [Table.enrollFrom_cons_new known] at h
      refine Always.bind (always_put (Always.bind (always_put (Always.bind ?_))))
      exact ih (v := v.enroll key next) (next + 1) (always_pure h)

/-- On any table, registration registers all keys, or it fails and changes nothing. -/
theorem always_registerAll_or (keys : List PublicKey)
    {Q : Except LedgerError (List ValidatorId) → Table Bytes → Prop}
    (done : Q (.ok (t.registerKeys keys).2) (t.registerKeys keys).1)
    (failed : ∀ e, Q (.error e) t) : (registerAll keys).run.Always faulty t Q := by
  refine LedgerWork.always_atomically ?_
  refine always_query_bind_or (yields_nextId_or t) failed ?_
  refine Always.bind (Always.mono (E := fun _ _ => True) ?_ (fun _ _ h => h) fun e _ _ => failed e)
  refine always_query_bind_or (yields_nextId_or t) (fun _ => trivial) ?_
  refine Always.bind (always_registerFrom_or t.registry.next keys ?_)
  refine Always.bind (always_put (always_pure ?_))
  refine always_query_bind_or (yields_nextId_or _) failed (always_pure ⟨done, ?_⟩)
  exact fun _ x => failed (.store x)

/-! ## Registering again on any table -/

/-- Keys that all have numbers are given them again, and nothing is written. -/
theorem always_registerFrom_known (next : UInt64) {keys : List PublicKey}
    (known : ∀ key ∈ keys, (v.registry.idOf key).isSome)
    {Q : List ValidatorId × UInt64 → Table Bytes → Prop} {E : LedgerError → Table Bytes → Prop}
    (h : Q (v.enrollFrom next keys).2 v) (fault : faulty → ∀ x, E (.store x) v) :
    Transaction.Always faulty (registerFrom next keys) v Q E := by
  induction keys generalizing Q with
  | nil => exact always_pure h
  | cons key rest ih =>
    obtain ⟨first, others⟩ := List.forall_mem_cons.1 known
    obtain ⟨id, hid⟩ := Option.isSome_iff_exists.1 first
    -- Of a table that may hold anything, this much can be read: the key has a number.
    have readable : (idOf? key).Yields v (.ok (v.registry.idOf key)) := by
      refine yields_record (.idOf key) _ fun value found => ?_
      obtain ⟨value', found', read⟩ := Option.bind_eq_some_iff.1 hid
      obtain rfl : value = value' := Option.some.inj (found.symm.trans found')
      cases result : (LedgerKey.readWord .validator value).map ValidatorId.mk with
      | ok id => exact ⟨id, rfl⟩
      | error e =>
        dsimp only at read
        rw [result] at read
        contradiction
    rw [Table.enrollFrom_cons_known hid] at h
    unfold registerFrom
    refine Always.query_bind readable fault ?_
    rw [hid]
    exact Always.bind (ih others (always_pure h))

/-- Where the counter is stored, they are registered again and the table stays as it is. -/
theorem always_registerAll_known {n : UInt64} {keys : List PublicKey}
    (known : ∀ key ∈ keys, (t.registry.idOf key).isSome)
    (stored : t.get? Place.nextId.bytes = some (Bytes.ofWord n))
    {Q : Except LedgerError (List ValidatorId) → Table Bytes → Prop}
    (done : Q (.ok (t.registerKeys keys).2) t) (fault : faulty → ∀ x, Q (.error (.store x)) t) :
    (registerAll keys).run.Always faulty t Q := by
  have counter : nextId.Yields t (.ok t.registry.next) := by
    have record : (Query.record LedgerKey.nextId (LedgerKey.readWord .nextId)).Yields t
        (.ok (t.readAt .nextId (LedgerKey.readWord .nextId))) := by
      refine yields_record .nextId _ fun value found => ⟨n, ?_⟩
      rw [Option.some.inj (found.symm.trans stored)]
      exact LedgerKey.readWord_ofWord .nextId n
    exact record.bind (Query.yields_pure _)
  -- The counter is put back as it was, so the table that is seen then is the one that was.
  have same : t.setNext (t.enrollFrom t.registry.next keys).2.2 = t := by
    have registered : (t.registerKeys keys).1 = t := Table.registerKeys_counted known stored
    have table : (t.registerKeys keys).1 = (t.enrollFrom t.registry.next keys).1.setNext
        (t.enrollFrom t.registry.next keys).2.2 := rfl
    rwa [table, (Table.enrollFrom_known t.registry.next known).1] at registered
  refine LedgerWork.always_atomically (Always.query_bind counter fault ?_)
  refine Always.bind (Always.query_bind counter fault ?_)
  refine Always.bind (always_registerFrom_known t.registry.next known ?_ fault)
  refine Always.bind (always_put (always_pure ?_))
  show Transaction.Always faulty _ (t.setNext _) _ _
  rw [same]
  exact Always.query_bind counter fault (always_pure ⟨done, fault⟩)

end Ledger

end SlashingGuard
