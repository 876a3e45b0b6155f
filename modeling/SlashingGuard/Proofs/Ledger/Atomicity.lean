import SlashingGuard.Ledger.Decision
import SlashingGuard.Proofs.Ledger.Place
import SlashingGuard.Proofs.Ledger.Transaction
import SlashingGuard.Proofs.Store.Exchange

/-! # Decisions are atomic on any ledger

    A decision is one transaction, and nothing that a transaction reads has to
    be sound for it to be atomic: keys may be strange, values unreadable, and
    any call may fail.  The first call that fails ends the decision with its
    fault.  What is denied or fails writes nothing, and what is permitted
    writes one batch, which puts values only at keys that held none: the record
    of the duty, and the floor of its kind. -/

namespace SlashingGuard

variable {α β : Type}

/-! ## Queries -/

namespace Query

/-- Where a query sees the table `v` it stops at a call that fails, with the fault; if no call
    fails, a value that it gives is as `P` says.  It writes nothing. -/
def Strict (q : Query α) (v : Table Bytes) (P : α → Prop) : Prop :=
  ∀ (t : Table Bytes) (p : Pending), t.overlaid p = v →
    (q p).run.Strict (fun x r t' => r = .error (.store x) ∧ t' = t)
      (fun r t' => t' = t ∧ ∀ a, r = .ok a → P a) 0 t

variable {v : Table Bytes} {P : α → Prop}

theorem strict_pure {a : α} (h : P a) : Strict (pure a) v P := by
  intro t p _
  refine ⟨rfl, fun b hb => ?_⟩
  obtain rfl := Except.ok.inj hb
  exact h

theorem strict_throw (e : LedgerError) : Strict (throw e) v P :=
  fun _ _ _ => ⟨rfl, fun _ hb => by contradiction⟩

theorem strict_ofExcept {r : Except LedgerError α} (h : ∀ a, r = .ok a → P a) :
    (ofExcept r).Strict v P := by
  intro t p _
  cases r with
  | ok a => exact ⟨rfl, fun b hb => h b hb⟩
  | error e => exact ⟨rfl, fun _ hb => by contradiction⟩

theorem Strict.bind {q : Query α} {k : α → Query β} {P' : β → Prop} (hq : q.Strict v P)
    (hk : ∀ a, P a → (k a).Strict v P') : (q >>= k).Strict v P' := by
  intro t p hv
  show Program.Strict _ _ (Program.bind (q p).run _) (0 + 0) t
  refine Program.Strict.bind ((hq t p hv).mono (Nat.le_refl 0) fun r t' post => ?_) ?_
  · obtain ⟨rfl, value⟩ := post
    cases r with
    | ok a => exact hk a (value a rfl) t' p hv
    | error e => exact ⟨rfl, fun _ hb => by contradiction⟩
  · rintro x r t' ⟨rfl, same⟩
    exact ⟨_, rfl, rfl, same⟩

theorem strict_get (key : Bytes) : (get key).Strict v fun value => value = v.get? key := by
  intro t p hv
  rw [← hv, Table.get?_overlaid]
  unfold get
  split
  · next pending hp =>
    exact ⟨rfl, fun value hvalue => by rw [hp]; exact (Except.ok.inj hvalue).symm⟩
  · next hp =>
    refine ⟨nofun, fun x => ⟨_, rfl, rfl, rfl⟩, rfl, fun value hvalue => ?_⟩
    rw [hp]
    exact (Except.ok.inj hvalue).symm

theorem strict_contains (key : Bytes) : (contains key).Strict v fun _ => True := by
  intro t p _
  unfold contains
  split
  · exact ⟨rfl, fun _ _ => trivial⟩
  · exact ⟨nofun, fun x => ⟨_, rfl, rfl, rfl⟩, rfl, fun _ _ => trivial⟩

theorem strict_scan (scope : Bytes) : (scan scope).Strict v fun _ => True :=
  fun _ _ _ => ⟨nofun, fun _ => ⟨_, rfl, rfl, rfl⟩, rfl, fun _ _ => trivial⟩

/-- A record that is given is there. -/
theorem strict_record (key : Bytes) (read : Bytes → Except LedgerError α) :
    (record key read).Strict v fun found => found.isSome = v.contains key := by
  refine (strict_get key).bind fun value same => ?_
  rw [Table.contains, ← same]
  cases value with
  | none => exact strict_pure rfl
  | some bytes =>
    exact (strict_ofExcept (P := fun _ => True) fun _ _ => trivial).bind fun a _ =>
      strict_pure rfl

end Query

/-! ## Transactions -/

namespace Transaction

/-- Where a transaction sees the table `v` it stops at a call that fails, with the fault; if no
    call fails, a value and the table seen then are as `Q` says.  It writes nothing. -/
def Strict (tx : Transaction α) (v : Table Bytes) (Q : α → Table Bytes → Prop) : Prop :=
  ∀ (t : Table Bytes) (p : Pending), t.overlaid p = v →
    (tx.run.run p).Strict (fun x r t' => r.1 = .error (.store x) ∧ t' = t)
      (fun r t' => t' = t ∧ ∀ a, r.1 = .ok a → Q a (t.overlaid r.2)) 0 t

variable {v : Table Bytes} {Q : β → Table Bytes → Prop}

theorem strict_pure {b : β} (h : Q b v) : Strict (pure b) v Q := by
  intro t p hv
  refine ⟨rfl, fun a ha => ?_⟩
  obtain rfl := Except.ok.inj ha
  exact hv ▸ h

theorem strict_throw (e : LedgerError) : Strict (throw e : Transaction β) v Q :=
  fun _ _ _ => ⟨rfl, fun _ hb => by contradiction⟩

theorem Strict.bind {tx : Transaction α} {k : α → Transaction β}
    (h : tx.Strict v fun a v' => (k a).Strict v' Q) : Strict (tx >>= k) v Q := by
  intro t p hv
  show Program.Strict _ _ (Program.bind (tx.run.run p) _) (0 + 0) t
  refine Program.Strict.bind ((h t p hv).mono (Nat.le_refl 0) fun r t' post => ?_) ?_
  · obtain ⟨r, p'⟩ := r
    obtain ⟨rfl, value⟩ := post
    cases r with
    | ok a => exact value a rfl t' p' rfl
    | error e => exact ⟨rfl, fun _ hb => by contradiction⟩
  · rintro x ⟨r, p'⟩ t' ⟨stopped, same⟩
    obtain rfl : r = .error (.store x) := stopped
    exact ⟨_, rfl, rfl, same⟩

theorem Strict.mono {tx : Transaction β} {Q' : β → Table Bytes → Prop} (h : tx.Strict v Q)
    (imp : ∀ b v', Q b v' → Q' b v') : tx.Strict v Q' :=
  fun t p hv => (h t p hv).mono (Nat.le_refl 0) fun _ _ ⟨same, value⟩ =>
    ⟨same, fun b hb => imp b _ (value b hb)⟩

theorem strict_query {q : Query β} {P : β → Prop} (hq : q.Strict v P)
    (h : ∀ b, P b → Q b v) : Strict (liftM q : Transaction β) v Q := by
  intro t p hv
  show Program.Strict _ _ (Program.bind (q p).run _) (0 + 0) t
  refine Program.Strict.bind ((hq t p hv).mono (Nat.le_refl 0) fun r t' post => ?_) ?_
  · obtain ⟨rfl, value⟩ := post
    exact ⟨rfl, fun b hb => hv ▸ h b (value b hb)⟩
  · rintro x r t' ⟨rfl, same⟩
    exact ⟨_, rfl, rfl, same⟩

/-- A query, and what follows it. -/
theorem Strict.query_bind {q : Query α} {P : α → Prop} {k : α → Transaction β}
    (hq : q.Strict v P) (next : ∀ a, P a → (k a).Strict v Q) : Strict (liftM q >>= k) v Q :=
  Strict.bind (strict_query hq next)

/-- A record that is not there is not found, whatever it would be read as. -/
theorem Strict.absent_bind {place : Place} (absent : v.contains place.bytes = false)
    {read : Bytes → Except LedgerError α} {k : Option α → Transaction β}
    (next : (k none).Strict v Q) : Strict (liftM (Query.record place.bytes read) >>= k) v Q := by
  apply Strict.query_bind (Query.strict_record place.bytes read)
  intro found there
  have none_found : found = none := by simpa [absent] using there
  rw [none_found]
  exact next

theorem strict_put {key value : Bytes} {Q : Unit → Table Bytes → Prop}
    (h : Q () (v.insert key value)) : Strict (put key value) v Q := by
  intro t p hv
  subst hv
  refine ⟨rfl, fun _ _ => ?_⟩
  simpa using h

end Transaction

/-! ## Commits -/

namespace LedgerWork

variable {t : Table Bytes}

/-- Before it is committed a transaction writes nothing. -/
theorem strict_start {tx : Transaction α} {Q : α → Table Bytes → Prop} (h : tx.Strict t Q) :
    tx.start.run.Strict (fun x r t' => r = .error (.store x) ∧ t' = t)
      (fun r t' => t' = t ∧ ∀ a p, r = .ok (a, p) → Q a (t.overlaid p)) 0 t := by
  show Program.Strict _ _ (Program.bind (tx.run.run Table.empty) _) (0 + 0) t
  refine Program.Strict.bind ((h t Table.empty rfl).mono (Nat.le_refl 0) fun r t' post => ?_) ?_
  · obtain ⟨r, p⟩ := r
    obtain ⟨same, value⟩ := post
    refine ⟨same, fun a p' ha => ?_⟩
    cases r with
    | ok b =>
      obtain ⟨rfl, rfl⟩ := Prod.mk.inj (Except.ok.inj ha)
      exact value b rfl
    | error e => contradiction
  · rintro x ⟨r, p⟩ t' ⟨stopped, same⟩
    obtain rfl : r = .error (.store x) := stopped
    exact ⟨_, rfl, rfl, same⟩

/-- Committing is one call, or none where nothing is pending. -/
theorem commits_commit (p : Pending) (a : α) :
    (commit p >>= fun _ => pure a : LedgerWork α).run.Commits (fun x r => r = .error (.store x))
      (fun r => r = .ok a ∧ t.overlaid p = t) (fun r t' => r = .ok a ∧ t' = t.overlaid p) t := by
  unfold commit
  split
  · next none =>
    obtain ⟨entries, _⟩ := p
    obtain rfl : entries = [] := by simpa [Table.isEmpty] using none
    exact ⟨rfl, rfl⟩
  · exact ⟨fun x => ⟨_, rfl, rfl⟩, _, rfl, rfl, rfl⟩

/-- A transaction that is committed if its value is one to keep: a call that fails ends it with the
    fault, and there is one writing call at most, which is the last call of all. -/
theorem commits_atomically {tx : Transaction α} {keep : α → Bool} {Q : α → Table Bytes → Prop}
    (h : tx.Strict t Q) :
    (atomically tx keep).run.Commits (fun x r => r = .error (.store x))
      (fun r => ∀ a, r = .ok a → keep a → Q a t) (fun r t' => ∃ a, r = .ok a ∧ keep a ∧ Q a t')
      t := by
  show Program.Commits _ _ _ _ (Program.bind tx.start.run _)
  refine ((strict_start h).mono (Nat.le_refl 0) fun r t' post => ?_).bind_commits ?_
  · obtain ⟨rfl, value⟩ := post
    cases r with
    | error e => exact fun a ha => by contradiction
    | ok result =>
      obtain ⟨a, p⟩ := result
      have post := value a p rfl
      show Program.Commits _ _ _ _
        (ExceptT.run (if keep a then commit p >>= fun _ => pure a else pure a))
      by_cases kept : keep a
      · rw [if_pos kept]
        refine (commits_commit p a).mono (fun r unwritten b hb _ => ?_) fun r t' written => ?_
        · obtain ⟨rfl, same⟩ := unwritten
          obtain rfl := Except.ok.inj hb
          exact same ▸ post
        · obtain ⟨rfl, rfl⟩ := written
          exact ⟨a, rfl, kept, post⟩
      · rw [if_neg kept]
        intro b hb kept'
        obtain rfl := Except.ok.inj hb
        exact absurd kept' kept
  · rintro x r ⟨rfl, -⟩
    exact ⟨_, rfl, rfl⟩

/-- After any error, and after a value that is not one to keep, the table is the one that the
    transaction started from. -/
theorem strict_atomically {tx : Transaction α} {keep : α → Bool} {Q : α → Table Bytes → Prop}
    (h : tx.Strict t Q) :
    (atomically tx keep).run.Strict (fun x r t' => r = .error (.store x) ∧ t' = t)
      (fun r t' => match r with
        | .ok a => if keep a then Q a t' else t' = t
        | .error _ => t' = t) 1 t := by
  refine (commits_atomically h).strict.mono (Nat.le_refl 1) fun r t' post => ?_
  cases r with
  | error e =>
    rcases post with ⟨-, same⟩ | ⟨a, ha, -⟩
    · exact same
    · contradiction
  | ok a =>
    rcases post with ⟨read, rfl⟩ | ⟨b, hb, kept, written⟩
    · dsimp only
      split
      · next kept => exact read a rfl kept
      · rfl
    · obtain rfl := Except.ok.inj hb
      dsimp only
      rw [if_pos kept]
      exact written

end LedgerWork

/-! ## What a permit writes -/

/-- The table `t'` is `t` with a value at the place of a record, which may have been there before.
    Keys that held values hold them still, and at most the record and a floor are new. -/
structure Table.Recorded (t t' : Table Bytes) (record floor : Place) : Prop where
  there : t'.contains record.bytes
  changed : ∀ key, t'.get? key = t.get? key ∨
    t.get? key = none ∧ (key = record.bytes ∨ key = floor.bytes)

namespace Table

variable {t t' : Table Bytes} {record floor : Place}

theorem recorded_self (there : t.contains record.bytes) : t.Recorded t record floor :=
  ⟨there, fun _ => .inl rfl⟩

theorem recorded_insert (absent : t.contains record.bytes = false) (value : Bytes) :
    t.Recorded (t.insert record.bytes value) record floor where
  there := by simp [contains]
  changed key := by
    by_cases same : record.bytes = key
    · subst same
      exact .inr ⟨by simpa [contains] using absent, .inl rfl⟩
    · exact .inl (by simp [same])

theorem Recorded.kept (h : t.Recorded t' record floor) {key value : Bytes}
    (found : t.get? key = some value) : t'.get? key = some value := by
  rcases h.changed key with same | ⟨absent, -⟩
  · rw [same, found]
  · rw [found] at absent
    contradiction

/-- A place that is neither the record nor the floor is not touched. -/
theorem Recorded.other (h : t.Recorded t' record floor) {place : Place} (ne : place ≠ record)
    (ne' : place ≠ floor) : t'.get? place.bytes = t.get? place.bytes := by
  rcases h.changed place.bytes with same | ⟨-, at_record | at_floor⟩
  · exact same
  · exact absurd (Place.bytes_injective at_record) ne
  · exact absurd (Place.bytes_injective at_floor) ne'

theorem Recorded.insert (h : t.Recorded t' record floor) (absent : t.contains floor.bytes = false)
    (value : Bytes) : t.Recorded (t'.insert floor.bytes value) record floor where
  there := by
    have there := h.there
    rw [contains] at there ⊢
    rw [get?_insert]
    split
    · rfl
    · exact there
  changed key := by
    by_cases same : floor.bytes = key
    · subst same
      exact .inr ⟨by simpa [contains] using absent, .inr rfl⟩
    · simpa [same] using h.changed key

end Table

namespace Ledger

open Transaction

variable {v : Table Bytes} {id : ValidatorId}

/-! ## Reading -/

theorem strict_requireRegistered (id : ValidatorId) :
    (requireRegistered id).Strict v fun _ => True := by
  refine (Query.strict_contains _).bind fun registered _ => ?_
  cases registered with
  | true => exact Query.strict_pure trivial
  | false => exact Query.strict_throw _

/-- A row says which floors are there. -/
theorem strict_watermark? (id : ValidatorId) :
    (watermark? id).Strict v fun row =>
      (row.bind Watermark.slot).isSome = v.contains (Place.floor id .block).bytes ∧
        (row.bind Watermark.target).isSome = v.contains (Place.floor id .attestation).bytes := by
  refine (Query.strict_record _ _).bind fun slot hslot =>
    (Query.strict_record _ _).bind fun epochs hepochs => ?_
  have slot_there : slot.isSome = v.contains (Place.floor id .block).bytes := hslot
  have epochs_there : epochs.isSome = v.contains (Place.floor id .attestation).bytes := hepochs
  rw [← slot_there, ← epochs_there]
  cases slot <;> cases epochs <;> exact Query.strict_pure ⟨rfl, rfl⟩

theorem strict_watermark (id : ValidatorId) : (watermark id).Strict v fun _ => True :=
  (strict_watermark? id).bind fun _ _ => Query.strict_pure trivial

theorem strict_attestations (id : ValidatorId) : (attestations id).Strict v fun _ => True :=
  (Query.strict_scan _).bind fun _ _ => Query.strict_ofExcept fun _ _ => trivial

theorem strict_surrounding (id : ValidatorId) (vote : Vote) :
    (surrounding id vote).Strict v fun _ => True :=
  (strict_attestations id).bind fun _ _ => Query.strict_pure trivial

theorem strict_surrounded (id : ValidatorId) (vote : Vote) :
    (surrounded id vote).Strict v fun _ => True :=
  (strict_attestations id).bind fun _ _ => Query.strict_pure trivial

/-! ## Floors -/

/-- A floor that is not there is put in. -/
theorem strict_raiseSlotFloor (absent : v.contains (Place.floor id .block).bytes = false)
    (slot : Slot) : (raiseSlotFloor id slot).Strict v fun _ v' =>
      ∃ value, v' = v.insert (Place.floor id .block).bytes value := by
  unfold raiseSlotFloor
  apply Strict.query_bind (strict_requireRegistered id)
  intro _ _
  apply Strict.absent_bind absent
  apply Strict.bind
  apply strict_put
  exact strict_query (strict_watermark id) fun _ _ => ⟨_, rfl⟩

theorem strict_raiseEpochFloors
    (absent : v.contains (Place.floor id .attestation).bytes = false) (source target : Epoch) :
    (raiseEpochFloors id source target).Strict v fun _ v' =>
      ∃ value, v' = v.insert (Place.floor id .attestation).bytes value := by
  unfold raiseEpochFloors
  apply Strict.query_bind (strict_requireRegistered id)
  intro _ _
  apply Strict.absent_bind absent
  apply Strict.bind
  apply strict_put
  exact strict_query (strict_watermark id) fun _ _ => ⟨_, rfl⟩

/-! ## Blocks -/

theorem strict_insertBlock {slot : Slot} (free : v.contains (Place.block id slot).bytes = false)
    (root : SigningRoot) : (insertBlock id slot root).Strict v fun _ v' =>
      ∃ value, v' = v.insert (Place.block id slot).bytes value := by
  unfold insertBlock
  apply Strict.query_bind (strict_requireRegistered id)
  intro _ _
  apply Strict.absent_bind free
  exact strict_put ⟨_, rfl⟩

theorem strict_admitBlock {slot : Slot} (free : v.contains (Place.block id slot).bytes = false)
    (root : SigningRoot) :
    (admitBlock id slot root (v.contains (Place.floor id .block).bytes)).Strict v fun _ v' =>
      v.Recorded v' (.block id slot) (.floor id .block) := by
  unfold admitBlock
  apply Strict.bind
  apply (strict_insertBlock free root).mono
  intro _ v' inserted
  obtain ⟨value, rfl⟩ := inserted
  have recorded : v.Recorded (v.insert (Place.block id slot).bytes value) (.block id slot)
      (.floor id .block) := Table.recorded_insert free value
  cases set : v.contains (Place.floor id .block).bytes with
  | true => exact strict_pure recorded
  | false =>
    have unset : (v.insert (Place.block id slot).bytes value).contains
        (Place.floor id .block).bytes = false := by simpa [Table.contains] using set
    apply Strict.bind
    apply (strict_raiseSlotFloor unset 0).mono
    intro _ v'' raised
    obtain ⟨floor, rfl⟩ := raised
    exact strict_pure (recorded.insert set floor)

theorem strict_decideBlock (id : ValidatorId) (slot : Slot) (root : SigningRoot) :
    (decideBlock id slot root).Strict v fun decision v' => decision = .permit →
      v.Recorded v' (.block id slot) (.floor id .block) := by
  unfold decideBlock
  apply Strict.query_bind (strict_watermark? id)
  intro row floors
  split
  · exact strict_pure nofun
  apply Strict.query_bind (Query.strict_record (Place.block id slot).bytes _)
  intro existing found
  cases existing with
  | some existing => exact strict_pure fun _ => Table.recorded_self found.symm
  | none =>
    -- The row shows a floor exactly if there is one.
    have same : (row.bind Watermark.slot).isSome = v.contains (Place.floor id .block).bytes :=
      floors.1
    simp only [same]
    exact (strict_admitBlock found.symm root).mono fun _ _ recorded _ => recorded

/-! ## Attestations -/

theorem strict_insertAttestation {vote : Vote}
    (free : v.contains (Place.attestation id vote.target).bytes = false) (root : SigningRoot) :
    (insertAttestation id vote root).Strict v fun _ v' =>
      ∃ value, v' = v.insert (Place.attestation id vote.target).bytes value := by
  unfold insertAttestation
  apply Strict.query_bind (strict_requireRegistered id)
  intro _ _
  split
  · exact strict_throw _
  · apply Strict.absent_bind free
    exact strict_put ⟨_, rfl⟩

theorem strict_admitAttestation {vote : Vote}
    (free : v.contains (Place.attestation id vote.target).bytes = false) (root : SigningRoot) :
    (admitAttestation id vote root (v.contains (Place.floor id .attestation).bytes)).Strict v
      fun _ v' => v.Recorded v' (.attestation id vote.target) (.floor id .attestation) := by
  unfold admitAttestation
  apply Strict.bind
  apply (strict_insertAttestation free root).mono
  intro _ v' inserted
  obtain ⟨value, rfl⟩ := inserted
  have recorded : v.Recorded (v.insert (Place.attestation id vote.target).bytes value)
      (.attestation id vote.target) (.floor id .attestation) := Table.recorded_insert free value
  cases set : v.contains (Place.floor id .attestation).bytes with
  | true => exact strict_pure recorded
  | false =>
    have unset : (v.insert (Place.attestation id vote.target).bytes value).contains
        (Place.floor id .attestation).bytes = false := by simpa [Table.contains] using set
    apply Strict.bind
    apply (strict_raiseEpochFloors unset 0 0).mono
    intro _ v'' raised
    obtain ⟨floors, rfl⟩ := raised
    exact strict_pure (recorded.insert set floors)

theorem strict_decideAttestation (id : ValidatorId) (vote : Vote) (root : SigningRoot) :
    (decideAttestation id vote root).Strict v fun decision v' => decision = .permit →
      v.Recorded v' (.attestation id vote.target) (.floor id .attestation) := by
  unfold decideAttestation
  apply Strict.query_bind (strict_watermark? id)
  intro row floors
  split
  · exact strict_pure nofun
  apply Strict.query_bind (Query.strict_record (Place.attestation id vote.target).bytes _)
  intro existing found
  cases existing with
  | some existing => exact strict_pure fun _ => Table.recorded_self found.symm
  | none =>
    have same : (row.bind Watermark.target).isSome =
        v.contains (Place.floor id .attestation).bytes := floors.2
    simp only [same]
    apply Strict.query_bind (strict_surrounding id vote)
    intro outer _
    split
    · exact strict_pure nofun
    apply Strict.query_bind (strict_surrounded id vote)
    intro inner _
    split
    · exact strict_pure nofun
    exact (strict_admitAttestation found.symm root).mono fun _ _ recorded _ => recorded

/-! ## Decisions that are committed -/

/-- A decision on the table `t` ends at a call that fails, with the fault, and makes at most one
    writing call.  The table is changed by a permit alone. -/
def AtomicOn (t : Table Bytes) (record floor : Place) (decision : LedgerWork Decision) : Prop :=
  decision.run.Strict (fun x r t' => r = .error (.store x) ∧ t' = t)
    (fun r t' => (r ≠ .ok .permit → t' = t) ∧ (r = .ok .permit → t.Recorded t' record floor)) 1 t

theorem atomicOn_atomically {t : Table Bytes} {record floor : Place} {tx : Transaction Decision}
    (h : tx.Strict t fun decision t' => decision = .permit → t.Recorded t' record floor) :
    AtomicOn t record floor (LedgerWork.atomically tx Decision.isPermitted) := by
  apply (LedgerWork.strict_atomically h).mono (Nat.le_refl 1)
  intro r t' post
  cases r with
  | error e => exact ⟨fun _ => post, nofun⟩
  | ok decision =>
    cases decision with
    | permit => exact ⟨fun refused => absurd rfl refused, fun _ => post rfl⟩
    | deny reason => exact ⟨fun _ => post, nofun⟩

theorem atomicOn_signBlock (t : Table Bytes) (id : ValidatorId) (slot : Slot)
    (root : SigningRoot) :
    AtomicOn t (.block id slot) (.floor id .block) (signBlock id slot root) :=
  atomicOn_atomically (strict_decideBlock id slot root)

theorem atomicOn_signAttestation (t : Table Bytes) (id : ValidatorId) (vote : Vote)
    (root : SigningRoot) :
    AtomicOn t (.attestation id vote.target) (.floor id .attestation)
      (signAttestation id vote root) :=
  atomicOn_atomically (strict_decideAttestation id vote root)

end Ledger

end SlashingGuard
