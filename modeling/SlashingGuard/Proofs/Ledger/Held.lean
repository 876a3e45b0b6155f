import Mathlib.Data.List.Induction
import SlashingGuard.Ledger.Decision
import SlashingGuard.Proofs.Ledger.Transaction

/-! # Changes held back

    A transaction holds changes back in an order.  A table seen through them
    is the table with the changes made one after the other, however often they
    overwrite or delete the same key, so at each key the last one counts.  A
    query of the ledger holds nothing back and writes nothing. -/

namespace SlashingGuard

variable {α β : Type}

/-! ## In the order of the changes -/

namespace Pending

/-- The pending writes with one more change held back. -/
def hold (p : Pending) : Change → Pending
  | .put key value => p.insert key (some value)
  | .delete key => p.insert key none

/-- The pending writes with more changes held back, in order. -/
def holdAll (p : Pending) (changes : List Change) : Pending := changes.foldl hold p

theorem holdAll_append (p : Pending) (first second : List Change) :
    p.holdAll (first ++ second) = (p.holdAll first).holdAll second :=
  List.foldl_append

theorem hold_ne_empty (p : Pending) (c : Change) : (p.hold c).isEmpty = false := by
  have found : ((p.hold c).get? c.key).isSome := by
    cases c with
    | put key value => simp [hold, Change.key]
    | delete key => simp [hold, Change.key]
  obtain ⟨value, found⟩ := Option.isSome_iff_exists.1 found
  have member := Table.get?_eq_some_iff.1 found
  rw [Table.isEmpty, List.isEmpty_eq_false_iff]
  exact List.ne_nil_of_mem member

/-- Something is pending as soon as a change was held back, and it stays so: a deletion is
    pending too. -/
theorem isEmpty_holdAll (changes : List Change) :
    (holdAll Table.empty changes).isEmpty = changes.isEmpty := by
  induction changes using List.reverseRecOn with
  | nil => rfl
  | append_singleton changes c ih =>
    rw [holdAll_append]
    have last : (holdAll (holdAll Table.empty changes) [c]).isEmpty = false := hold_ne_empty _ c
    rw [last]
    simp

end Pending

namespace Table

theorem overlaid_hold (t : Table Bytes) (p : Pending) (c : Change) :
    t.overlaid (p.hold c) = c.apply (t.overlaid p) := by
  cases c with
  | put key value => exact overlaid_insert_some t p key value
  | delete key => exact overlaid_insert_none t p key

/-- A table seen through changes held back is the table with the changes made, one after the
    other. -/
theorem overlaid_holdAll (t : Table Bytes) (p : Pending) (changes : List Change) :
    t.overlaid (p.holdAll changes) = (t.overlaid p).applyBatch changes := by
  induction changes generalizing p with
  | nil => rfl
  | cons c rest ih =>
    have first : t.overlaid (p.hold c) = c.apply (t.overlaid p) := overlaid_hold t p c
    have others := ih (p.hold c)
    rw [first] at others
    exact others

end Table

/-! ## The last change at a key -/

/-- What a change leaves at its key. -/
def Change.left : Change → Option Bytes
  | .put _ value => some value
  | .delete _ => none

theorem Change.get?_apply (t : Table Bytes) (c : Change) (key : Bytes) :
    (c.apply t).get? key = if c.key = key then c.left else t.get? key := by
  cases c with
  | put k value => exact Table.get?_insert t k value key
  | delete k => exact Table.get?_erase t k key

/-- Of the changes made at a key the last counts, and a key without one keeps its value. -/
theorem Table.get?_applyBatch (t : Table Bytes) (changes : List Change) (key : Bytes) :
    (t.applyBatch changes).get? key =
      match changes.reverse.find? fun c => c.key = key with
      | some c => c.left
      | none => t.get? key := by
  induction changes using List.reverseRec with
  | nil => rfl
  | append_singleton changes c ih =>
    have last : t.applyBatch (changes ++ [c]) = c.apply (t.applyBatch changes) :=
      List.foldl_append
    rw [last, Change.get?_apply, List.reverse_append]
    by_cases same : c.key = key
    · simp [same]
    · simp [same, ih]

/-! ## Queries -/

namespace Query

/-- The query writes nothing, whatever it reads and whatever fails. -/
def ReadOnly (q : Query α) : Prop :=
  ∀ (faulty : Prop) (t : Table Bytes) (p : Pending), (q p).run.Always faulty t fun _ t' => t' = t

theorem readOnly_pure (a : α) : ReadOnly (pure a) := fun _ _ _ => rfl

theorem readOnly_throw (e : LedgerError) : ReadOnly (throw e : Query α) := fun _ _ _ => rfl

theorem readOnly_ofExcept (r : Except LedgerError α) : (ofExcept r).ReadOnly := by
  intro faulty t p
  cases r <;> rfl

theorem ReadOnly.bind {q : Query α} {k : α → Query β} (hq : q.ReadOnly)
    (hk : ∀ a, (k a).ReadOnly) : (q >>= k).ReadOnly := by
  intro faulty t p
  show Program.Always faulty (Program.bind (q p).run _) t _
  rw [Program.always_bind]
  refine (hq faulty t p).mono ?_
  rintro r t' rfl
  cases r with
  | ok a => exact hk a faulty t' p
  | error e => exact rfl

theorem readOnly_get (key : Bytes) : (get key).ReadOnly := by
  intro faulty t p
  unfold get
  split
  · rfl
  · exact ⟨rfl, fun _ _ => rfl⟩

theorem readOnly_contains (key : Bytes) : (contains key).ReadOnly := by
  intro faulty t p
  unfold contains
  split
  · rfl
  · exact ⟨rfl, fun _ _ => rfl⟩

theorem readOnly_scan (scope : Bytes) : (scan scope).ReadOnly :=
  fun _ _ _ => ⟨rfl, fun _ _ => rfl⟩

theorem readOnly_record (key : Bytes) (read : Bytes → Except LedgerError α) :
    (record key read).ReadOnly := by
  refine (readOnly_get key).bind fun found => ?_
  cases found with
  | some bytes => exact (readOnly_ofExcept (read bytes)).bind fun a => readOnly_pure (some a)
  | none => exact readOnly_pure none

end Query

namespace Ledger

open Query

theorem readOnly_requireRegistered (id : ValidatorId) : (requireRegistered id).ReadOnly := by
  refine (readOnly_contains _).bind fun registered => ?_
  cases registered with
  | true => exact readOnly_pure ()
  | false => exact readOnly_throw _

theorem readOnly_blocks (id : ValidatorId) : (blocks id).ReadOnly :=
  (readOnly_scan _).bind fun _ => readOnly_ofExcept _

theorem readOnly_attestations (id : ValidatorId) : (attestations id).ReadOnly :=
  (readOnly_scan _).bind fun _ => readOnly_ofExcept _

theorem readOnly_validators : validators.ReadOnly :=
  (readOnly_scan _).bind fun _ => readOnly_ofExcept _

theorem readOnly_newest? (family : KeyFamily) (what : RecordKind) (id : ValidatorId) :
    (newest? family what id).ReadOnly := by
  refine (readOnly_scan _).bind fun entries => ?_
  split
  · exact (readOnly_ofExcept _).bind fun index => readOnly_pure (some index)
  · exact readOnly_pure none

theorem readOnly_watermark? (id : ValidatorId) : (watermark? id).ReadOnly := by
  refine (readOnly_record _ _).bind fun slot => (readOnly_record _ _).bind fun epochs => ?_
  cases slot <;> cases epochs <;> exact readOnly_pure _

theorem readOnly_watermark (id : ValidatorId) : (watermark id).ReadOnly :=
  (readOnly_watermark? id).bind fun row => readOnly_pure (row.getD (Watermark.empty id))

end Ledger

end SlashingGuard
