import SlashingGuard.Guard.Basic
import SlashingGuard.Proofs.Ledger.WellFormed
import SlashingGuard.Proofs.Store.Interleaving

/-! # Programs confined to a lock

    A lock stands for one validator and one duty kind, and owns the keys of
    the records of that kind and the key of its floors.  A program is confined
    to a lock if it changes no other keys, and if what it does next is the
    same on any two legible ledgers that differ in keys of other locks alone.

    Two programs that are confined to different locks do not see each other.
    Whatever the order in which their calls are served, each ends as if it had
    been alone, and the ledger that they leave has at each key what the owner
    of the key has left there. -/

namespace SlashingGuard

variable {α β : Type}

/-! ## Keys of a lock -/

/-- The lock under which a place is written; the registry has none. -/
def Place.lock? : Place → Option LockName
  | .block id _ => some (id, .block)
  | .attestation id _ => some (id, .attestation)
  | .floor id kind => some (id, kind)
  | _ => none

theorem Place.lock?_record (kind : DutyKind) (id : ValidatorId) (n : UInt64) :
    (Place.record kind id n).lock? = some (id, kind) := by
  cases kind <;> rfl

namespace LockName

/-- A key of a record or of floors that are written under the lock. -/
def Owns (lock : LockName) (key : Bytes) : Prop :=
  ∃ place : Place, place.lock? = some lock ∧ key = place.bytes

/-- A key that no other lock owns. -/
def Sees (lock : LockName) (key : Bytes) : Prop :=
  ∀ other : LockName, other.Owns key → other = lock

/-- A key has one owner at most. -/
theorem Owns.unique {lock lock' : LockName} {key : Bytes} (h : lock.Owns key)
    (h' : lock'.Owns key) : lock = lock' := by
  obtain ⟨place, owner, rfl⟩ := h
  obtain ⟨place', owner', same⟩ := h'
  obtain rfl := Place.bytes_injective same
  exact Option.some.inj (owner.symm.trans owner')

theorem owns_bytes_iff {lock : LockName} {place : Place} :
    lock.Owns place.bytes ↔ place.lock? = some lock := by
  constructor
  · intro h
    obtain ⟨place', owner, same⟩ := h
    rwa [Place.bytes_injective same]
  · intro owner
    exact ⟨place, owner, rfl⟩

theorem sees_bytes {lock : LockName} {place : Place}
    (h : ∀ other, place.lock? = some other → other = lock) : lock.Sees place.bytes :=
  fun other owns => h other (owns_bytes_iff.1 owns)

/-- A change at a key of the lock; what is put can be read there. -/
def Allows (lock : LockName) : Change → Prop
  | .put key value =>
    ∃ place : Place, place.lock? = some lock ∧ key = place.bytes ∧ place.Reads value
  | .delete key => lock.Owns key

theorem Allows.owns {lock : LockName} {change : Change} (h : lock.Allows change) :
    lock.Owns change.key := by
  cases change with
  | put key value =>
    obtain ⟨place, owner, same, -⟩ := h
    exact ⟨place, owner, same⟩
  | delete key => exact h

end LockName

/-! ## Changes of a lock -/

namespace Table

variable {lock : LockName} {t u : Table Bytes}

/-- A change that a lock allows leaves a ledger legible. -/
theorem Legible.apply (legible : t.Legible) {change : Change} (h : lock.Allows change) :
    (change.apply t).Legible := by
  cases change with
  | put key value =>
    obtain ⟨place, -, rfl, reads⟩ := h
    exact legible.insert reads
  | delete key =>
    apply legible.of_sublist
    intro key' value found
    rw [Change.apply, get?_erase] at found
    split at found
    · contradiction
    · exact found

theorem Legible.applyBatch (legible : t.Legible) {batch : List Change}
    (h : ∀ change ∈ batch, lock.Allows change) : (t.applyBatch batch).Legible := by
  induction batch generalizing t with
  | nil => exact legible
  | cons change rest ih =>
    obtain ⟨first, others⟩ := List.forall_mem_cons.1 h
    exact ih (legible.apply first) others

/-- A change is seen at its own key alone. -/
theorem get?_apply_of_ne {change : Change} {key : Bytes} (h : change.key ≠ key) :
    (change.apply t).get? key = t.get? key := by
  cases change with
  | put key' value => exact (get?_insert t key' value key).trans (if_neg h)
  | delete key' => exact (get?_erase t key' key).trans (if_neg h)

/-- Tables that agree at a key agree there after the same change. -/
theorem get?_apply_congr {key : Bytes} (h : t.get? key = u.get? key) (change : Change) :
    (change.apply t).get? key = (change.apply u).get? key := by
  cases change with
  | put key' value => rw [Change.apply, Change.apply, get?_insert, get?_insert, h]
  | delete key' => rw [Change.apply, Change.apply, get?_erase, get?_erase, h]

theorem get?_applyBatch_of_not_owns {batch : List Change}
    (h : ∀ change ∈ batch, lock.Allows change) {key : Bytes} (other : ¬ lock.Owns key) :
    (t.applyBatch batch).get? key = t.get? key := by
  induction batch generalizing t with
  | nil => rfl
  | cons change rest ih =>
    obtain ⟨first, others⟩ := List.forall_mem_cons.1 h
    have ne : change.key ≠ key := by
      intro same
      exact other (same ▸ first.owns)
    exact (ih others).trans (get?_apply_of_ne ne)

theorem get?_applyBatch_congr {key : Bytes} (h : t.get? key = u.get? key) (batch : List Change) :
    (t.applyBatch batch).get? key = (u.applyBatch batch).get? key := by
  induction batch generalizing t u with
  | nil => exact h
  | cons change rest ih => exact ih (get?_apply_congr h change)

end Table

/-! ## Ledgers that a lock cannot tell apart -/

/-- Legible ledgers that differ in keys of other locks alone. -/
structure LockName.Alike (lock : LockName) (t u : Table Bytes) : Prop where
  left : t.Legible
  right : u.Legible
  same : ∀ key, lock.Sees key → t.get? key = u.get? key

/-- The ledger `w` is made up of the work under two locks: at the keys of the one it is `u`, at
    those of the other it is `v`, and elsewhere all three are the same. -/
structure Merged (lock lock' : LockName) (u v w : Table Bytes) : Prop where
  left : u.Legible
  right : v.Legible
  legible : w.Legible
  first : ∀ key, ¬ lock'.Owns key → w.get? key = u.get? key
  second : ∀ key, ¬ lock.Owns key → w.get? key = v.get? key

namespace Merged

variable {lock lock' : LockName} {t u v w w' : Table Bytes}

theorem refl (lock lock' : LockName) (legible : t.Legible) : Merged lock lock' t t t :=
  ⟨legible, legible, legible, fun _ _ => rfl, fun _ _ => rfl⟩

theorem symm (h : Merged lock lock' u v w) : Merged lock' lock v u w :=
  ⟨h.right, h.left, h.legible, h.second, h.first⟩

/-- There is one such ledger. -/
theorem unique (h : Merged lock lock' u v w) (h' : Merged lock lock' u v w')
    (differ : lock ≠ lock') : w = w' := by
  apply Table.ext_get?
  intro key
  by_cases own : lock'.Owns key
  · have other : ¬ lock.Owns key := fun owns => differ (owns.unique own)
    rw [h.second key other, h'.second key other]
  · rw [h.first key own, h'.first key own]

/-- Under the first lock it looks like the first ledger. -/
theorem alike (h : Merged lock lock' u v w) (differ : lock ≠ lock') : lock.Alike w u where
  left := h.legible
  right := h.left
  same key sees := by
    apply h.first
    intro owns
    exact differ (sees lock' owns).symm

/-- What is done under the first lock is done to the first ledger. -/
theorem applyBatch (h : Merged lock lock' u v w) {batch : List Change}
    (allowed : ∀ change ∈ batch, lock.Allows change) :
    Merged lock lock' (u.applyBatch batch) v (w.applyBatch batch) where
  left := h.left.applyBatch allowed
  right := h.right
  legible := h.legible.applyBatch allowed
  first key other := Table.get?_applyBatch_congr (h.first key other) batch
  second key other := by
    rw [Table.get?_applyBatch_of_not_owns allowed other]
    exact h.second key other

end Merged

/-! ## Confined programs -/

namespace Program

variable {lock lock' : LockName} {P : α → Prop} {P' : β → Prop} {p : StoreProgram α}
  {q : StoreProgram β} {u v w : Table Bytes}

/-- The program makes no changes but what the lock allows, goes on in the same way on ledgers that
    the lock cannot tell apart, and gives values as `P` says. -/
def Confined (lock : LockName) (P : α → Prop) : StoreProgram α → Prop
  | .done a => P a
  | .call request next =>
    (∀ change ∈ request.batch, lock.Allows change) ∧
      (∀ t u, lock.Alike t u → next (.ok (t.answer request)) = next (.ok (u.answer request))) ∧
      ∀ t : Table Bytes, t.Legible → (next (.ok (t.answer request))).Confined lock P

theorem Confined.bind {f : α → StoreProgram β} (h : p.Confined lock P)
    (hf : ∀ a, P a → (f a).Confined lock P') : (p.bind f).Confined lock P' := by
  induction p with
  | done a => exact hf a h
  | call request next ih =>
    obtain ⟨allowed, same, rest⟩ := h
    refine ⟨allowed, ?_, ?_⟩
    · intro t u alike
      exact congrArg (fun p => Program.bind p f) (same t u alike)
    · intro t legible
      exact ih _ (rest t legible)

/-- A confined program changes keys of its lock alone. -/
theorem Confined.owns (h : p.Confined lock P) {t : Table Bytes} (legible : t.Legible) :
    ∀ e ∈ p.exchanges [] t, ∀ change ∈ e.call.batch, lock.Owns change.key := by
  induction p generalizing t with
  | done a => exact nofun
  | call request next ih =>
    obtain ⟨allowed, -, rest⟩ := h
    intro e he
    rcases List.mem_cons.1 he with rfl | later
    · intro change member
      exact (allowed change member).owns
    · have legible' : (t.after request).Legible := by
        rw [Table.after_eq_applyBatch]
        exact legible.applyBatch allowed
      exact ih _ (rest t legible) legible' e later

/-- One call under the first lock is answered as on the first ledger, and is made there too. -/
theorem Confined.advance (h : p.Confined lock P) (differ : lock ≠ lock')
    (merged : Merged lock lock' u v w) :
    (p.advance w).1 = (p.advance u).1 ∧ (p.advance u).1.Confined lock P ∧
      Merged lock lock' (p.advance u).2 v (p.advance w).2 := by
  cases p with
  | done a => exact ⟨rfl, h, merged⟩
  | call request next =>
    obtain ⟨allowed, same, rest⟩ := h
    refine ⟨same w u (merged.alike differ), rest u merged.left, ?_⟩
    show Merged lock lock' (u.after request) v (w.after request)
    rw [Table.after_eq_applyBatch, Table.after_eq_applyBatch]
    exact merged.applyBatch allowed

/-- A program under the first lock ends as on the first ledger, with the same calls. -/
theorem Confined.run (h : p.Confined lock P) (differ : lock ≠ lock')
    (merged : Merged lock lock' u v w) :
    (p.run Table.serve w).1 = (p.run Table.serve u).1 ∧ p.exchanges [] w = p.exchanges [] u ∧
      Merged lock lock' (p.run Table.serve u).2 v (p.run Table.serve w).2 := by
  induction p generalizing u w with
  | done a => exact ⟨rfl, rfl, merged⟩
  | call request next ih =>
    obtain ⟨same, confined, merged'⟩ := h.advance differ merged
    obtain ⟨value, calls, post⟩ := ih (.ok (u.answer request)) confined merged'
    have same : next (.ok (w.answer request)) = next (.ok (u.answer request)) := same
    refine ⟨?_, ?_, ?_⟩
    · show ((next (.ok (w.answer request))).run Table.serve (w.after request)).1 = _
      rw [same]
      exact value
    · show _ :: (next (.ok (w.answer request))).exchanges [] (w.after request) = _
      rw [same]
      exact congrArg _ calls
    · show Merged lock lock' _ v ((next (.ok (w.answer request))).run _ (w.after request)).2
      rw [same]
      exact post

/-- Programs under different locks end as if each had been alone, in whatever order their calls are
    served. -/
theorem Confined.interleave (h : p.Confined lock P) (h' : q.Confined lock' P')
    (differ : lock ≠ lock') (merged : Merged lock lock' u v w) (turns : List Turn) :
    (p.interleave turns q w).1 = ((p.run Table.serve u).1, (q.run Table.serve v).1) ∧
      Merged lock lock' (p.run Table.serve u).2 (q.run Table.serve v).2
        (p.interleave turns q w).2 := by
  induction turns generalizing p q u v w with
  | nil =>
    obtain ⟨value, -, first⟩ := h.run differ merged
    obtain ⟨value', -, both⟩ := h'.run (Ne.symm differ) first.symm
    exact ⟨Prod.ext value value', both.symm⟩
  | cons turn turns ih =>
    cases turn with
    | first =>
      obtain ⟨same, confined, merged⟩ := h.advance differ merged
      have post := ih confined h' merged
      rw [run_advance, ← same] at post
      exact post
    | second =>
      obtain ⟨same, confined, merged⟩ := h'.advance (Ne.symm differ) merged.symm
      have post := ih h confined merged.symm
      rw [run_advance, ← same] at post
      exact post

end Program

end SlashingGuard
