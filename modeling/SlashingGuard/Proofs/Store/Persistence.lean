import SlashingGuard.Proofs.Store.Exchange
import SlashingGuard.Proofs.Store.Saving

/-! # Work on a store in front of a disk

    A store and the disk behind it answer calls as one server.  Work whose only
    write is its last call leaves the disk alone, or saves one table: then the
    store has that table, or the save failed and the store is as it was. -/

namespace SlashingGuard

variable {α β σ : Type}

namespace Store

/-- The reply of a store with a disk behind it, and both of them behind the call. -/
def through (serve : Disk.Server σ) (call : Call) (s : Store × σ) :
    calls.Reply call × (Store × σ) :=
  let out := Program.run serve ((Store.serve call).run s.1) s.2
  (out.1.1, out.1.2, out.2)

/-- A program that is run against a store is one that is run against both. -/
theorem run_eq_through (serve : Disk.Server σ) (p : StoreProgram α) (s : Store) (d : σ) :
    Program.run serve (run p s) d =
      let out := p.run (through serve) (s, d)
      ((out.1, out.2.1), out.2.2) := by
  induction p generalizing s d with
  | done a => rfl
  | call request next ih =>
    refine (Program.run_bind serve ((Store.serve request).run s) _ d).trans ?_
    exact ih _ _ _

/-- A store in memory takes no call on the disk. -/
theorem run_through_inMemory (serve : Disk.Server σ) (p : StoreProgram α) (t : Table Bytes)
    (d : σ) : p.run (through serve) (⟨none, t⟩, d) =
      ((p.run Table.serve t).1, ⟨none, (p.run Table.serve t).2⟩, d) := by
  induction p generalizing t with
  | done a => rfl
  | call request next ih =>
    cases request with
    | get key => exact ih _ t
    | contains key => exact ih _ t
    | scan scope => exact ih _ t
    | write batch => exact ih _ (t.applyBatch batch)

/-- How work ends that makes one write at most: without a save, or with one at last.  What it saves
    is what it would have ended with, also where the save fails. -/
inductive Persists (serve : Disk.Server σ) (directory : String) (E : StoreFault → α → Prop)
    (R : α → Prop) (W : α → Table Bytes → Prop) (s : Store) (d : σ) : α → Store → σ → Prop where
  | unsaved {a : α} : R a → Persists serve directory E R W s d a s d
  | saved {a : α} {u : Table Bytes} {d' : σ} : W a u →
    Program.run serve (save directory u).run d = (.ok (), d') →
      Persists serve directory E R W s d a { s with table := u } d'
  | failed {a : α} {u : Table Bytes} {e : IoError} {d' : σ} : E (.io e.message) a →
    (∃ a', W a' u) → Program.run serve (save directory u).run d = (.error e, d') →
      Persists serve directory E R W s d a s d'

end Store

namespace Program.Commits

open Store

variable {E : StoreFault → α → Prop} {R : α → Prop} {W : α → Table Bytes → Prop}
  {p : StoreProgram α}

/-- Work that commits, on a store with a data directory, saves one table at most. -/
theorem persists {s : Store} (h : p.Commits E R W s.table) {directory : String}
    (home : s.home = some directory) (serve : Disk.Server σ) (d : σ) :
    let out := p.run (through serve) (s, d)
    Persists serve directory E R W s d out.1 out.2.1 out.2.2 := by
  induction p with
  | done a => exact .unsaved h
  | call request next ih =>
    obtain ⟨stops, rest⟩ := h
    cases request with
    | get key => exact ih _ rest
    | contains key => exact ih _ rest
    | scan scope => exact ih _ rest
    | write batch =>
      have written := run_write serve home batch d
      cases saved : Program.run serve (save directory (s.table.applyBatch batch)).run d with
      | mk r d' =>
        rw [saved] at written
        cases r with
        | ok _ =>
          obtain ⟨a, ends, post⟩ := rest
          have out : (call (ι := Store.calls) (.write batch) next).run (through serve) (s, d) =
              (next (.ok ())).run (through serve)
                ({ s with table := s.table.applyBatch batch }, d') := by
            simp only [Program.run, through, written]
          have ends : next (.ok ()) = .done a := ends
          rw [out, ends]
          exact .saved post saved
        | error e =>
          obtain ⟨a, ends, post⟩ := stops (.io e.message)
          obtain ⟨a', -, aimed⟩ := rest
          have out : (call (ι := Store.calls) (.write batch) next).run (through serve) (s, d) =
              (next (.error (.io e.message))).run (through serve) (s, d') := by
            simp only [Program.run, through, written]
          rw [out, ends]
          exact .failed post ⟨a', aimed⟩ saved

/-- On a table alone nothing fails. -/
theorem run_serve {t : Table Bytes} (h : p.Commits E R W t) :
    R (p.run Table.serve t).1 ∧ (p.run Table.serve t).2 = t ∨
      W (p.run Table.serve t).1 (p.run Table.serve t).2 := by
  induction p with
  | done a => exact .inl ⟨h, rfl⟩
  | call request next ih =>
    obtain ⟨-, rest⟩ := h
    cases request with
    | get key => exact ih _ rest
    | contains key => exact ih _ rest
    | scan scope => exact ih _ rest
    | write batch =>
      obtain ⟨a, ends, post⟩ := rest
      have run : (Program.call (ι := Store.calls) (.write batch) next).run Table.serve t =
          (next (.ok ())).run Table.serve (t.applyBatch batch) := rfl
      have ends : next (.ok ()) = .done a := ends
      rw [run, ends]
      exact .inr post

end Program.Commits

end SlashingGuard
