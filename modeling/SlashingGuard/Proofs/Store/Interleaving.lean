import SlashingGuard.Proofs.Store.Exchange

/-! # Interleavings

    Two programs run on one table, and their calls are served one at a time in
    any order.  The order is a list of turns; when it is used up the first
    program runs to its end and then the second, so every order in which the
    calls of both can be served is that of some list. -/

namespace SlashingGuard

variable {α β : Type}

/-- The changes that a call makes if it does not fail. -/
def Store.Call.batch : Store.Call → List Change
  | .write batch => batch
  | _ => []

theorem Table.after_eq_applyBatch (t : Table Bytes) (request : Store.Call) :
    t.after request = t.applyBatch request.batch := by
  cases request <;> rfl

/-- Whose call is served next. -/
inductive Turn where
  | first
  | second
  deriving DecidableEq

namespace Program

/-- The program after its next call was served, with the table left; one that has ended stays. -/
def advance : StoreProgram α → Table Bytes → StoreProgram α × Table Bytes
  | .done a, t => (.done a, t)
  | .call request next, t => (next (.ok (t.answer request)), t.after request)

/-- Runs two programs on one table and serves their calls in the order of turns: the values of
    both, and the table left. -/
def interleave : List Turn → StoreProgram α → StoreProgram β → Table Bytes → (α × β) × Table Bytes
  | [], p, q, t =>
    let (a, t') := p.run Table.serve t
    let (b, t'') := q.run Table.serve t'
    ((a, b), t'')
  | .first :: turns, p, q, t =>
    let (p', t') := p.advance t
    interleave turns p' q t'
  | .second :: turns, p, q, t =>
    let (q', t') := q.advance t
    interleave turns p q' t'

/-- A program that goes on from where it was stopped ends as if it had not been stopped. -/
theorem run_advance (p : StoreProgram α) (t : Table Bytes) :
    (p.advance t).1.run Table.serve (p.advance t).2 = p.run Table.serve t := by
  cases p <;> rfl

end Program

end SlashingGuard
