import SlashingGuard.Store.Call

/-! # Outages

    A standing failure of a store: calls of one kind fail, all with the same
    fault, once some of them have been let through.  A call that fails does
    not reach the store. -/

namespace SlashingGuard.Store

/-- Calls of one kind fail after `spared` more of them. -/
structure Outage where
  kind : CallKind
  spared : Nat
  fault : StoreFault
  deriving DecidableEq, Repr

namespace Outage

/-- The fault that a call of a kind meets now. -/
def strikes? (o : Outage) (kind : CallKind) : Option StoreFault :=
  if o.kind = kind ∧ o.spared = 0 then some o.fault else none

/-- The outage after a call of a kind. -/
def after (o : Outage) (kind : CallKind) : Outage :=
  if o.kind = kind then { o with spared := o.spared - 1 } else o

/-- A server that lets through only the calls that no outage strikes. -/
def around {m : Type → Type} [Monad m] (serve : (call : Call) → m (calls.Reply call))
    (call : Call) : StateT (Option Outage) m (calls.Reply call) := do
  let outage ← get
  set (outage.map fun o => o.after call.kind)
  match outage.bind fun o => o.strikes? call.kind with
  | some fault => return .error fault
  | none => serve call

end Outage

end SlashingGuard.Store
