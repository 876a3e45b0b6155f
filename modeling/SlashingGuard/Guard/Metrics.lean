import SlashingGuard.Duty.Decision

/-! # Metrics

    Counters of what guards answered and removed: permits and removed records
    by duty kind, denials by duty kind and reason. -/

namespace SlashingGuard

structure Metrics where
  permitted : DutyKind → Nat
  prevented : DutyKind → DenialReason → Nat
  pruned : DutyKind → Nat

namespace Metrics

def zero : Metrics := ⟨fun _ => 0, fun _ _ => 0, fun _ => 0⟩

/-- One more answer of a kind. -/
def countDecision (m : Metrics) (kind : DutyKind) : Decision → Metrics
  | .permit =>
    { m with permitted := fun k => if k = kind then m.permitted k + 1 else m.permitted k }
  | .deny reason =>
    { m with prevented := fun k r =>
        if k = kind ∧ r = reason then m.prevented k r + 1 else m.prevented k r }

/-- More removed records of a kind. -/
def countPruned (m : Metrics) (kind : DutyKind) (removed : Nat) : Metrics :=
  { m with pruned := fun k => if k = kind then m.pruned k + removed else m.pruned k }

end Metrics

end SlashingGuard
