import SlashingGuard.Store.Call

/-! # Store calls that fail

    Any call on a store may fail, and a call that fails is not applied.  A
    schedule of faults fixes which calls fail, so a run under a schedule is a
    function.  What holds of a program whatever calls fail is said by a
    condition on its outcome, which is carried backwards over the calls; the
    same condition covers the store that never fails. -/

namespace SlashingGuard

variable {α β : Type}

/-! ## Schedules of faults -/

/-- Which of the coming calls fail, in order; a call behind the end is answered. -/
abbrev Store.FaultSchedule : Type := List (Option StoreFault)

/-- The store in memory whose calls fail as a schedule says.  A call that fails is not applied. -/
def Table.serveFaulty (call : Store.Call) :
    Table Bytes × Store.FaultSchedule →
      Store.calls.Reply call × (Table Bytes × Store.FaultSchedule)
  | (t, some fault :: rest) => (.error fault, (t, rest))
  | (t, schedule) => (.ok (t.answer call), (t.after call, schedule.tail))

namespace Program

/-- The outcome of a program on a table under a schedule of faults, and the table left. -/
def runFaulty (p : StoreProgram α) (faults : Store.FaultSchedule) (t : Table Bytes) :
    α × Table Bytes :=
  let (a, t', _) := p.run Table.serveFaulty (t, faults)
  (a, t')

/-! ## What holds whatever calls fail -/

/-- However the program ends on a table, its value and the table left are as `Q` says; calls may
    fail only if `faulty`. -/
def Always (faulty : Prop) : StoreProgram α → Table Bytes → (α → Table Bytes → Prop) → Prop
  | .done value, t, Q => Q value t
  | .call request next, t, Q =>
    (next (.ok (t.answer request))).Always faulty (t.after request) Q ∧
      (faulty → ∀ fault, (next (.error fault)).Always faulty t Q)

variable {faulty : Prop} {t : Table Bytes}

@[simp] theorem always_done {a : α} {Q : α → Table Bytes → Prop} :
    Always faulty (.done a) t Q ↔ Q a t := Iff.rfl

@[simp] theorem always_call {request : Store.Call}
    {next : Store.calls.Reply request → StoreProgram α} {Q : α → Table Bytes → Prop} :
    Always faulty (.call request next) t Q ↔
      Always faulty (next (.ok (t.answer request))) (t.after request) Q ∧
        (faulty → ∀ fault, Always faulty (next (.error fault)) t Q) := Iff.rfl

theorem Always.mono {p : StoreProgram α} {Q Q' : α → Table Bytes → Prop}
    (h : p.Always faulty t Q) (imp : ∀ a t', Q a t' → Q' a t') : p.Always faulty t Q' := by
  induction p generalizing t with
  | done a => exact imp a t h
  | call request next ih => exact ⟨ih _ h.1, fun f fault => ih _ (h.2 f fault)⟩

/-- One program after another: the second starts from whatever the first leaves. -/
@[simp] theorem always_bind {p : StoreProgram α} {f : α → StoreProgram β}
    {Q : β → Table Bytes → Prop} :
    (p.bind f).Always faulty t Q ↔ p.Always faulty t fun a t' => (f a).Always faulty t' Q := by
  induction p generalizing t with
  | done a => rfl
  | call request next ih => simp only [call_bind, always_call, ih]

/-! ## Runs -/

/-- The store that never fails ends a program as it always ends. -/
theorem Always.run_serve {p : StoreProgram α} {Q : α → Table Bytes → Prop}
    (h : p.Always faulty t Q) : Q (p.run Table.serve t).1 (p.run Table.serve t).2 := by
  induction p generalizing t with
  | done a => exact h
  | call request next ih => exact ih _ h.1

/-- So does the store that fails as a schedule says, if calls may fail as soon as the schedule has a
    fault. -/
theorem Always.runFaulty_of {p : StoreProgram α} {Q : α → Table Bytes → Prop}
    (h : p.Always faulty t Q) {faults : Store.FaultSchedule}
    (may : ∀ fault, some fault ∈ faults → faulty) :
    Q (p.runFaulty faults t).1 (p.runFaulty faults t).2 := by
  induction p generalizing t faults with
  | done a => exact h
  | call request next ih =>
    match faults with
    | [] => exact ih _ h.1 may
    | none :: rest => exact ih _ h.1 fun fault later => may fault (List.mem_cons_of_mem _ later)
    | some fault :: rest =>
      have fails : faulty := may fault List.mem_cons_self
      exact ih _ (h.2 fails fault) fun _ _ => fails

theorem Always.runFaulty {p : StoreProgram α} {Q : α → Table Bytes → Prop}
    (h : p.Always True t Q) (faults : Store.FaultSchedule) :
    Q (p.runFaulty faults t).1 (p.runFaulty faults t).2 :=
  h.runFaulty_of fun _ _ => trivial

/-- A schedule without faults is no more than the store that never fails. -/
theorem Always.runFaulty_nil {p : StoreProgram α} {Q : α → Table Bytes → Prop}
    (h : p.Always faulty t Q) : Q (p.runFaulty [] t).1 (p.runFaulty [] t).2 :=
  h.runFaulty_of fun _ scheduled => absurd scheduled List.not_mem_nil

end Program

end SlashingGuard
