import SlashingGuard.Proofs.Store.Fault

/-! # Calls that a run makes

    Beside its value and the table it leaves, a run of a program has the calls
    that it made on the store, each with the fault that it met if it failed.
    The calls that did not fail make up the table that is left.

    A program is strict in faults if a call that fails is its last call.  Such
    a program cannot answer as if nothing had happened: it ends without a
    fault, or in the way that is fixed for the fault. -/

namespace SlashingGuard

variable {α β : Type}

/-! ## Exchanges -/

namespace Store

/-- A call that was made on a store, with the fault if it failed. -/
structure Exchange where
  call : Call
  fault : Option StoreFault
  deriving DecidableEq, Repr

namespace Exchange

/-- Whether a batch was to be written. -/
def isWrite (e : Exchange) : Bool := e.call.kind = .write

/-- The table after the call; one that failed is not applied. -/
def apply (t : Table Bytes) (e : Exchange) : Table Bytes :=
  match e.fault with
  | none => t.after e.call
  | some _ => t

end Exchange

end Store

namespace Program

/-- The calls that a program makes on a table under a schedule of faults, in order. -/
def exchanges : StoreProgram α → Store.FaultSchedule → Table Bytes → List Store.Exchange
  | .done _, _, _ => []
  | .call request next, some fault :: rest, t =>
    ⟨request, some fault⟩ :: (next (.error fault)).exchanges rest t
  | .call request next, faults, t =>
    ⟨request, none⟩ :: (next (.ok (t.answer request))).exchanges faults.tail (t.after request)

/-- A run follows one call at a time: the first fault of the schedule is for the first call. -/
theorem runFaulty_call (request : Store.Call)
    (next : Store.calls.Reply request → StoreProgram α) (faults : Store.FaultSchedule)
    (t : Table Bytes) :
    (∃ fault rest, faults = some fault :: rest ∧
      (Program.call request next).runFaulty faults t = (next (.error fault)).runFaulty rest t ∧
      (Program.call request next).exchanges faults t =
        ⟨request, some fault⟩ :: (next (.error fault)).exchanges rest t) ∨
    ((Program.call request next).runFaulty faults t =
        (next (.ok (t.answer request))).runFaulty faults.tail (t.after request) ∧
      (Program.call request next).exchanges faults t =
        ⟨request, none⟩ ::
          (next (.ok (t.answer request))).exchanges faults.tail (t.after request)) := by
  match faults with
  | some fault :: rest => exact .inl ⟨fault, rest, rfl, rfl, rfl⟩
  | none :: rest => exact .inr ⟨rfl, rfl⟩
  | [] => exact .inr ⟨rfl, rfl⟩

/-- The table that a run leaves is what its calls made of the table it started from. -/
theorem runFaulty_table (p : StoreProgram α) (faults : Store.FaultSchedule) (t : Table Bytes) :
    (p.runFaulty faults t).2 = (p.exchanges faults t).foldl Store.Exchange.apply t := by
  induction p generalizing faults t with
  | done a => rfl
  | call request next ih =>
    rcases runFaulty_call request next faults t with ⟨fault, rest, -, run, made⟩ | ⟨run, made⟩
    · rw [run, made, ih]
      rfl
    · rw [run, made, ih]
      rfl

/-- The second of two programs goes on with the faults that are left. -/
theorem exchanges_bind (p : StoreProgram α) (f : α → StoreProgram β)
    (faults : Store.FaultSchedule) (t : Table Bytes) :
    (p.bind f).exchanges faults t = p.exchanges faults t ++
      (f (p.runFaulty faults t).1).exchanges (faults.drop (p.exchanges faults t).length)
        (p.runFaulty faults t).2 := by
  induction p generalizing faults t with
  | done a => rfl
  | call request next ih =>
    match faults with
    | some fault :: rest => exact congrArg _ (ih _ rest t)
    | none :: rest => exact congrArg _ (ih _ rest (t.after request))
    | [] =>
      have later := ih (.ok (t.answer request)) [] (t.after request)
      rw [List.drop_nil] at later ⊢
      exact congrArg _ later

theorem runFaulty_bind (p : StoreProgram α) (f : α → StoreProgram β)
    (faults : Store.FaultSchedule) (t : Table Bytes) :
    (p.bind f).runFaulty faults t =
      (f (p.runFaulty faults t).1).runFaulty (faults.drop (p.exchanges faults t).length)
        (p.runFaulty faults t).2 := by
  induction p generalizing faults t with
  | done a => rfl
  | call request next ih =>
    match faults with
    | some fault :: rest => exact ih _ rest t
    | none :: rest => exact ih _ rest (t.after request)
    | [] =>
      have later := ih (.ok (t.answer request)) [] (t.after request)
      rw [List.drop_nil] at later ⊢
      exact later

/-- What is done with the value of a program takes no call. -/
theorem exchanges_bind_done (p : StoreProgram α) (f : α → β) (faults : Store.FaultSchedule)
    (t : Table Bytes) :
    (p.bind fun a => .done (f a)).exchanges faults t = p.exchanges faults t := by
  rw [exchanges_bind]
  exact List.append_nil _

theorem runFaulty_bind_done (p : StoreProgram α) (f : α → β) (faults : Store.FaultSchedule)
    (t : Table Bytes) : (p.bind fun a => .done (f a)).runFaulty faults t =
      (f (p.runFaulty faults t).1, (p.runFaulty faults t).2) := by
  rw [runFaulty_bind]
  rfl

/-- A run in which no call failed is one on the store that never fails. -/
theorem runFaulty_of_unfailed {p : StoreProgram α} {faults : Store.FaultSchedule}
    {t : Table Bytes} (unfailed : ∀ e ∈ p.exchanges faults t, e.fault = none) :
    p.runFaulty faults t = p.run Table.serve t := by
  induction p generalizing faults t with
  | done a => rfl
  | call request next ih =>
    rcases runFaulty_call request next faults t with ⟨fault, rest, -, -, made⟩ | ⟨run, made⟩
    · rw [made] at unfailed
      have first := unfailed _ List.mem_cons_self
      contradiction
    · rw [made] at unfailed
      rw [run, ih _ fun e he => unfailed e (List.mem_cons_of_mem _ he)]
      rfl

/-! ## Strictness in faults -/

/-- On this table a call that fails is the last call of the program, which then ends as `E` says;
    if no call fails it ends as `Q` says.  It makes no more than `writes` writing calls. -/
def Strict (E : StoreFault → α → Table Bytes → Prop) (Q : α → Table Bytes → Prop) :
    StoreProgram α → (writes : Nat) → Table Bytes → Prop
  | .done a, _, t => Q a t
  | .call request next, writes, t =>
    (request.kind = .write → 0 < writes) ∧
      (∀ fault, ∃ a, next (.error fault) = .done a ∧ E fault a t) ∧
      (next (.ok (t.answer request))).Strict E Q
        (if request.kind = .write then writes - 1 else writes) (t.after request)

variable {E : StoreFault → α → Table Bytes → Prop} {Q : α → Table Bytes → Prop}
  {p : StoreProgram α} {writes : Nat} {t : Table Bytes}

theorem Strict.mono {Q' : α → Table Bytes → Prop} (h : p.Strict E Q writes t) {more : Nat}
    (le : writes ≤ more) (imp : ∀ a t', Q a t' → Q' a t') : p.Strict E Q' more t := by
  induction p generalizing t writes more with
  | done a => exact imp a t h
  | call request next ih =>
    obtain ⟨room, stops, rest⟩ := h
    refine ⟨fun write => Nat.lt_of_lt_of_le (room write) le, stops, ih _ rest ?_⟩
    split <;> omega

/-- One program after another: the writing calls of both are counted, and the second has nothing
    to do if a call of the first failed. -/
theorem Strict.bind {f : α → StoreProgram β} {E' : StoreFault → β → Table Bytes → Prop}
    {Q' : β → Table Bytes → Prop} {more : Nat}
    (h : p.Strict E (fun a t' => (f a).Strict E' Q' more t') writes t)
    (stop : ∀ fault a t', E fault a t' → ∃ b, f a = .done b ∧ E' fault b t') :
    (p.bind f).Strict E' Q' (writes + more) t := by
  induction p generalizing t writes with
  | done a =>
    -- The first program makes no call, so all writing calls are those of the second.
    have post : (f a).Strict E' Q' more t := h
    exact post.mono (Nat.le_add_left more writes) fun _ _ post => post
  | call request next ih =>
    obtain ⟨room, stops, rest⟩ := h
    refine ⟨fun write => Nat.add_pos_left (room write) more, fun fault => ?_, ?_⟩
    · -- The first program ends here, and the second has nothing left to do.
      obtain ⟨a, ends, post⟩ := stops fault
      obtain ⟨b, ends', post'⟩ := stop fault a t post
      have ends : (next (.error fault)).bind f = .done b := by rw [ends]; exact ends'
      exact ⟨b, ends, post'⟩
    · have rest := ih _ rest
      refine rest.mono ?_ fun _ _ post => post
      split
      · next write =>
        have := room write
        omega
      · exact Nat.le_refl _

/-- A run of a strict program ends without a fault, or as is fixed for the fault, and makes no more
    writing calls than it is said to. -/
theorem Strict.runFaulty (h : p.Strict E Q writes t) (faults : Store.FaultSchedule) :
    ((p.exchanges faults t).filter Store.Exchange.isWrite).length ≤ writes ∧
      ((∀ e ∈ p.exchanges faults t, e.fault = none) ∧
          Q (p.runFaulty faults t).1 (p.runFaulty faults t).2 ∨
        ∃ fault, E fault (p.runFaulty faults t).1 (p.runFaulty faults t).2) := by
  induction p generalizing t writes faults with
  | done a => exact ⟨Nat.zero_le _, .inl ⟨nofun, h⟩⟩
  | call request next ih =>
    obtain ⟨room, stops, rest⟩ := h
    rcases runFaulty_call request next faults t with ⟨fault, after, -, run, made⟩ | ⟨run, made⟩
    · -- The call fails, and nothing comes behind it.
      obtain ⟨a, ends, post⟩ := stops fault
      rw [run, made, ends]
      refine ⟨?_, .inr ⟨fault, post⟩⟩
      by_cases write : request.kind = .write
      · have := room write
        simp [exchanges, Store.Exchange.isWrite, write]
        omega
      · simp [exchanges, Store.Exchange.isWrite, write]
    · obtain ⟨count, ending⟩ := ih _ rest faults.tail
      rw [run, made]
      constructor
      · by_cases write : request.kind = .write
        · have := room write
          rw [if_pos write] at count
          rw [List.filter_cons_of_pos (by simpa [Store.Exchange.isWrite] using write),
            List.length_cons]
          omega
        · rw [if_neg write] at count
          rwa [List.filter_cons_of_neg (by simpa [Store.Exchange.isWrite] using write)]
      · refine ending.imp_left fun ⟨unfailed, post⟩ => ⟨?_, post⟩
        intro e he
        rcases List.mem_cons.1 he with rfl | he
        · rfl
        · exact unfailed e he

/-! ## One write at last -/

/-- On this table a program reads, and it ends as `R` says, or it makes one writing call, the last
    of its calls, and ends as `W` says.  A call that fails is the last one too, and the program ends
    as `E` says. -/
def Commits (E : StoreFault → α → Prop) (R : α → Prop) (W : α → Table Bytes → Prop)
    (t : Table Bytes) : StoreProgram α → Prop
  | .done a => R a
  | .call request next =>
    (∀ fault, ∃ a, next (.error fault) = .done a ∧ E fault a) ∧
      if request.kind = .write then
        ∃ a, next (.ok (t.answer request)) = .done a ∧ W a (t.after request)
      else (next (.ok (t.answer request))).Commits E R W t

section Commits

variable {E : StoreFault → α → Prop} {R : α → Prop} {W : α → Table Bytes → Prop}
  {E' : StoreFault → β → Prop} {R' : β → Prop} {W' : β → Table Bytes → Prop}
  {p : StoreProgram α} {f : α → StoreProgram β} {t : Table Bytes}

theorem after_of_not_write {request : Store.Call} (h : request.kind ≠ .write) :
    t.after request = t := by
  cases request with
  | write batch => exact absurd rfl h
  | _ => rfl

/-- Work that commits makes one writing call at most. -/
theorem Commits.strict (h : p.Commits E R W t) :
    p.Strict (fun x a t' => E x a ∧ t' = t) (fun a t' => R a ∧ t' = t ∨ W a t') 1 t := by
  induction p with
  | done a => exact .inl ⟨h, rfl⟩
  | call request next ih =>
    obtain ⟨stops, rest⟩ := h
    refine ⟨fun _ => Nat.one_pos, fun fault => ?_, ?_⟩
    · obtain ⟨a, ends, post⟩ := stops fault
      exact ⟨a, ends, post, rfl⟩
    by_cases write : request.kind = .write
    · rw [if_pos write] at rest
      obtain ⟨a, ends, post⟩ := rest
      rw [ends]
      exact .inr post
    · rw [if_neg write] at rest
      rw [if_neg write, after_of_not_write write]
      exact ih _ rest

/-- Work that only reads, before work that commits. -/
theorem Strict.bind_commits {E₀ : StoreFault → α → Table Bytes → Prop}
    (h : p.Strict E₀ (fun a t' => (f a).Commits E' R' W' t') 0 t)
    (stop : ∀ fault a, E₀ fault a t → ∃ b, f a = .done b ∧ E' fault b) :
    (p.bind f).Commits E' R' W' t := by
  induction p with
  | done a => exact h
  | call request next ih =>
    obtain ⟨room, stops, rest⟩ := h
    have reads : request.kind ≠ .write := fun write => absurd (room write) (Nat.lt_irrefl 0)
    rw [if_neg reads, after_of_not_write reads] at rest
    refine ⟨fun fault => ?_, ?_⟩
    · obtain ⟨a, ends, post⟩ := stops fault
      obtain ⟨b, ends', post'⟩ := stop fault a post
      have ends : (next (.error fault)).bind f = .done b := by rw [ends]; exact ends'
      exact ⟨b, ends, post'⟩
    · rw [if_neg reads]
      exact ih _ rest

/-- Work that commits, before work without calls. -/
theorem Commits.bind_done (h : p.Commits E R W t)
    (fails : ∀ x a, E x a → ∃ b, f a = .done b ∧ E' x b)
    (reads : ∀ a, R a → ∃ b, f a = .done b ∧ R' b)
    (writes : ∀ a u, W a u → ∃ b, f a = .done b ∧ W' b u) : (p.bind f).Commits E' R' W' t := by
  induction p with
  | done a =>
    obtain ⟨b, ends, post⟩ := reads a h
    show (f a).Commits E' R' W' t
    rw [ends]
    exact post
  | call request next ih =>
    obtain ⟨stops, rest⟩ := h
    refine ⟨fun fault => ?_, ?_⟩
    · obtain ⟨a, ends, post⟩ := stops fault
      obtain ⟨b, ends', post'⟩ := fails fault a post
      have ends : (next (.error fault)).bind f = .done b := by rw [ends]; exact ends'
      exact ⟨b, ends, post'⟩
    by_cases write : request.kind = .write
    · rw [if_pos write] at rest
      obtain ⟨a, ends, post⟩ := rest
      obtain ⟨b, ends', post'⟩ := writes a _ post
      rw [if_pos write]
      have ends : (next (.ok (t.answer request))).bind f = .done b := by rw [ends]; exact ends'
      exact ⟨b, ends, post'⟩
    · rw [if_neg write] at rest
      rw [if_neg write]
      exact ih _ rest

theorem Commits.mono {R' : α → Prop} {W' : α → Table Bytes → Prop} (h : p.Commits E R W t)
    (reads : ∀ a, R a → R' a) (writes : ∀ a u, W a u → W' a u) : p.Commits E R' W' t := by
  rw [← Program.bind_done p]
  exact h.bind_done (fun _ a post => ⟨a, rfl, post⟩) (fun a post => ⟨a, rfl, reads a post⟩)
    fun a u post => ⟨a, rfl, writes a u post⟩

end Commits

end Program

end SlashingGuard
