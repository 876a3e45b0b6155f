/-! # Programs of calls

    A program is a finite tree of calls: it returns a value, or makes one
    call and goes on with the reply.  It says which calls are made in which
    order and nothing about who answers them, so one program runs against a
    table in memory, against a file, or against answers that fail at will, and
    two programs can be interleaved call by call. -/

namespace SlashingGuard

/-- A family of calls, each with the type of its reply. -/
structure Interface where
  Call : Type
  Reply : Call → Type

/-- A program over a family of calls. -/
inductive Program (ι : Interface) (α : Type) : Type where
  | done (value : α)
  | call (request : ι.Call) (next : ι.Reply request → Program ι α)

namespace Program

variable {ι κ : Interface} {α β σ : Type}

/-- One program after another. -/
def bind : Program ι α → (α → Program ι β) → Program ι β
  | .done value, f => f value
  | .call request next, f => .call request fun reply => (next reply).bind f

instance : Monad (Program ι) where
  pure := .done
  bind := bind

/-- The program that makes one call. -/
def ask (request : ι.Call) : Program ι (ι.Reply request) :=
  .call request .done

/-! ## Running -/

/-- Runs a program against a server with state: the value, and the state left. -/
def run (serve : (request : ι.Call) → σ → ι.Reply request × σ) : Program ι α → σ → α × σ
  | .done value, s => (value, s)
  | .call request next, s =>
    let (reply, s') := serve request s
    (next reply).run serve s'

/-- Runs a program against a server that acts in a monad. -/
def perform {m : Type → Type} [Monad m] (serve : (request : ι.Call) → m (ι.Reply request)) :
    Program ι α → m α
  | .done value => pure value
  | .call request next => do (next (← serve request)).perform serve

/-! ## Laws -/

@[simp] theorem pure_eq (a : α) : (pure a : Program ι α) = .done a := rfl

@[simp] theorem bind_eq (p : Program ι α) (f : α → Program ι β) : p >>= f = p.bind f := rfl

@[simp] theorem done_bind (a : α) (f : α → Program ι β) : (Program.done a).bind f = f a := rfl

@[simp] theorem call_bind (request : ι.Call) (next : ι.Reply request → Program ι α)
    (f : α → Program ι β) :
    (Program.call request next).bind f = .call request fun reply => (next reply).bind f := rfl

theorem bind_done (p : Program ι α) : p.bind .done = p := by
  induction p with
  | done value => rfl
  | call request next ih => simp [ih]

theorem bind_assoc {γ : Type} (p : Program ι α) (f : α → Program ι β) (g : β → Program ι γ) :
    (p.bind f).bind g = p.bind fun a => (f a).bind g := by
  induction p with
  | done value => rfl
  | call request next ih => simp [ih]

instance : LawfulMonad (Program ι) :=
  LawfulMonad.mk' _ bind_done (fun _ _ => rfl) bind_assoc

/-- Running one program after another runs the second from where the first stopped. -/
theorem run_bind (serve : (request : ι.Call) → σ → ι.Reply request × σ) (p : Program ι α)
    (f : α → Program ι β) (s : σ) :
    (p.bind f).run serve s = (f (p.run serve s).1).run serve (p.run serve s).2 := by
  induction p generalizing s with
  | done value => rfl
  | call request next ih => simp [run, ih]

end Program

/-- Where one attempt after another succeeds, both do. -/
theorem exists_of_bind_eq_ok {ε α β : Type} {x : Except ε α} {f : α → Except ε β} {b : β}
    (h : x >>= f = .ok b) : ∃ a, x = .ok a ∧ f a = .ok b := by
  cases x with
  | error e => contradiction
  | ok a => exact ⟨a, rfl, h⟩

end SlashingGuard
