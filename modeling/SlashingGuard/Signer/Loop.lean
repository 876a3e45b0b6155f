import SlashingGuard.Signer.Schedule

/-! # The loop behind the schedule

    A loop waits for the next tick of a ticker, or for news on a channel that
    can tell it to stop, and takes what is there; where both are, it takes
    either.  At a tick it runs a prune and looks at nothing else until that has
    ended, whatever came of it.  Time passes only while the loop has nothing to
    take.  Only the last value that was sent can be seen, and that nothing more
    will be sent is news once that value was seen. -/

namespace SlashingGuard.Schedule

/-! ## The channel -/

/-- What a loop sees of its channel: the value sent last, whether it has yet to be seen, and whether
    another one can be sent. -/
structure Channel where
  stop : Bool
  unseen : Bool
  isOpen : Bool
  deriving DecidableEq, Repr

/-- Whether there is anything to see. -/
def Channel.hasNews (c : Channel) : Bool := c.unseen || !c.isOpen

/-- Whether what there is to see ends the loop. -/
def Channel.endsLoop (c : Channel) : Bool := c.stop || !c.unseen

/-! ## Loops -/

/-- What came of a prune. -/
inductive Ending where
  | pruned (summary : PruneSummary)
  | failed (error : GuardError)
  | panicked
  deriving Repr

/-- What a loop is doing. -/
inductive Phase where
  | waiting
  /-- It waits for a prune, which ends at a moment. -/
  | pruning (ending : Nat)
  /-- It has stopped at a moment. -/
  | stopped (moment : Nat)
  deriving DecidableEq, Repr

/-- A loop at a moment, and what it has done so far. -/
structure Loop where
  now : Nat
  /-- When the ticker ticks next. -/
  due : Nat
  phase : Phase
  channel : Channel
  /-- The starts of the prunes, in order. -/
  started : List Nat
  /-- What came of those that have ended, in order. -/
  endings : List Ending
  deriving Repr

/-- When a ticker ticks after a tick that was due at one moment and taken at another. -/
abbrev Ticker : Type := (due taken : Nat) → Nat

/-- What can happen. -/
inductive Move where
  /-- Time passes up to a moment. -/
  | wait (moment : Nat)
  /-- A value is sent. -/
  | send (stop : Bool)
  /-- Nothing will be sent any more. -/
  | hangUp
  /-- The loop takes a tick and starts a prune. -/
  | tick
  /-- The prune ends. -/
  | finish (ending : Ending)
  /-- The loop sees the channel. -/
  | see
  deriving Repr

namespace Loop

/-- The loop of a schedule when it begins. -/
def begin (s : Schedule) (channel : Channel) : Loop where
  now := 0
  due := s.firstDue
  phase := .waiting
  channel
  started := []
  endings := []

/-- Whether the loop has nothing to take before a moment. -/
def idlesUntil (l : Loop) (moment : Nat) : Bool :=
  match l.phase with
  | .waiting => decide (moment ≤ l.due) && !l.channel.hasNews
  | .pruning ending => moment ≤ ending
  | .stopped _ => true

/-- The loop behind a move, if that can be made.  The `n`th prune takes `busy n`. -/
def step (next : Ticker) (busy : Nat → Duration) (l : Loop) : Move → Option Loop
  | .wait moment =>
    if l.now ≤ moment ∧ l.idlesUntil moment then some { l with now := moment } else none
  -- A value that was sent before and not seen yet is lost.
  | .send stop =>
    if l.channel.isOpen then some { l with channel := { l.channel with stop, unseen := true } }
    else none
  | .hangUp =>
    if l.channel.isOpen then some { l with channel := { l.channel with isOpen := false } } else none
  | .tick =>
    if l.phase = .waiting ∧ l.due ≤ l.now then
      some { l with
        phase := .pruning (l.now + (busy l.started.length).nanos)
        due := next l.due l.now
        started := l.started ++ [l.now] }
    else none
  -- The loop makes nothing of what came of the prune.
  | .finish ending =>
    if l.phase = .pruning l.now then
      some { l with phase := .waiting, endings := l.endings ++ [ending] }
    else none
  | .see =>
    if l.phase = .waiting ∧ l.channel.hasNews then
      some { l with
        phase := if l.channel.endsLoop then .stopped l.now else .waiting
        channel := { l.channel with unseen := false } }
    else none

/-- The loop behind some moves, if they can be made one after the other. -/
def run (next : Ticker) (busy : Nat → Duration) (l : Loop) (moves : List Move) : Option Loop :=
  moves.foldlM (step next busy) l

end Loop

end SlashingGuard.Schedule
