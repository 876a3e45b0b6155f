import SlashingGuard.Guard.Basic

/-! # The pruning schedule

    Prunes start at the beginning or one interval after it, and then once an
    interval, until the schedule is told to stop.  A prune that starts late by
    more than a tolerance moves the next one to a full interval after itself,
    so that late prunes are never made up for in a burst.  Prunes do not
    overlap: one that is due while another runs starts when that has ended.
    Moments are counted in nanoseconds since the schedule began.

    The clock that ticks for a schedule does not reach further than thirty
    years ahead of a tick.  Behind the first prune it ticks then if the
    interval is longer; that is a trait of the clock, not of the schedule. -/

namespace SlashingGuard

/-- When prunes run. -/
structure Schedule where
  interval : Duration
  atBoot : Bool
  deriving DecidableEq, Repr

namespace Schedule

/-- How late a prune may start without moving the next one. -/
def tolerance : Duration := .ofMillis 5

/-- How far ahead of a tick the clock reaches, thirty years of 365 days. -/
def longestGap : Duration := .ofSeconds (30 * 365 * 24 * 60 * 60)

/-- From one tick of the clock to the next, in nanoseconds: the interval, as far as the clock
    reaches. -/
def gap (s : Schedule) : Nat := min s.interval.nanos longestGap.nanos

/-- When the first prune is due. -/
def firstDue (s : Schedule) : Nat := if s.atBoot then 0 else s.interval.nanos

/-- When the prune is due that follows one due at `due` and started at `start`. -/
def nextDue (s : Schedule) (due start : Nat) : Nat :=
  (if due + tolerance.nanos < start then start else due) + s.gap

/-- The starts of the prunes from the `n`th on, before `stop`.  The `n`th is due at `due`, cannot
    start before `free`, and takes `busy n`. -/
def startsFrom (s : Schedule) (busy : Nat → Duration) (stop : Nat) (n : Nat)
    (due free : Nat) : List Nat :=
  if h : max due free < stop ∧ 0 < s.interval.nanos then
    -- The next prune is due later than this one, so the starts come to an end.
    have : stop - s.nextDue due (max due free) < stop - due := by
      simp only [nextDue, gap, longestGap, Duration.ofSeconds]
      split <;> omega
    max due free :: startsFrom s busy stop (n + 1) (s.nextDue due (max due free))
      (max due free + (busy n).nanos)
  else []
termination_by stop - due

/-- The starts of all prunes before `stop`, when the `n`th takes `busy n`. -/
def starts (s : Schedule) (busy : Nat → Duration) (stop : Nat) : List Nat :=
  s.startsFrom busy stop 0 s.firstDue 0

/-! ## Signals -/

/-- What is sent to a running schedule. -/
inductive Signal where
  | stop
  | goOn
  /-- Nothing will be sent any more. -/
  | hangUp
  deriving DecidableEq, Repr

/-- The moment at which a schedule stops: at the first stop that is not taken back at once, or
    when nothing more can be sent.  After the last signal nothing is. -/
def stopMoment : List (Nat × Signal) → Nat
  | [] => 0
  | [(moment, _)] => moment
  | (moment, .hangUp) :: _ => moment
  | (moment, .goOn) :: rest => max moment (stopMoment rest)
  | (moment, .stop) :: (later, signal) :: rest =>
    if moment < later then moment else max moment (stopMoment ((later, signal) :: rest))

/-! ## Running -/

/-- Runs one prune for each moment, and keeps what came of it; an error does not end the
    schedule. -/
def pruneAt : List Nat →
    StateT Context (Program Store.calls) (List (Nat × Except GuardError PruneSummary))
  | [] => return []
  | moment :: rest => do
    let result ← Guard.prune.run
    return (moment, result) :: (← pruneAt rest)

end Schedule

end SlashingGuard
