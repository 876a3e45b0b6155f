import SlashingGuard.Proofs.Guard.Requests
import SlashingGuard.Signer.Loop

/-! # The timetable of prunes

    When the prunes of a schedule start is decided by the lengths of the
    prunes alone: each is due after the one before it, and starts then or when
    that one has ended.  A loop keeps to this timetable whatever else happens
    to it.  Neither what came of a prune nor a value that lets it go on moves a
    start, and a loop that has stopped starts nothing. -/

namespace SlashingGuard.Schedule

/-! ## Planned starts -/

section Planned

variable (s : Schedule) (next : Ticker) (busy : Nat → Duration)

/-- When the `n`th prune is due, and when the prunes before it have ended. -/
def plan : Nat → Nat × Nat
  | 0 => (s.firstDue, 0)
  | n + 1 =>
    let (due, free) := plan n
    (next due (max due free), max due free + (busy n).nanos)

/-- When the `n`th prune starts. -/
def planned (n : Nat) : Nat := max (plan s next busy n).1 (plan s next busy n).2

theorem planned_zero : planned s next busy 0 = s.firstDue := Nat.max_eq_left (Nat.zero_le _)

theorem due_succ (n : Nat) :
    (plan s next busy (n + 1)).1 = next (plan s next busy n).1 (planned s next busy n) := rfl

theorem free_succ (n : Nat) :
    (plan s next busy (n + 1)).2 = planned s next busy n + (busy n).nanos := rfl

/-- A prune starts when the one before it has ended, or later. -/
theorem planned_apart (n : Nat) :
    planned s next busy n + (busy n).nanos ≤ planned s next busy (n + 1) :=
  free_succ s next busy n ▸ Nat.le_max_right _ _

theorem planned_mono : Monotone (planned s next busy) :=
  monotone_nat_of_le_succ fun n => Nat.le_of_add_right_le (planned_apart s next busy n)

end Planned

/-- A ticker that ticks once an interval; a tick that is taken late by more than the tolerance puts
    the next one off to a full interval after itself. -/
def Delays (next : Ticker) (interval : Nat) : Prop :=
  ∀ due taken,
    next due taken = (if due + tolerance.nanos < taken then taken else due) + interval

section Delays

variable {s : Schedule} {next : Ticker} (busy : Nat → Duration) {interval : Nat}

/-- From one tick to the next it is due at least an interval later. -/
theorem Delays.due_le (delays : Delays next interval) (n k : Nat) :
    (plan s next busy n).1 + k * interval ≤ (plan s next busy (n + k)).1 := by
  induction k with
  | zero => simp
  | succ k ih =>
    have late : (plan s next busy (n + k)).1 ≤ planned s next busy (n + k) := Nat.le_max_left _ _
    rw [← Nat.add_assoc, due_succ, delays, Nat.add_one_mul]
    split <;> omega

/-- Any number of intervals lies between the starts of as many prunes, but for the tolerance: prunes
    that are late are not made up for. -/
theorem Delays.planned_le (delays : Delays next interval) (n k : Nat) :
    planned s next busy n + k * interval ≤ planned s next busy (n + k) + tolerance.nanos := by
  cases k with
  | zero => simp
  | succ k =>
    -- Behind the first start the dues are whole intervals apart, so the tolerance is lost once only.
    have due := delays.due_le (s := s) busy (n + 1) k
    have start : (plan s next busy (n + 1 + k)).1 ≤ planned s next busy (n + 1 + k) :=
      Nat.le_max_left _ _
    -- A start that is late moves the next one; one that is not is early by the tolerance at most.
    have first : planned s next busy n + interval ≤
        (plan s next busy (n + 1)).1 + tolerance.nanos := by
      rw [due_succ, delays]
      split <;> omega
    rw [Nat.add_one_mul, show n + (k + 1) = n + 1 + k by omega]
    omega

end Delays

/-! ## Loops keep to the plan -/

/-- What a loop can see that ends it: the value that was sent last is a stop, or nothing more will
    be sent. -/
def Channel.TellsStop (c : Channel) : Prop :=
  c.unseen = true ∧ c.stop = true ∨ c.unseen = false ∧ c.isOpen = false

namespace Loop

/-- The moment up to which a loop has looked at its ticker: now, or when it stopped. -/
def horizon (l : Loop) : Nat :=
  match l.phase with
  | .stopped moment => moment
  | _ => l.now

section Runs

variable {s : Schedule} {next : Ticker} {busy : Nat → Duration}

/-- What no move takes away stays through a run. -/
theorem run_keeps {P : Loop → Prop}
    (keeps : ∀ l l' move, P l → l.step next busy move = some l' → P l') {l l' : Loop} (h : P l)
    {moves : List Move} (made : l.run next busy moves = some l') : P l' := by
  induction moves generalizing l with
  | nil =>
    obtain rfl := Option.some.inj made
    exact h
  | cons move moves ih =>
    rw [Loop.run, List.foldlM_cons, Option.bind_eq_bind, Option.bind_eq_some_iff] at made
    obtain ⟨middle, first, rest⟩ := made
    exact ih (keeps l middle move h first) rest

/-- A loop has started what was planned and nothing else: up to its horizon it has missed nothing,
    and behind it it has done nothing.  It is in its last prune, or behind it. -/
structure OnPlan (s : Schedule) (next : Ticker) (busy : Nat → Duration) (l : Loop) : Prop where
  started : l.started = (List.range l.started.length).map (planned s next busy)
  due : l.due = (plan s next busy l.started.length).1
  past : ∀ n < l.started.length, planned s next busy n ≤ l.horizon
  ahead : l.horizon ≤ planned s next busy l.started.length
  place : match l.phase with
    | .waiting => (plan s next busy l.started.length).2 ≤ l.now
    | .pruning ending => ending = (plan s next busy l.started.length).2 ∧ l.now ≤ ending
    | .stopped moment => moment ≤ l.now

theorem onPlan_begin (channel : Channel) : OnPlan s next busy (begin s channel) where
  started := rfl
  due := rfl
  past := nofun
  ahead := Nat.zero_le _
  place := Nat.le_refl 0

/-- A tick that is due behind the last prune starts the next one as planned. -/
theorem OnPlan.now_eq {l : Loop} (h : OnPlan s next busy l) (waiting : l.phase = .waiting)
    (ticks : l.due ≤ l.now) : l.now = planned s next busy l.started.length := by
  obtain ⟨-, due, -, ahead, place⟩ := h
  simp only [waiting, horizon] at ahead place
  have late : planned s next busy l.started.length ≤ l.now :=
    Nat.max_le.2 ⟨due ▸ ticks, place⟩
  exact Nat.le_antisymm ahead late

theorem OnPlan.tick {l : Loop} (h : OnPlan s next busy l) (waiting : l.phase = .waiting)
    (ticks : l.due ≤ l.now) : OnPlan s next busy { l with
      phase := .pruning (l.now + (busy l.started.length).nanos)
      due := next l.due l.now
      started := l.started ++ [l.now] } := by
  have now := h.now_eq waiting ticks
  obtain ⟨started, due, past, -, -⟩ := h
  have free := free_succ s next busy l.started.length
  have count : (l.started ++ [l.now]).length = l.started.length + 1 := List.length_append
  simp only [waiting, horizon] at past
  constructor
  case started =>
    dsimp only
    rw [count, List.range_succ, List.map_append, ← started, List.map_singleton, ← now]
  case due =>
    dsimp only
    rw [count, due_succ, ← now, due]
  case past =>
    intro n early
    dsimp only [horizon] at early ⊢
    rw [count, Nat.lt_succ_iff_lt_or_eq] at early
    rcases early with before | rfl
    · exact past n before
    · exact now.ge
  case ahead =>
    have apart := planned_apart s next busy l.started.length
    dsimp only [horizon]
    rw [count]
    omega
  case place =>
    dsimp only
    rw [count, free, ← now]
    exact ⟨rfl, Nat.le_add_right _ _⟩

theorem OnPlan.wait {l : Loop} (h : OnPlan s next busy l) {moment : Nat} (later : l.now ≤ moment)
    (idle : l.idlesUntil moment) : OnPlan s next busy { l with now := moment } := by
  obtain ⟨started, due, past, ahead, place⟩ := h
  cases phase : l.phase with
  | waiting =>
    simp only [phase, horizon, idlesUntil, Bool.and_eq_true, decide_eq_true_eq] at *
    have start : l.due ≤ planned s next busy l.started.length := due ▸ Nat.le_max_left _ _
    exact ⟨started, due, fun n early => (past n early).trans later, idle.1.trans start,
      place.trans later⟩
  | pruning ending =>
    simp only [phase, horizon, idlesUntil, decide_eq_true_eq] at *
    have start : ending ≤ planned s next busy l.started.length := place.1 ▸ Nat.le_max_right _ _
    exact ⟨started, due, fun n early => (past n early).trans later, idle.trans start, place.1, idle⟩
  | stopped moment =>
    simp only [phase, horizon] at *
    exact ⟨started, due, past, ahead, place.trans later⟩

/-- No move takes a loop off its plan. -/
theorem OnPlan.step {l l' : Loop} (h : OnPlan s next busy l) {move : Move}
    (made : l.step next busy move = some l') : OnPlan s next busy l' := by
  cases move <;>
    simp only [Loop.step, Option.ite_none_right_eq_some, Option.some.injEq] at made
  case wait moment =>
    obtain ⟨⟨later, idle⟩, rfl⟩ := made
    exact h.wait later idle
  -- The plan does not speak of the channel, nor of what came of a prune.
  case send stop =>
    obtain ⟨-, rfl⟩ := made
    exact ⟨h.started, h.due, h.past, h.ahead, h.place⟩
  case hangUp =>
    obtain ⟨-, rfl⟩ := made
    exact ⟨h.started, h.due, h.past, h.ahead, h.place⟩
  case tick =>
    obtain ⟨⟨waiting, ticks⟩, rfl⟩ := made
    exact h.tick waiting ticks
  case finish ending =>
    obtain ⟨pruning, rfl⟩ := made
    obtain ⟨started, due, past, ahead, place⟩ := h
    simp only [pruning, horizon] at past ahead place
    exact ⟨started, due, past, ahead, place.1.ge⟩
  case see =>
    obtain ⟨⟨waiting, -⟩, rfl⟩ := made
    obtain ⟨started, due, past, ahead, place⟩ := h
    simp only [waiting, horizon] at past ahead place
    cases l.channel.endsLoop with
    | true => exact ⟨started, due, past, ahead, Nat.le_refl _⟩
    | false => exact ⟨started, due, past, ahead, place⟩

/-- So a loop is on its plan whatever happened to it. -/
theorem OnPlan.run {l l' : Loop} (h : OnPlan s next busy l) {moves : List Move}
    (made : l.run next busy moves = some l') : OnPlan s next busy l' :=
  run_keeps (fun _ _ _ h first => h.step first) h made

/-- What was planned before the horizon has started. -/
theorem OnPlan.prompt {l : Loop} (h : OnPlan s next busy l) {n : Nat}
    (early : planned s next busy n < l.horizon) : n < l.started.length := by
  by_contra late
  have mono := planned_mono s next busy (Nat.le_of_not_lt late)
  have := h.ahead
  omega

/-! ## Stopping -/

/-- A loop that has stopped stays so and starts nothing. -/
theorem step_of_stopped {l l' : Loop} {moment : Nat} (stopped : l.phase = .stopped moment)
    {move : Move} (made : l.step next busy move = some l') :
    l'.phase = .stopped moment ∧ l'.started = l.started := by
  cases move <;>
    simp only [Loop.step, stopped, reduceCtorEq, false_and, if_false, Option.ite_none_right_eq_some,
      Option.some.injEq] at made
  case wait => obtain ⟨-, rfl⟩ := made; exact ⟨rfl, rfl⟩
  case send => obtain ⟨-, rfl⟩ := made; exact ⟨rfl, rfl⟩
  case hangUp => obtain ⟨-, rfl⟩ := made; exact ⟨rfl, rfl⟩

theorem run_of_stopped {l l' : Loop} {moment : Nat} (stopped : l.phase = .stopped moment)
    {moves : List Move} (made : l.run next busy moves = some l') :
    l'.phase = .stopped moment ∧ l'.started = l.started := by
  refine run_keeps (P := fun m => m.phase = .stopped moment ∧ m.started = l.started) ?_
    ⟨stopped, rfl⟩ made
  intro m m' move ⟨stopped, same⟩ first
  obtain ⟨stopped', same'⟩ := step_of_stopped stopped first
  exact ⟨stopped', same'.trans same⟩

/-- A loop that sees its channel stops if it is told to, and goes on if it is not. -/
theorem phase_see {l l' : Loop} (made : l.step next busy .see = some l') :
    l'.phase = .stopped l.now ∧ l.channel.TellsStop ∨
      l'.phase = .waiting ∧ ¬ l.channel.TellsStop := by
  simp only [Loop.step, Option.ite_none_right_eq_some, Option.some.injEq] at made
  obtain ⟨⟨-, news⟩, rfl⟩ := made
  generalize l.channel = channel at news ⊢
  obtain ⟨stop, unseen, isOpen⟩ := channel
  cases stop <;> cases unseen <;> cases isOpen <;>
    simp_all [Channel.TellsStop, Channel.hasNews, Channel.endsLoop]

/-- A loop stops only when it sees that it is told to. -/
theorem told_of_stopped {l l' : Loop} {move : Move} (made : l.step next busy move = some l')
    {moment : Nat} (stopped : l'.phase = .stopped moment) :
    l.phase = .stopped moment ∨ move = .see ∧ l.now = moment ∧ l.channel.TellsStop := by
  cases move
  case see =>
    rcases phase_see made with ⟨now, told⟩ | ⟨waiting, -⟩
    · exact .inr ⟨rfl, Phase.stopped.inj (now.symm.trans stopped), told⟩
    · exact nomatch waiting.symm.trans stopped
  all_goals
    simp only [Loop.step, Option.ite_none_right_eq_some, Option.some.injEq] at made
    obtain ⟨-, rfl⟩ := made
    first
    | exact .inl stopped
    | exact nomatch stopped

/-! ## Going on -/

theorem run_append (l : Loop) (moves more : List Move) :
    l.run next busy (moves ++ more) =
      (l.run next busy moves).bind fun l' => l'.run next busy more :=
  List.foldlM_append

/-- A loop can come through one more prune with an ending, and wait again. -/
def GoesOn (next : Ticker) (busy : Nat → Duration) (l : Loop) (ending : Ending) : Prop :=
  ∃ moves l', l.run next busy moves = some l' ∧ l'.phase = .waiting ∧ l'.channel = l.channel ∧
    l'.started.length = l.started.length + 1 ∧ l'.endings = l.endings ++ [ending]

/-- A loop that is due comes through its prune, however that ends. -/
theorem goesOn_due (next : Ticker) (busy : Nat → Duration) {l : Loop}
    (waiting : l.phase = .waiting) (ticks : l.due ≤ l.now) (ending : Ending) :
    GoesOn next busy l ending := by
  have prunes : l.run next busy
      [.tick, .wait (l.now + (busy l.started.length).nanos), .finish ending] = some { l with
        now := l.now + (busy l.started.length).nanos
        due := next l.due l.now
        started := l.started ++ [l.now]
        endings := l.endings ++ [ending] } := by
    simp [run, Loop.step, idlesUntil, waiting, ticks]
  exact ⟨_, _, prunes, waiting, rfl, List.length_append, rfl⟩

/-- So does a loop without news, when time has passed. -/
theorem goesOn_quiet (next : Ticker) (busy : Nat → Duration) {l : Loop}
    (waiting : l.phase = .waiting) (quiet : l.channel.hasNews = false) (ending : Ending) :
    GoesOn next busy l ending := by
  by_cases ticks : l.due ≤ l.now
  · exact goesOn_due next busy waiting ticks ending
  · have early : l.now ≤ l.due := Nat.le_of_not_le ticks
    have idle : l.idlesUntil l.due := by simp [idlesUntil, waiting, quiet]
    have waits : l.run next busy [.wait l.due] = some { l with now := l.due } := by
      simp [run, Loop.step, early, idle]
    obtain ⟨moves, l', prunes, facts⟩ :=
      goesOn_due next busy (l := { l with now := l.due }) waiting (Nat.le_refl _) ending
    refine ⟨[.wait l.due] ++ moves, l', ?_, facts⟩
    rw [run_append, waits]
    exact prunes

/-- So every prune of the plan is run, whatever came of those before it. -/
theorem reaches {channel : Channel} (quiet : channel.hasNews = false) (endings : Nat → Ending)
    (k : Nat) : ∃ moves l, (begin s channel).run next busy moves = some l ∧ l.phase = .waiting ∧
      l.channel = channel ∧ l.started = (List.range k).map (planned s next busy) ∧
      l.endings = (List.range k).map endings := by
  induction k with
  | zero => exact ⟨[], _, rfl, rfl, rfl, rfl, rfl⟩
  | succ k ih =>
    obtain ⟨moves, l, reached, waiting, same, started, ended⟩ := ih
    obtain ⟨more, l', goes, waiting', same', count, ended'⟩ :=
      goesOn_quiet next busy waiting (same ▸ quiet) (endings k)
    have whole : (begin s channel).run next busy (moves ++ more) = some l' := by
      rw [run_append, reached]
      exact goes
    have length : l'.started.length = k + 1 := by
      rw [count, started, List.length_map, List.length_range]
    refine ⟨moves ++ more, l', whole, waiting', same'.trans same, ?_, ?_⟩
    · rw [((onPlan_begin channel).run whole).started, length]
    · rw [ended', ended, List.range_succ, List.map_append, List.map_singleton]

end Runs

end Loop

/-! ## The starts of a schedule -/

section Starts

variable {s : Schedule}

/-- The ticker of a schedule ticks once an interval, if that is no longer than the longest gap. -/
theorem delays_nextDue (short : s.interval.nanos ≤ longestGap.nanos) :
    Delays s.nextDue s.interval.nanos := by
  intro due taken
  rw [nextDue, gap, Nat.min_eq_left short]

/-- From the `n`th prune on, a schedule starts what is planned before it stops. -/
theorem startsFrom_eq (busy : Nat → Duration) (positive : 0 < s.interval.nanos) (stop n : Nat) :
    ∃ k, s.startsFrom busy stop n (plan s s.nextDue busy n).1 (plan s s.nextDue busy n).2 =
        (List.range' n k).map (planned s s.nextDue busy) ∧
      (∀ i < k, planned s s.nextDue busy (n + i) < stop) ∧
      stop ≤ planned s s.nextDue busy (n + k) := by
  -- The induction is on the time left: each prune is due later than the one before it.
  induction left : stop - (plan s s.nextDue busy n).1 using Nat.strong_induction_on
    generalizing n with
  | _ left' ih =>
    rw [startsFrom]
    by_cases early : planned s s.nextDue busy n < stop
    · have gap : 0 < s.gap := Nat.lt_min.2 ⟨positive, by decide⟩
      have later : (plan s s.nextDue busy n).1 < (plan s s.nextDue busy (n + 1)).1 := by
        rw [due_succ, nextDue]
        have : (plan s s.nextDue busy n).1 ≤ planned s s.nextDue busy n := Nat.le_max_left _ _
        split <;> omega
      have due : (plan s s.nextDue busy n).1 < stop :=
        Nat.lt_of_le_of_lt (Nat.le_max_left _ _) early
      obtain ⟨k, rest, before, behind⟩ := ih _ (by omega) (n + 1) rfl
      refine ⟨k + 1, ?_, ?_, ?_⟩
      · rw [dif_pos ⟨early, positive⟩, List.range'_succ, List.map_cons, ← rest]
        rfl
      · intro i among
        cases i with
        | zero => exact early
        | succ i =>
          have := before i (Nat.lt_of_succ_lt_succ among)
          rwa [show n + 1 + i = n + (i + 1) by omega] at this
      · rwa [show n + 1 + k = n + (k + 1) by omega] at behind
    · refine ⟨0, ?_, nofun, Nat.le_of_not_lt early⟩
      rw [dif_neg fun both => early both.1]
      rfl

theorem starts_eq (busy : Nat → Duration) (positive : 0 < s.interval.nanos) (stop : Nat) :
    ∃ k, s.starts busy stop = (List.range k).map (planned s s.nextDue busy) ∧
      ∀ n, n < k ↔ planned s s.nextDue busy n < stop := by
  obtain ⟨k, starts, before, behind⟩ := startsFrom_eq busy positive stop 0
  refine ⟨k, ?_, fun n => ⟨fun among => ?_, fun early => ?_⟩⟩
  · rw [List.range_eq_range']
    exact starts
  · have := before n among
    rwa [Nat.zero_add] at this
  · by_contra late
    have mono := planned_mono s s.nextDue busy (Nat.le_of_not_lt late)
    rw [Nat.zero_add] at behind
    omega

end Starts

/-! ## Prunes in turn -/

section Prunes

variable {σ : Type} (serve : (call : Store.calls.Call) → σ → Store.calls.Reply call × σ)

/-- One prune of a service over a store: what came of it, and what it leaves of both. -/
def pruneOnce (c : Context) (t : σ) : Except GuardError PruneSummary × Context × σ :=
  let ((result, c'), t') := Program.run serve (Guard.prune.run.run c) t
  (result, c', t')

/-- What `n` prunes leave, each of them run on what the one before it left. -/
def pruned : Nat → Context → σ → Context × σ
  | 0, c, t => (c, t)
  | n + 1, c, t =>
    let (_, c', t') := pruneOnce serve c t
    pruned n c' t'

/-- The prune that follows `n` others. -/
def nthPrune (n : Nat) (c : Context) (t : σ) : Except GuardError PruneSummary × Context × σ :=
  pruneOnce serve (pruned serve n c t).1 (pruned serve n c t).2

/-- All prunes are run, one for each moment, and whatever comes of one, the next is run on what it
    left. -/
theorem run_pruneAt (moments : List Nat) (c : Context) (t : σ) :
    Program.run serve ((pruneAt moments).run c) t =
      ((moments.mapIdx fun n moment => (moment, (nthPrune serve n c t).1),
        (pruned serve moments.length c t).1), (pruned serve moments.length c t).2) := by
  induction moments generalizing c t with
  | nil => rfl
  | cons moment rest ih =>
    simp only [pruneAt, StateT.run_bind, Program.bind_eq, Program.run_bind]
    rw [List.mapIdx_cons]
    have next := ih (pruneOnce serve c t).2.1 (pruneOnce serve c t).2.2
    exact congrArg (fun out => (((moment, (pruneOnce serve c t).1) :: out.1.1, out.1.2), out.2)) next

end Prunes

/-! ## The timetable -/

/-- When the prunes of a schedule start, and what becomes of them, behind a ticker that ticks once
    an interval and for prunes of any lengths. -/
structure Timetable (s : Schedule) (next : Ticker) (busy : Nat → Duration) : Prop where
  /-- The first prune starts at once or after one interval. -/
  first : planned s next busy 0 = if s.atBoot then 0 else s.interval.nanos
  /-- No prune starts before the one before it has ended. -/
  apart : ∀ n, planned s next busy n + (busy n).nanos ≤ planned s next busy (n + 1)
  /-- From each prune to the next it is an interval, but for the tolerance; from each to the one
      after `k` others as many intervals, so none is made up for. -/
  noBurst : ∀ n k,
    planned s next busy n + k * s.interval.nanos ≤ planned s next busy (n + k) + tolerance.nanos
  /-- Whatever came of the prunes and whatever was sent, a loop has started just these prunes: all
      up to now, or up to the moment at which it stopped. -/
  started : ∀ (channel : Channel) (moves : List Move) (l : Loop),
    (Loop.begin s channel).run next busy moves = some l →
    l.started = (List.range l.started.length).map (planned s next busy) ∧
      ∀ n, (planned s next busy n < l.horizon → n < l.started.length) ∧
        (n < l.started.length → planned s next busy n ≤ l.horizon)
  /-- Nothing that prunes end in stops the loop. -/
  reached : ∀ channel : Channel, channel.hasNews = false → ∀ (endings : Nat → Ending) (k : Nat),
    ∃ moves l, (Loop.begin s channel).run next busy moves = some l ∧ l.phase = .waiting ∧
      l.channel = channel ∧ l.started = (List.range k).map (planned s next busy) ∧
      l.endings = (List.range k).map endings
  /-- A loop stops when it sees that it is told to, and for no other reason. -/
  stops : ∀ (l l' : Loop) (move : Move), l.step next busy move = some l' →
    (move = .see → l.channel.TellsStop → l'.phase = .stopped l.now) ∧
    ∀ moment, l'.phase = .stopped moment →
      l.phase = .stopped moment ∨ move = .see ∧ l.now = moment ∧ l.channel.TellsStop
  /-- From then on no prune starts. -/
  silent : ∀ (l l' : Loop) (moment : Nat) (moves : List Move), l.phase = .stopped moment →
    l.run next busy moves = some l' → l'.phase = .stopped moment ∧ l'.started = l.started
  /-- The moments of the schedule are these starts, if the interval is no longer than the longest
      gap. -/
  moments : s.interval.nanos ≤ longestGap.nanos → ∀ stop, ∃ k,
    s.starts busy stop = (List.range k).map (planned s next busy) ∧
      ∀ n, n < k ↔ planned s next busy n < stop
  /-- At each moment a prune is run, whatever came of those before it, on the service and the store
      that they left; what is kept of it is what came of it. -/
  run : ∀ {σ : Type} (serve : (call : Store.calls.Call) → σ → Store.calls.Reply call × σ)
    (moments : List Nat) (c : Context) (t : σ),
    let ((results, c'), t') := Program.run serve ((pruneAt moments).run c) t
    results = (moments.mapIdx fun n moment => (moment, (nthPrune serve n c t).1)) ∧
      (c', t') = pruned serve moments.length c t

theorem keeps_timetable {s : Schedule} (positive : 0 < s.interval.nanos) {next : Ticker}
    (delays : Delays next s.interval.nanos) (busy : Nat → Duration) : Timetable s next busy where
  first := planned_zero s next busy
  apart := planned_apart s next busy
  noBurst := delays.planned_le busy
  started channel moves l made := by
    have plan := (Loop.onPlan_begin channel).run made
    exact ⟨plan.started, fun n => ⟨plan.prompt, plan.past n⟩⟩
  reached _ := Loop.reaches
  stops l l' move made := by
    refine ⟨?_, fun moment => Loop.told_of_stopped made⟩
    rintro rfl told
    exact ((Loop.phase_see made).resolve_right fun goes => goes.2 told).1
  silent _ _ _ _ stopped := Loop.run_of_stopped stopped
  moments short stop := by
    -- The ticker is decided by the interval, so it is that of the schedule.
    obtain rfl : next = s.nextDue := by
      funext due taken
      rw [delays, delays_nextDue short]
    exact starts_eq busy positive stop
  run serve moments c t := by
    rw [run_pruneAt]
    exact ⟨rfl, rfl⟩

/-- A prune a minute, the first at once and for a hundred seconds, which fails.  The second one is
    late and starts when that has ended, the third a minute after the second.  While it runs a stop
    is sent and taken back, then a stop is sent for good, and the loop sees that. -/
theorem keeps_timetable_everyMinute :
    let s : Schedule := ⟨.ofSeconds 60, true⟩
    let busy : Nat → Duration := fun n => if n = 0 then .ofSeconds 100 else .ofMillis 3
    let moves : List Move := [.tick, .wait 100000000000, .finish (.failed .importUnsupported),
      .tick, .wait 100003000000, .finish (.pruned .empty), .wait 160000000000, .tick,
      .send true, .wait 160003000000, .send false, .finish .panicked, .see, .wait 170000000000,
      .send true, .see, .wait 300000000000]
    0 < s.interval.nanos ∧ Delays s.nextDue s.interval.nanos ∧
      s.starts busy 170000000000 = [0, 100000000000, 160000000000] ∧
      ∃ l, (Loop.begin s ⟨false, false, true⟩).run s.nextDue busy moves = some l ∧
        l.started = [0, 100000000000, 160000000000] ∧ l.phase = .stopped 170000000000 := by
  intro s busy moves
  have positive : 0 < s.interval.nanos := by decide
  have delays : Delays s.nextDue s.interval.nanos := delays_nextDue (by decide)
  have timetable := keeps_timetable positive delays busy
  have plan : (List.range 3).map (planned s s.nextDue busy) = [0, 100000000000, 160000000000] := by
    decide
  obtain ⟨k, starts, among⟩ := timetable.moments (by decide) 170000000000
  obtain rfl : k = 3 := by
    have third := (among 2).2 (by decide)
    have fourth := mt (among 3).1 (by decide)
    omega
  refine ⟨positive, delays, starts.trans plan, ?_⟩
  have ends : ((Loop.begin s ⟨false, false, true⟩).run s.nextDue busy moves).map
      (fun l => (l.started.length, l.phase)) = some (3, .stopped 170000000000) := by
    decide +kernel
  obtain ⟨l, made, same⟩ := Option.map_eq_some_iff.1 ends
  obtain ⟨three, stopped⟩ := Prod.mk.inj same
  have started := (timetable.started _ _ _ made).1
  rw [three, plan] at started
  exact ⟨l, made, started, stopped⟩

end SlashingGuard.Schedule
