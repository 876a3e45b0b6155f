import Mathlib.Order.Bounds.Basic
import SlashingGuard.Proofs.Ledger.Leaving
import SlashingGuard.Proofs.Ledger.Session

/-! # Floors are joined

    Raising a floor again and again leaves the largest of where it started
    and the candidates, in whatever order they came.  The three floors of a
    validator are raised independently of each other.  On a ledger the calls
    may be divided by commits in any way: what is stored is what the row in
    memory becomes, and each call gives the row that is read behind it. -/

namespace SlashingGuard

/-! ## One floor -/

namespace Floor

/-- A floor that started somewhere is the largest of its start and some candidates, and absent only
    where there is neither. -/
structure IsJoin (start : Floor) (candidates : List UInt64) (floor : Floor) : Prop where
  absent : floor = none ↔ start = none ∧ candidates = []
  greatest : ∀ n, floor = some n → IsGreatest {m | start = some m ∨ m ∈ candidates} n

variable {start floor : Floor} {candidates candidates' : List UInt64}

theorem isJoin_nil (start : Floor) : start.IsJoin [] start where
  absent := by simp
  greatest n h := by
    refine ⟨.inl h, ?_⟩
    rintro m (hm | hm)
    · rw [h] at hm
      rw [Option.some.inj hm]
      exact UInt64.le_refl m
    · contradiction

/-- The first candidate counts as if the floor had started where it is raised to. -/
theorem IsJoin.cons {candidate : UInt64} (h : IsJoin (start.raise candidate) candidates floor) :
    start.IsJoin (candidate :: candidates) floor where
  absent := by
    have raised : start.raise candidate ≠ none := by
      rw [raise_eq]
      exact Option.some_ne_none _
    constructor
    · intro none
      exact absurd (h.absent.1 none).1 raised
    · rintro ⟨-, empty⟩
      contradiction
  greatest n hn := by
    obtain ⟨member, upper⟩ := h.greatest n hn
    rw [raise_eq] at member upper
    have reached : start.raised candidate ≤ n := upper (.inl rfl)
    constructor
    · -- A raised floor stands at its start or at the candidate.
      rcases member with here | later
      · obtain rfl := Option.some.inj here
        cases start with
        | none => exact .inr List.mem_cons_self
        | some current =>
          by_cases lt : current < candidate
          · simp [raised, lt]
          · simp [raised, lt]
      · exact .inr (List.mem_cons_of_mem _ later)
    · rintro m (started | member)
      · subst started
        exact UInt64.le_trans (le_raised m candidate) reached
      · rcases List.mem_cons.1 member with rfl | later
        · exact UInt64.le_trans (candidate_le_raised start m) reached
        · exact upper (.inr later)

/-- The order of the candidates does not matter. -/
theorem IsJoin.eq_of_perm {floor' : Floor} (h : start.IsJoin candidates floor)
    (h' : start.IsJoin candidates' floor') (perm : candidates'.Perm candidates) :
    floor' = floor := by
  have same : {m | start = some m ∨ m ∈ candidates'} = {m | start = some m ∨ m ∈ candidates} := by
    ext m
    simp [perm.mem_iff]
  cases hf : floor with
  | none =>
    obtain ⟨absent, rfl⟩ := h.absent.1 hf
    exact h'.absent.2 ⟨absent, List.perm_nil.1 perm⟩
  | some n =>
    cases hf' : floor' with
    | none =>
      obtain ⟨absent, rfl⟩ := h'.absent.1 hf'
      rw [h.absent.2 ⟨absent, List.nil_perm.1 perm⟩] at hf
      contradiction
    | some n' =>
      have greatest' := h'.greatest n' hf'
      rw [same] at greatest'
      have greatest := h.greatest n hf
      exact congrArg some
        (UInt64.le_antisymm (greatest.2 greatest'.1) (greatest'.2 greatest.1))

end Floor

/-! ## Rows -/

/-- A call that raises floors of a validator. -/
inductive FloorCall where
  | slot (slot : Slot)
  | epochs (source target : Epoch)
  deriving DecidableEq

namespace FloorCall

def kind : FloorCall → DutyKind
  | .slot _ => .block
  | .epochs _ _ => .attestation

/-- What calls have for the slot floor. -/
def slots (calls : List FloorCall) : List Slot :=
  calls.filterMap fun
    | .slot s => some s
    | .epochs _ _ => none

/-- What calls have for the source floor. -/
def sources (calls : List FloorCall) : List Epoch :=
  calls.filterMap fun
    | .slot _ => none
    | .epochs source _ => some source

/-- What calls have for the target floor. -/
def targets (calls : List FloorCall) : List Epoch :=
  calls.filterMap fun
    | .slot _ => none
    | .epochs _ target => some target

end FloorCall

namespace Watermark

/-- The row in memory after a call, and whether that changed it. -/
def raise (w : Watermark) : FloorCall → Bool × Watermark
  | .slot slot => w.raiseSlot slot
  | .epochs source target => w.raiseEpochs source target

/-- The row in memory after some calls. -/
def raiseAll (w : Watermark) (calls : List FloorCall) : Watermark :=
  calls.foldl (fun w c => (w.raise c).2) w

/-- Each floor of a row is the largest of where it started and what the calls have for it. -/
structure IsJoin (start : Watermark) (calls : List FloorCall) (w : Watermark) : Prop where
  validator : w.validator = start.validator
  slot : Floor.IsJoin start.slot (FloorCall.slots calls) w.slot
  source : Floor.IsJoin start.source (FloorCall.sources calls) w.source
  target : Floor.IsJoin start.target (FloorCall.targets calls) w.target

theorem isJoin_raiseAll (w : Watermark) (calls : List FloorCall) :
    w.IsJoin calls (w.raiseAll calls) := by
  induction calls generalizing w with
  | nil => exact ⟨rfl, Floor.isJoin_nil _, Floor.isJoin_nil _, Floor.isJoin_nil _⟩
  | cons c rest ih =>
    obtain ⟨validator, slot, source, target⟩ := ih (w.raise c).2
    -- A call for one kind of duty leaves the floors of the other where they started.
    cases c with
    | slot s => exact ⟨validator, slot.cons, source, target⟩
    | epochs a b => exact ⟨validator, slot, source.cons, target.cons⟩

/-- The order of the calls does not matter. -/
theorem IsJoin.eq_of_perm {start w w' : Watermark} {calls calls' : List FloorCall}
    (h : start.IsJoin calls w) (h' : start.IsJoin calls' w') (perm : calls'.Perm calls) :
    w' = w := by
  have slot : w'.slot = w.slot := h.slot.eq_of_perm h'.slot (perm.filterMap _)
  have source : w'.source = w.source := h.source.eq_of_perm h'.source (perm.filterMap _)
  have target : w'.target = w.target := h.target.eq_of_perm h'.target (perm.filterMap _)
  have validator : w'.validator = w.validator := h'.validator.trans h.validator.symm
  obtain ⟨_, _, _, _⟩ := w
  obtain ⟨_, _, _, _⟩ := w'
  exact (Watermark.mk.injEq ..).mpr ⟨validator, slot, source, target⟩

end Watermark
namespace Floor

/-- A floor that moves is another one then, and one that does not is the same. -/
theorem moves_eq_true_iff {floor : Floor} {candidate : UInt64} :
    floor.moves candidate = true ↔ floor.raise candidate ≠ floor := by
  unfold raise
  by_cases moves : floor.moves candidate
  · rw [if_pos moves]
    refine iff_of_true moves fun same => ?_
    rw [← same] at moves
    simp [Floor.moves] at moves
  · rw [if_neg moves]
    exact iff_of_false moves fun differs => differs rfl

end Floor

namespace Watermark

/-- A call tells that it changed the row just if it did. -/
theorem raise_eq_true_iff {w : Watermark} {c : FloorCall} :
    (w.raise c).1 = true ↔ (w.raise c).2 ≠ w := by
  obtain ⟨validator, slot, source, target⟩ := w
  cases c with
  | slot s =>
    show Floor.moves slot s = true ↔ _
    rw [Floor.moves_eq_true_iff]
    simp [raise, raiseSlot]
  | epochs a b =>
    show (Floor.moves source a || Floor.moves target b) = true ↔ _
    rw [Bool.or_eq_true, Floor.moves_eq_true_iff, Floor.moves_eq_true_iff]
    simp only [raise, raiseEpochs, ne_eq, Watermark.mk.injEq, true_and]
    tauto

end Watermark

/-! ## Calls on a ledger -/

namespace FloorCall

/-- The call on the ledger; it gives the row that is stored then. -/
def perform (id : ValidatorId) : FloorCall → Transaction Watermark
  | .slot s => Ledger.raiseSlotFloor id s
  | .epochs source target => Ledger.raiseEpochFloors id source target

end FloorCall

namespace Table

variable {v : Table Bytes} {id : ValidatorId} {slot : Floor} {epochs : Option (Epoch × Epoch)}

/-- The row that is stored when the slot floor was raised. -/
theorem tryRow?_raiseSlot
    (slots : v.tryRead (.floor id .block) (LedgerKey.readWord .slotFloor) = .ok slot)
    (floors : v.tryRead (.floor id .attestation) LedgerValue.readEpochFloors = .ok epochs)
    (s : Slot) :
    (if slot.moves s then
        v.insert (Place.floor id .block).bytes (Bytes.ofWord (slot.raised s)) else v).tryRow? id =
      .ok (some ⟨id, slot.raise s, epochs.map Prod.fst, epochs.map Prod.snd⟩) := by
  rw [tryRow?_eq_ok_iff]
  refine ⟨slot.raise s, epochs, ?_, ?_, ?_⟩
  · split
    · rw [tryRead_insert, if_pos rfl, LedgerKey.readWord_ofWord, Floor.raise_eq]
      rfl
    · next still => rw [slots, Floor.raise, if_neg still]
  · split
    · rw [tryRead_insert, if_neg (by simp), floors]
    · exact floors
  · rw [Watermark.ofFloors?, Floor.raise_eq]
    rfl

/-- The row that is stored when both epoch floors were raised. -/
theorem tryRow?_raiseEpochs
    (slots : v.tryRead (.floor id .block) (LedgerKey.readWord .slotFloor) = .ok slot)
    (floors : v.tryRead (.floor id .attestation) LedgerValue.readEpochFloors = .ok epochs)
    (source target : Epoch) :
    (if Floor.moves (epochs.map Prod.fst) source || Floor.moves (epochs.map Prod.snd) target then
        v.insert (Place.floor id .attestation).bytes
          (LedgerValue.writeEpochFloors (Floor.raised (epochs.map Prod.fst) source)
            (Floor.raised (epochs.map Prod.snd) target)) else v).tryRow? id =
      .ok (some ⟨id, slot, Floor.raise (epochs.map Prod.fst) source,
        Floor.raise (epochs.map Prod.snd) target⟩) := by
  rw [tryRow?_eq_ok_iff]
  refine ⟨slot, some (Floor.raised (epochs.map Prod.fst) source,
    Floor.raised (epochs.map Prod.snd) target), ?_, ?_, ?_⟩
  · split
    · rw [tryRead_insert, if_neg (by simp), slots]
    · exact slots
  · split
    · rw [tryRead_insert, if_pos rfl, LedgerValue.readEpochFloors_writeEpochFloors]
      rfl
    · next still =>
      -- Floors that do not move are there, as they would be written.
      obtain ⟨first, second⟩ := Bool.or_eq_false_iff.1 (Bool.eq_false_iff.2 still)
      cases epochs with
      | none => contradiction
      | some floors' =>
        rw [floors, Option.map_some, Option.map_some, Floor.raised_of_not_moves first,
          Floor.raised_of_not_moves second]
  · rw [Watermark.ofFloors?, Floor.raise_eq, Floor.raise_eq]
    simp

end Table

namespace FloorCall

open Ledger Transaction

variable {t : Table Bytes} {p : Pending} {id : ValidatorId} {row : Option Watermark}

/-- What a call gives where the floors of a validator read as `row`, and what it leaves pending:
    the row that is read then is the row in memory after the call, and at most the floors of its
    kind are written, if they move. -/
structure Joins (t : Table Bytes) (p : Pending) (id : ValidatorId) (row : Option Watermark)
    (c : FloorCall) (given : Watermark) (q : Pending) : Prop where
  inMemory : given = ((row.getD (.empty id)).raise c).2
  registered : (t.overlaid q).isRegistered id
  stored : (t.overlaid q).tryRow? id = .ok (some given)
  still : ((row.getD (.empty id)).raise c).1 = false → q = p
  others : ∀ key, key ≠ (Place.floor id c.kind).bytes → q.get? key = p.get? key

theorem joins_raise {α : Type} {c : FloorCall} {moves : Option α → Bool} {value : Option α → Bytes}
    {floor : Option α} {w : Watermark} (registered : (t.overlaid p).isRegistered id)
    (raised : (row.getD (.empty id)).raise c = (moves floor, w))
    (stored : (t.overlaid (p.raise (.floor id c.kind) moves value floor)).tryRow? id =
      .ok (some w)) :
    Joins t p id row c w (p.raise (.floor id c.kind) moves value floor) where
  inMemory := by rw [raised]
  registered := by
    rw [Table.overlaid_raise]
    split
    · exact Table.isRegistered_insert registered _ _
    · exact registered
  stored := stored
  still moves := by
    rw [raised] at moves
    exact if_neg (Bool.eq_false_iff.1 moves)
  others _ ne := Pending.get?_raise_of_ne p ne

theorem leaves_perform (registered : (t.overlaid p).isRegistered id)
    (stored : (t.overlaid p).tryRow? id = .ok row) (c : FloorCall) :
    Leaves False (c.perform id) t p (Joins t p id row c) fun _ _ => False := by
  obtain ⟨slot, epochs, slots, floors, rfl⟩ := Table.tryRow?_eq_ok_iff.1 stored
  cases c with
  | slot s =>
    have raised := Table.tryRow?_raiseSlot slots floors s
    rw [← Table.overlaid_raise t p (.floor id .block) (Floor.moves · s)
      fun floor => Bytes.ofWord (Floor.raised floor s)] at raised
    rw [perform, raiseSlotFloor_eq]
    refine (leaves_raising_of_stored registered slots raised).mono ?_ fun _ _ none => none
    rintro given q ⟨rfl, rfl⟩
    refine joins_raise registered ?_ raised
    rw [Watermark.getD_ofFloors?]
    rfl
  | epochs source target =>
    have raised := Table.tryRow?_raiseEpochs slots floors source target
    rw [← Table.overlaid_raise t p (.floor id .attestation)
      (fun floors => Floor.moves (floors.map Prod.fst) source ||
        Floor.moves (floors.map Prod.snd) target)
      fun floors => LedgerValue.writeEpochFloors (Floor.raised (floors.map Prod.fst) source)
        (Floor.raised (floors.map Prod.snd) target)] at raised
    rw [perform, raiseEpochFloors_eq]
    refine (leaves_raising_of_stored registered floors raised).mono ?_ fun _ _ none => none
    rintro given q ⟨rfl, rfl⟩
    refine joins_raise registered ?_ raised
    rw [Watermark.getD_ofFloors?]
    rfl

end FloorCall

/-! ## Sessions -/

/-- A call, or a commit. -/
inductive FloorStep where
  | call (c : FloorCall)
  | commit
  deriving DecidableEq

/-- The calls among some steps. -/
def FloorStep.calls (steps : List FloorStep) : List FloorCall :=
  steps.filterMap fun
    | .call c => some c
    | .commit => none

namespace Session

/-- Raises floors in the current transaction. -/
def raise (id : ValidatorId) (s : Session) (c : FloorCall) :
    Except LedgerError Watermark × Session :=
  let ((answer, pending), table) := ((c.perform id).run.run s.pending).run Table.serve s.table
  (answer, ⟨table, pending⟩)

/-- Commits the current transaction and begins the next. -/
def commit (s : Session) : Except LedgerError Unit × Session :=
  let (answer, table) := LedgerWork.onTable (LedgerWork.commit s.pending) s.table
  (answer, ⟨table, Table.empty⟩)

/-- Takes a step; a commit gives no row. -/
def raiseStep (id : ValidatorId) (s : Session) :
    FloorStep → Except LedgerError (Option Watermark) × Session
  | .call c =>
    let (answer, s') := s.raise id c
    (answer.map some, s')
  | .commit =>
    let (answer, s') := s.commit
    (answer.map fun () => none, s')

/-- Takes steps in order: the rows that they gave, and the session left. -/
def raiseAll (id : ValidatorId) (s : Session) (steps : List FloorStep) :
    List (Except LedgerError (Option Watermark)) × Session :=
  takeEach (raiseStep id) s steps

variable {s : Session} {id : ValidatorId} {row : Option Watermark}

theorem commit_eq (s : Session) : s.commit = (.ok (), ⟨s.seen, Table.empty⟩) := by
  rw [commit, onTable_commit]

/-- A validator is registered, and its floors read as `row`. -/
structure HasRow (s : Session) (id : ValidatorId) (row : Option Watermark) : Prop where
  registered : s.seen.isRegistered id
  read : s.ask (Ledger.watermark? id) = (.ok row, s)

/-- What a call does where the floors read as `row`. -/
structure Raises (s : Session) (id : ValidatorId) (row : Option Watermark) (c : FloorCall) :
    Prop where
  /-- It gives the row in memory after the call, and this is the row that is read then. -/
  gives : (s.raise id c).1 = .ok ((row.getD (.empty id)).raise c).2
  leaves : (s.raise id c).2.HasRow id (some ((row.getD (.empty id)).raise c).2)
  /-- A call that moves nothing writes nothing. -/
  still : ((row.getD (.empty id)).raise c).1 = false → (s.raise id c).2 = s
  /-- It writes at most the floors of its kind, and commits nothing. -/
  others : ∀ key, key ≠ (Place.floor id c.kind).bytes →
    (s.raise id c).2.pending.get? key = s.pending.get? key
  table : (s.raise id c).2.table = s.table

theorem ask_watermark? (s : Session) (id : ValidatorId) :
    s.ask (Ledger.watermark? id) = (s.seen.tryRow? id, s) :=
  ask_of_yields (Ledger.yields_tryRow? s.seen id)

theorem HasRow.stored (h : s.HasRow id row) : s.seen.tryRow? id = .ok row := by
  have read := h.read
  rw [ask_watermark?] at read
  exact congrArg Prod.fst read

theorem HasRow.raises (h : s.HasRow id row) (c : FloorCall) : s.Raises id row c := by
  have ends := (FloorCall.leaves_perform h.registered h.stored c).run_serve
  generalize out : ((c.perform id).run.run s.pending).run Table.serve s.table = result at ends
  obtain ⟨⟨answer, q⟩, t⟩ := result
  have taken : s.raise id c = (answer, ⟨t, q⟩) := by
    unfold raise
    rw [out]
  cases answer with
  | error e => exact ends.2.elim
  | ok given =>
    obtain ⟨rfl, joins⟩ := ends
    change FloorCall.Joins s.table s.pending id row c given q at joins
    obtain rfl := joins.inMemory
    refine ⟨?_, ?_, fun moves => ?_, ?_, ?_⟩ <;> rw [taken]
    · refine ⟨joins.registered, ?_⟩
      rw [ask_watermark?]
      exact congrArg (·, _) joins.stored
    · rw [joins.still moves]
    · exact joins.others

/-- A commit leaves what is seen. -/
theorem HasRow.commit (h : s.HasRow id row) : s.commit.2.HasRow id row := by
  rw [commit_eq]
  refine ⟨h.registered, ?_⟩
  rw [ask_watermark?]
  exact congrArg (·, _) h.stored

/-- After some steps the row that is read is the row in memory after their calls. -/
theorem HasRow.raiseAll (h : s.HasRow id row) (steps : List FloorStep) :
    ∃ left, (s.raiseAll id steps).2.HasRow id left ∧
      left.getD (.empty id) = (row.getD (.empty id)).raiseAll (FloorStep.calls steps) ∧
      (left = none ↔ row = none ∧ FloorStep.calls steps = []) ∧
      ∀ answer ∈ (s.raiseAll id steps).1, ∃ given, answer = .ok given := by
  induction steps generalizing s row with
  | nil => exact ⟨row, h, rfl, by simp [FloorStep.calls], nofun⟩
  | cons step rest ih =>
    cases step with
    | call c =>
      have raises := h.raises c
      obtain ⟨left, last, same, absent, answers⟩ := ih raises.leaves
      refine ⟨left, last, same, ?_,
        List.forall_mem_cons.2 ⟨⟨some ((row.getD (.empty id)).raise c).2, ?_⟩, answers⟩⟩
      · -- Whoever was called has a row.
        have there : left ≠ none := by
          intro gone
          have called := (absent.1 gone).1
          contradiction
        have calls : FloorStep.calls (.call c :: rest) ≠ [] := List.cons_ne_nil c _
        exact iff_of_false there fun noCall => calls noCall.2
      · show (s.raise id c).1.map some = _
        rw [raises.gives]
        rfl
    | commit =>
      obtain ⟨left, last, same, absent, answers⟩ := ih h.commit
      refine ⟨left, last, same, absent, List.forall_mem_cons.2 ⟨⟨none, ?_⟩, answers⟩⟩
      show s.commit.1.map _ = _
      rw [commit_eq]
      rfl

end Session

/-- What steps make of the floors of a validator, which read as `row` before them and as `left`
    behind them. -/
structure Session.JoinsAll (s : Session) (id : ValidatorId) (row : Option Watermark)
    (steps : List FloorStep) (left : Option Watermark) : Prop where
  succeed : ∀ answer ∈ (s.raiseAll id steps).1, ∃ given, answer = .ok given
  read : (s.raiseAll id steps).2.ask (Ledger.watermark? id) =
    (.ok left, (s.raiseAll id steps).2)
  /-- There is no row only where there was none and nothing was called. -/
  absent : left = none ↔ row = none ∧ FloorStep.calls steps = []
  joined : Watermark.IsJoin (row.getD (.empty id)) (FloorStep.calls steps) (left.getD (.empty id))
  inMemory : left.getD (.empty id) = (row.getD (.empty id)).raiseAll (FloorStep.calls steps)
  /-- The same calls in another order, and with other commits, leave the same row. -/
  reordered : ∀ steps', (FloorStep.calls steps').Perm (FloorStep.calls steps) →
    (s.raiseAll id steps').2.ask (Ledger.watermark? id) = (.ok left, (s.raiseAll id steps').2)
  next : ∀ c, (s.raiseAll id steps).2.Raises id left c
  /-- A commit puts what is seen into the table. -/
  commits : (s.raiseAll id steps).2.commit =
    (.ok (), ⟨(s.raiseAll id steps).2.seen, Table.empty⟩)

theorem Session.HasRow.joinsAll {s : Session} {id : ValidatorId} {row : Option Watermark}
    (h : s.HasRow id row) (steps : List FloorStep) : ∃ left, s.JoinsAll id row steps left := by
  obtain ⟨left, last, inMemory, absent, succeed⟩ := h.raiseAll steps
  have joined : Watermark.IsJoin (row.getD (.empty id)) (FloorStep.calls steps)
      (left.getD (.empty id)) := by
    rw [inMemory]
    exact Watermark.isJoin_raiseAll _ _
  refine ⟨left, succeed, last.read, absent, joined, inMemory, fun steps' perm => ?_, last.raises,
    commit_eq _⟩
  obtain ⟨left', last', inMemory', absent', -⟩ := h.raiseAll steps'
  have same : left'.getD (.empty id) = left.getD (.empty id) := by
    refine joined.eq_of_perm ?_ perm
    rw [inMemory']
    exact Watermark.isJoin_raiseAll _ _
  -- The rows are equal if both are there, and neither is if there was no call.
  have none_iff : FloorStep.calls steps' = [] ↔ FloorStep.calls steps = [] := by
    rw [← List.length_eq_zero_iff, ← List.length_eq_zero_iff, perm.length_eq]
  rw [none_iff, ← absent] at absent'
  obtain rfl : left' = left := by
    cases left with
    | none => exact absent'.2 rfl
    | some w =>
      cases left' with
      | none => exact (absent'.1 rfl).symm
      | some w' => exact congrArg some same
  exact last'.read

/-- Raising floors computes their join, on a ledger where they can be read, and in memory. -/
theorem floors_are_joined :
    (∀ {s : Session} {id : ValidatorId} {row : Option Watermark}, s.seen.isRegistered id →
      s.ask (Ledger.watermark? id) = (.ok row, s) →
        ∀ steps, ∃ left, s.JoinsAll id row steps left) ∧
    ∀ (w : Watermark) (calls : List FloorCall), w.IsJoin calls (w.raiseAll calls) ∧
      ∀ c, (w.raise c).1 = true ↔ (w.raise c).2 ≠ w := by
  refine ⟨fun registered read steps => ?_, fun w calls => ⟨w.isJoin_raiseAll calls, fun c => ?_⟩⟩
  · exact Session.HasRow.joinsAll ⟨registered, read⟩ steps
  · exact Watermark.raise_eq_true_iff

/-- A validator with a slot floor and no epoch floors.  The source floor ends above the target
    floor. -/
theorem floors_are_joined_newcomer :
    let id : ValidatorId := ⟨1⟩
    let s : Session := ⟨(Table.empty.enroll ⟨[1]⟩ 1).raiseSlot id 7, Table.empty⟩
    let steps : List FloorStep := [.call (.epochs 9 2), .commit, .call (.slot 3),
      .call (.epochs 0 4), .call (.slot 8), .commit]
    s.seen.isRegistered id ∧
      s.ask (Ledger.watermark? id) = (.ok (some ⟨id, some 7, none, none⟩), s) ∧
      s.JoinsAll id (some ⟨id, some 7, none, none⟩) steps (some ⟨id, some 8, some 9, some 4⟩) := by
  intro id s steps
  have registered : s.seen.isRegistered id := by decide +kernel
  have stored : s.seen.tryRow? id = .ok (some ⟨id, some 7, none, none⟩) := by decide +kernel
  have read : s.ask (Ledger.watermark? id) = (.ok (some ⟨id, some 7, none, none⟩), s) := by
    rw [Session.ask_watermark?, stored]
  obtain ⟨left, joins⟩ := floors_are_joined.1 registered read steps
  have last : left = some ⟨id, some 8, some 9, some 4⟩ := by
    have inMemory := joins.inMemory
    cases left with
    | none => exact absurd (joins.absent.1 rfl).1 nofun
    | some w => exact congrArg some (inMemory.trans (by decide))
  exact ⟨registered, read, last ▸ joins⟩

end SlashingGuard
