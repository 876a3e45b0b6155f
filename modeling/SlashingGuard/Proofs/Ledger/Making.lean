import SlashingGuard.Proofs.Ledger.Held
import SlashingGuard.Proofs.Ledger.Leaving
import SlashingGuard.Proofs.Ledger.Mutation

/-! # The changes that a step makes

    A step of a transaction sees the ledger with what is pending, and it
    depends on that which changes the step makes.  Here they are said for
    every step as a list, on the table that is seen and without a transaction:
    also where the table cannot be read, so that the step fails halfway.

    A step holds back the changes of its list, in their order, and no others.
    If a call on the store fails in the middle, it holds back the first of
    them.  Putting a record in and deleting records write behind their last
    call that can fail, so an error of theirs leaves what was pending. -/

namespace SlashingGuard

/-! ## Changes on a table -/

namespace Table

variable {α : Type}

/-- The entry at a place that holds nothing; what is there stays. -/
def fills (v : Table Bytes) (place : Place) (value : Bytes) : List Change :=
  if v.get? place.bytes = none then [.put place.bytes value] else []

theorem tryRead_eq_ok_none_iff {v : Table Bytes} {place : Place}
    {read : Bytes → Except LedgerError α} :
    v.tryRead place read = .ok none ↔ v.get? place.bytes = none := by
  unfold tryRead
  cases v.get? place.bytes with
  | none => simp
  | some bytes => cases result : read bytes <;> simp [result, Except.map]

/-- The write of a floor that can be read and moves. -/
def raises (v : Table Bytes) (place : Place) (read : Bytes → Except LedgerError α)
    (moves : Option α → Bool) (value : Option α → Bytes) : List Change :=
  match v.tryRead place read with
  | .ok floor => if moves floor then [.put place.bytes (value floor)] else []
  | .error _ => []

/-- Whether the number at the end of a key is below a bound. -/
def endsBelow (bound : UInt64) (entry : Entry Bytes) : Bool :=
  Bytes.ofBigEndian (entry.1.drop (entry.1.length - 8)) < bound.toNat

/-- The deletions under a scope, from its first entry on, as long as the numbers at the end of the
    keys are below a bound. -/
def deletionsBelow (v : Table Bytes) (family : KeyFamily) (id : ValidatorId) (bound : UInt64) :
    List Change :=
  ((v.scan (family.scope id)).takeWhile (endsBelow bound)).map fun entry => .delete entry.1

/-- The entries of keys that have no number yet, which get numbers from `next` on, and of the
    counter behind them.  At a key whose number cannot be read they end. -/
def enrollments (v : Table Bytes) (next : UInt64) : List PublicKey → List Change
  | [] => [.put Place.nextId.bytes (Bytes.ofWord next)]
  | key :: rest =>
    match v.tryId key with
    | .ok (some _) => v.enrollments next rest
    | .ok none =>
      .put (Place.idOf key).bytes (Bytes.ofWord next) ::
        .put (Place.keyOf ⟨next⟩).bytes key.bytes ::
          (v.enroll key next).enrollments (next + 1) rest
    | .error _ => []

variable {v : Table Bytes} {key : PublicKey}

theorem enrollments_cons_known {id : ValidatorId} (h : v.tryId key = .ok (some id))
    (next : UInt64) (rest : List PublicKey) :
    v.enrollments next (key :: rest) = v.enrollments next rest := by
  rw [enrollments, h]

theorem enrollments_cons_new (h : v.tryId key = .ok none) (next : UInt64)
    (rest : List PublicKey) :
    v.enrollments next (key :: rest) =
      .put (Place.idOf key).bytes (Bytes.ofWord next) ::
        .put (Place.keyOf ⟨next⟩).bytes key.bytes ::
          (v.enroll key next).enrollments (next + 1) rest := by
  rw [enrollments, h]

theorem enrollments_cons_unread {e : LedgerError} (h : v.tryId key = .error e) (next : UInt64)
    (rest : List PublicKey) : v.enrollments next (key :: rest) = [] := by
  rw [enrollments, h]

end Table

/-- The changes that a step makes on the table that it sees. -/
def Mutation.changes (v : Table Bytes) : Mutation → List Change
  | .register keys =>
    match v.tryRead .nextId (LedgerKey.readWord .nextId) with
    | .ok counter => v.enrollments (counter.getD 1) keys
    | .error _ => []
  | .insertBlock id slot root =>
    if v.isRegistered id then v.fills (.block id slot) root.bytes else []
  | .insertAttestation id vote root =>
    if v.isRegistered id then
      if vote.target < vote.source then []
      else v.fills (.attestation id vote.target) (LedgerValue.writeAttestation vote.source root)
    else []
  | .deleteBlocksBelow id slot => v.deletionsBelow .block id slot
  | .deleteAttestationsBelow id target => v.deletionsBelow .attestation id target
  | .raiseSlotFloor id slot =>
    if v.isRegistered id then
      v.raises (.floor id .block) (LedgerKey.readWord .slotFloor)
        (fun floor => Floor.moves floor slot) fun floor => Bytes.ofWord (Floor.raised floor slot)
    else []
  | .raiseEpochFloors id source target =>
    if v.isRegistered id then
      v.raises (.floor id .attestation) LedgerValue.readEpochFloors
        (fun floors => Floor.moves (floors.map Prod.fst) source ||
          Floor.moves (floors.map Prod.snd) target)
        fun floors => LedgerValue.writeEpochFloors (Floor.raised (floors.map Prod.fst) source)
          (Floor.raised (floors.map Prod.snd) target)
    else []

/-! ## Changes held back -/

/-- Of some changes those that were held back: all, or the first of them if a call failed. -/
def Change.Cut (faulty : Prop) (changes made : List Change) : Prop :=
  made = changes ∨ faulty ∧ made <+: changes

/-- The pending writes with some changes held back, which a call that fails may have cut. -/
def Pending.Held (faulty : Prop) (p : Pending) (changes : List Change) (q : Pending) : Prop :=
  ∃ made, Change.Cut faulty changes made ∧ q = p.holdAll made

namespace Pending

variable {faulty : Prop} {p q : Pending} {changes : List Change}

theorem held_all (p : Pending) (changes : List Change) :
    p.Held faulty changes (p.holdAll changes) := ⟨changes, .inl rfl, rfl⟩

theorem held_none (p : Pending) : p.Held faulty [] p := held_all p []

/-- A call that fails at first cuts all changes off. -/
theorem held_of_faulty (fails : faulty) (p : Pending) (changes : List Change) :
    p.Held faulty changes p := ⟨[], .inr ⟨fails, List.nil_prefix⟩, rfl⟩

theorem Held.cons {c : Change} (h : (p.hold c).Held faulty changes q) :
    p.Held faulty (c :: changes) q := by
  obtain ⟨made, cut, rfl⟩ := h
  refine ⟨c :: made, ?_, rfl⟩
  rcases cut with rfl | ⟨fails, front⟩
  · exact .inl rfl
  · exact .inr ⟨fails, List.cons_prefix_cons.2 ⟨rfl, front⟩⟩

/-- A floor that moves is one change. -/
theorem raise_eq_holdAll {α : Type} (p : Pending) (place : Place) (moves : Option α → Bool)
    (value : Option α → Bytes) (floor : Option α) :
    p.raise place moves value floor =
      p.holdAll (if moves floor then [.put place.bytes (value floor)] else []) := by
  unfold raise
  split
  · rfl
  · rfl

end Pending

/-! ## Transactions that make changes -/

namespace Transaction

variable {α : Type} {faulty : Prop} {tx : Transaction α} {t : Table Bytes} {p : Pending}
  {changes : List Change}

/-- However it ends, the transaction holds back these changes; only a call that fails cuts them. -/
def Makes (faulty : Prop) (tx : Transaction α) (t : Table Bytes) (p : Pending)
    (changes : List Change) : Prop :=
  Leaves faulty tx t p (fun _ q => q = p.holdAll changes) fun _ q => p.Held faulty changes q

/-- The same of one that makes its changes behind everything that can fail. -/
def MakesLast (faulty : Prop) (tx : Transaction α) (t : Table Bytes) (p : Pending)
    (changes : List Change) : Prop :=
  Leaves faulty tx t p (fun _ q => q = p.holdAll changes) fun _ q =>
    q = p ∧ (faulty ∨ changes = [])

theorem MakesLast.makes (h : MakesLast faulty tx t p changes) : Makes faulty tx t p changes := by
  refine h.mono (fun _ _ all => all) ?_
  rintro _ q ⟨rfl, fails | none⟩
  · exact Pending.held_of_faulty fails q changes
  · exact none ▸ Pending.held_none q

/-- The value does not count. -/
theorem Makes.discard (h : Makes faulty tx t p changes) :
    Makes faulty (tx >>= fun _ => pure ()) t p changes := by
  refine Leaves.bind (h.mono ?_ fun _ _ cut => cut)
  intro _ q all
  exact leaves_pure all

theorem MakesLast.discard (h : MakesLast faulty tx t p changes) :
    MakesLast faulty (tx >>= fun _ => pure ()) t p changes := by
  refine Leaves.bind (h.mono ?_ fun _ _ kept => kept)
  intro _ q all
  exact leaves_pure all

end Transaction

/-! ## What each step makes -/

/-- A key with at least eight bytes ends in a number. -/
theorem LedgerKey.readIndex_eq_ok (what : RecordKind) {key : Bytes} (h : 8 ≤ key.length) :
    readIndex what key =
      .ok (UInt64.ofNat (Bytes.ofBigEndian (key.drop (key.length - 8)))) := by
  have whole : (key.drop (key.length - 8)).length = 8 := by
    rw [List.length_drop]
    omega
  rw [readIndex, if_neg (Nat.not_lt.2 h), readWord, if_pos whole]

/-- The number that is read is the one that the deletions go by. -/
theorem Table.endsBelow_iff {entry : Entry Bytes} (h : 8 ≤ entry.1.length) (bound : UInt64) :
    endsBelow bound entry ↔
      ¬ bound ≤ UInt64.ofNat (Bytes.ofBigEndian (entry.1.drop (entry.1.length - 8))) := by
  have fits : Bytes.ofBigEndian (entry.1.drop (entry.1.length - 8)) < 2 ^ 64 := by
    have small := Bytes.ofBigEndian_lt (entry.1.drop (entry.1.length - 8))
    have whole : (entry.1.drop (entry.1.length - 8)).length = 8 := by
      rw [List.length_drop]
      omega
    rw [whole] at small
    omega
  rw [endsBelow, decide_eq_true_iff, UInt64.le_iff_toNat_le, UInt64.toNat_ofNat_of_lt' fits]
  omega

namespace Ledger

open Transaction

variable {α : Type} {faulty : Prop} {t : Table Bytes} {p : Pending} {changes : List Change}

/-- A step that asks first whether a validator is registered makes no changes if it is not. -/
theorem makesLast_requireRegistered_bind {id : ValidatorId} {k : Unit → Transaction α}
    (next : MakesLast faulty (k ()) t p changes) :
    MakesLast faulty (liftM (requireRegistered id) >>= k) t p
      (if (t.overlaid p).isRegistered id then changes else []) := by
  cases registered : (t.overlaid p).isRegistered id with
  | true =>
    exact leaves_query_bind (yields_requireRegistered registered) (fun _ _ => next) nofun
      fun fails _ => ⟨rfl, .inl fails⟩
  | false =>
    exact leaves_query_bind (yields_requireRegistered_error registered) nofun
      (fun _ _ => ⟨rfl, .inr rfl⟩) fun fails _ => ⟨rfl, .inl fails⟩

/-- A record is put in where nothing is; whether what is there is an error or not, it stays. -/
theorem makesLast_fills (place : Place) {read : Bytes → Except LedgerError α} {value : Bytes}
    {k : Option α → Transaction Unit} (free : k none = put place.bytes value)
    (taken : ∀ a, MakesLast faulty (k (some a)) t p []) :
    MakesLast faulty (liftM (Query.record place.bytes read) >>= k) t p
      ((t.overlaid p).fills place value) := by
  -- What is read is nothing exactly where nothing is; what cannot be read is there too.
  have free_iff : (t.overlaid p).tryRead place read = .ok none ↔
      (t.overlaid p).get? place.bytes = none := Table.tryRead_eq_ok_none_iff
  unfold Table.fills
  refine leaves_query_bind (yields_tryRead _ place read) (fun found stored => ?_)
    (fun e unread => ⟨rfl, .inr (if_neg ?_)⟩) fun fails _ => ⟨rfl, .inl fails⟩
  · cases found with
    | none =>
      rw [if_pos (free_iff.1 stored), free]
      exact leaves_put rfl
    | some a =>
      have there : ¬ (t.overlaid p).get? place.bytes = none := by
        rw [← free_iff, stored]
        simp
      rw [if_neg there]
      exact taken a
  · rw [← free_iff, unread]
    simp

theorem makesLast_insertBlock (id : ValidatorId) (slot : Slot) (root : SigningRoot) :
    MakesLast faulty (insertBlock id slot root) t p
      ((Mutation.insertBlock id slot root).changes (t.overlaid p)) := by
  refine makesLast_requireRegistered_bind (makesLast_fills (.block id slot) rfl ?_)
  intro existing
  show Leaves faulty (if existing.root ≠ root then _ else _) t p _ _
  split
  · exact leaves_throw ⟨rfl, .inr rfl⟩
  · exact leaves_pure rfl

theorem makesLast_insertAttestation (id : ValidatorId) (vote : Vote) (root : SigningRoot) :
    MakesLast faulty (insertAttestation id vote root) t p
      ((Mutation.insertAttestation id vote root).changes (t.overlaid p)) := by
  refine makesLast_requireRegistered_bind ?_
  split
  · exact leaves_throw ⟨rfl, .inr rfl⟩
  · refine makesLast_fills (.attestation id vote.target) rfl ?_
    intro existing
    show Leaves faulty
      (if existing.root ≠ root ∨ existing.source ≠ vote.source then _ else _) t p _ _
    split
    · exact leaves_throw ⟨rfl, .inr rfl⟩
    · exact leaves_pure rfl

/-- Among entries that end in numbers nothing fails. -/
theorem leaves_deleteWhileBelow (what : RecordKind) (bound : UInt64)
    {entries : List (Entry Bytes)} (long : ∀ entry ∈ entries, 8 ≤ entry.1.length) :
    Leaves faulty (deleteWhileBelow what bound entries) t p
      (fun _ q => q = p.holdAll
        ((entries.takeWhile (Table.endsBelow bound)).map fun entry => .delete entry.1))
      fun _ _ => False := by
  induction entries generalizing p with
  | nil => exact leaves_pure rfl
  | cons entry rest ih =>
    obtain ⟨first, others⟩ := List.forall_mem_cons.1 long
    have below := Table.endsBelow_iff first bound
    unfold deleteWhileBelow
    rw [LedgerKey.readIndex_eq_ok what first]
    refine (leaves_ofExcept (fun index read => ?_) fun e failed => by contradiction).bind
    obtain rfl := Except.ok.inj read
    split
    · next stays =>
      rw [List.takeWhile_cons_of_neg (fun h => below.1 h stays)]
      exact leaves_pure rfl
    · next goes =>
      -- The entries were listed before the first deletion, so the rest of them does not change.
      rw [List.takeWhile_cons_of_pos (below.2 goes)]
      refine (leaves_delete (Leaves.bind ((ih others).mono ?_ fun _ _ none => none))).bind
      intro _ q all
      exact leaves_pure all

/-- Deletions fail only where the entries are listed. -/
theorem makesLast_deleteBelow (family : KeyFamily) (what : RecordKind) (id : ValidatorId)
    (bound : UInt64) :
    MakesLast faulty (deleteBelow family what id bound) t p
      ((t.overlaid p).deletionsBelow family id bound) := by
  refine leaves_query_bind (Query.yields_scan (family.scope id)) (fun entries listed => ?_) nofun
    fun fails _ => ⟨rfl, .inl fails⟩
  obtain rfl := Except.ok.inj listed
  refine (leaves_deleteWhileBelow what bound fun entry member => ?_).mono
    (fun _ _ all => all) fun _ _ none => none.elim
  -- Every key under the scope has the number of the validator in it.
  have scope := (Table.mem_scan.1 member).2
  have long := (List.isPrefixOf_iff_prefix.1 scope).length_le
  simp [KeyFamily.scope, KeyFamily.tag] at long
  omega

/-- A floor is raised as one change; the row that is read back behind it does not change that. -/
theorem makes_raising {id : ValidatorId} {place : Place} {read : Bytes → Except LedgerError α}
    {moves : Option α → Bool} {value : Option α → Bytes} :
    Makes faulty (raising id place read moves value) t p
      (if (t.overlaid p).isRegistered id then (t.overlaid p).raises place read moves value
        else []) := by
  have raised : ∀ floor, (t.overlaid p).isRegistered id →
      (t.overlaid p).tryRead place read = .ok floor → p.raise place moves value floor =
        p.holdAll (if (t.overlaid p).isRegistered id
          then (t.overlaid p).raises place read moves value else []) := by
    intro floor registered found
    rw [Pending.raise_eq_holdAll, if_pos registered, Table.raises, found]
  -- Besides a call that fails, the step can end before its write, or in the row behind it.
  refine leaves_raising (fun unregistered => ?_) (fun e unread => ?_)
    (fun registered floor _ found _ => raised floor registered found)
    (fun registered floor e found _ => ?_) (fun fails _ => Pending.held_of_faulty fails p _)
    fun _ registered floor x found => ?_
  · rw [unregistered]
    exact Pending.held_none p
  · have none : (t.overlaid p).raises place read moves value = [] := by rw [Table.raises, unread]
    rw [none, ite_self]
    exact Pending.held_none p
  · exact raised floor registered found ▸ Pending.held_all p _
  · exact raised floor registered found ▸ Pending.held_all p _

/-- Keys get their numbers one after the other.  Behind the last the number that comes next is
    left, and the counter is the change that is still missing. -/
theorem makes_registerFrom (next : UInt64) (keys : List PublicKey) :
    Leaves faulty (registerFrom next keys) t p
      (fun given q => q.hold (.put Place.nextId.bytes (Bytes.ofWord given.2)) =
        p.holdAll ((t.overlaid p).enrollments next keys))
      fun _ q => p.Held faulty ((t.overlaid p).enrollments next keys) q := by
  induction keys generalizing p next with
  | nil => exact leaves_pure rfl
  | cons key rest ih =>
    unfold registerFrom
    refine leaves_query_bind (yields_tryRead _ (.idOf key) _) (fun found read => ?_)
      (fun e unread => ?_) fun fails _ => Pending.held_of_faulty fails p _
    · cases found with
      | some id =>
        rw [Table.enrollments_cons_known read]
        refine Leaves.bind ((ih next).mono ?_ fun _ _ cut => cut)
        intro _ q all
        exact leaves_pure all
      | none =>
        -- The other keys are looked up behind the entries of this one.
        rw [Table.enrollments_cons_new read, ← Table.overlaid_enroll]
        refine (leaves_put (leaves_put (Leaves.bind ?_)).bind).bind
        refine (ih (p := p.enroll key next) (next + 1)).mono ?_ ?_
        · intro _ q all
          exact leaves_pure all
        · intro _ q cut
          exact Pending.Held.cons (Pending.Held.cons cut)
    · rw [Table.enrollments_cons_unread unread]
      exact Pending.held_none p

/-- The counter is read before the first key, and written behind the last. -/
theorem makes_register (keys : List PublicKey) :
    Makes faulty (register keys) t p ((Mutation.register keys).changes (t.overlaid p)) := by
  have counter : nextId.Yields (t.overlaid p)
      (((t.overlaid p).tryRead .nextId (LedgerKey.readWord .nextId)).map fun n => n.getD 1) :=
    (yields_tryRead _ .nextId _).map _
  unfold register Mutation.changes
  refine leaves_query_bind counter (fun next read => ?_) (fun e unread => ?_)
    fun fails _ => Pending.held_of_faulty fails p _
  · cases stored : (t.overlaid p).tryRead .nextId (LedgerKey.readWord .nextId) with
    | error e =>
      rw [stored] at read
      contradiction
    | ok found =>
      rw [stored] at read
      obtain rfl := Except.ok.inj read
      refine Leaves.bind ((makes_registerFrom _ keys).mono ?_ fun _ _ cut => cut)
      intro given q all
      refine Leaves.bind (leaves_put ?_)
      exact leaves_pure all
  · cases stored : (t.overlaid p).tryRead .nextId (LedgerKey.readWord .nextId) with
    | error e => exact Pending.held_none p
    | ok found =>
      rw [stored] at unread
      contradiction

end Ledger

/-- Every step makes its changes. -/
theorem Mutation.makes_perform {faulty : Prop} {t : Table Bytes} (m : Mutation) (p : Pending) :
    Transaction.Makes faulty m.perform t p (m.changes (t.overlaid p)) := by
  cases m with
  | register keys => exact (Ledger.makes_register keys).discard
  | insertBlock id slot root => exact (Ledger.makesLast_insertBlock id slot root).makes
  | insertAttestation id vote root => exact (Ledger.makesLast_insertAttestation id vote root).makes
  | deleteBlocksBelow id slot => exact (Ledger.makesLast_deleteBelow _ _ id slot).discard.makes
  | deleteAttestationsBelow id target =>
    exact (Ledger.makesLast_deleteBelow _ _ id target).discard.makes
  | raiseSlotFloor id slot =>
    rw [perform, Ledger.raiseSlotFloor_eq]
    exact Ledger.makes_raising.discard
  | raiseEpochFloors id source target =>
    rw [perform, Ledger.raiseEpochFloors_eq]
    exact Ledger.makes_raising.discard

end SlashingGuard
