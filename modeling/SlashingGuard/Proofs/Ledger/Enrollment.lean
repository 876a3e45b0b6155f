import SlashingGuard.Proofs.Ledger.Atomicity
import SlashingGuard.Proofs.Ledger.Held
import SlashingGuard.Proofs.Ledger.Numbering
import SlashingGuard.Proofs.Store.Saving

/-! # The entries of a registration

    On any table, sound or not, a registration that succeeds is one batch of
    puts.  Keys that have no number get those from the counter on, in the order
    in which they are given and each once; every number is entered under its
    key and every key under its number, and last the counter is set to the
    number behind them.  A registration that fails writes nothing. -/

namespace SlashingGuard

/-! ## The batch -/

/-- The entries of keys in the registry, which get the numbers from `next` on. -/
def registryEntries (next : UInt64) : List PublicKey → List Change
  | [] => []
  | key :: rest =>
    .put (LedgerKey.idOf key) (Bytes.ofWord next) ::
      .put (LedgerKey.keyOf ⟨next⟩) key.bytes :: registryEntries (next + 1) rest

/-- What the registry has under a key or a number is the number or the key. -/
theorem mem_registryEntries {next : UInt64} {keys : List PublicKey} {change : Change} :
    change ∈ registryEntries next keys ↔ ∃ n, ∃ h : n < keys.length,
      change = .put (LedgerKey.idOf keys[n]) (Bytes.ofWord (next + UInt64.ofNat n)) ∨
      change = .put (LedgerKey.keyOf ⟨next + UInt64.ofNat n⟩) keys[n].bytes := by
  induction keys generalizing next with
  | nil => simp [registryEntries]
  | cons key rest ih =>
    have later : ∀ n, next + 1 + UInt64.ofNat n = next + UInt64.ofNat (n + 1) := by
      intro n
      rw [UInt64.ofNat_add n 1, UInt64.add_assoc, UInt64.add_comm 1]
      rfl
    simp only [registryEntries, List.mem_cons, ih, later]
    constructor
    · rintro (rfl | rfl | ⟨n, lt, among⟩)
      · exact ⟨0, Nat.succ_pos _, .inl (by simp)⟩
      · exact ⟨0, Nat.succ_pos _, .inr (by simp)⟩
      · exact ⟨n + 1, Nat.succ_lt_succ lt, among⟩
    · rintro ⟨n, lt, among⟩
      cases n with
      | zero => simpa [← or_assoc] using Or.inl among
      | succ n => exact .inr (.inr ⟨n, Nat.lt_of_succ_lt_succ lt, among⟩)

namespace Table

variable {t : Table Bytes}

/-- The keys that have no number, in order and each once. -/
def newKeys (t : Table Bytes) (keys : List PublicKey) : List PublicKey :=
  (keys.filter fun key => !t.contains (LedgerKey.idOf key)).eraseDups

/-- What is written to register keys. -/
def registration (t : Table Bytes) (keys : List PublicKey) : List Change :=
  let added := t.newKeys keys
  registryEntries t.registry.next added ++
    [.put LedgerKey.nextId (Bytes.ofWord (t.registry.next + UInt64.ofNat added.length))]

theorem newKeys_cons_known {key : PublicKey} (known : t.contains (LedgerKey.idOf key))
    (rest : List PublicKey) : t.newKeys (key :: rest) = t.newKeys rest := by
  simp [newKeys, known]

/-- A new key is none any more once it is entered. -/
theorem newKeys_cons_new {key : PublicKey} (new : t.contains (LedgerKey.idOf key) = false)
    (next : UInt64) (rest : List PublicKey) :
    t.newKeys (key :: rest) = key :: (t.enroll key next).newKeys rest := by
  have entered : ∀ k, (t.enroll key next).contains (LedgerKey.idOf k) =
      (k == key || t.contains (LedgerKey.idOf k)) := by
    intro k
    show ((t.enroll key next).get? (Place.idOf k).bytes).isSome =
      (k == key || (t.get? (Place.idOf k).bytes).isSome)
    by_cases same : k = key
    · simp [enroll, same]
    · simp [enroll, same, Ne.symm same]
  simp only [newKeys, entered]
  rw [List.filter_cons_of_pos (by simp [new]), List.eraseDups_cons, List.filter_filter]
  simp only [Bool.not_or]

/-- Where the numbers to be given are free, all entries but the counter stay. -/
theorem get?_registration {keys : List PublicKey}
    (free : ∀ n < (t.newKeys keys).length,
      t.contains (LedgerKey.keyOf ⟨t.registry.next + UInt64.ofNat n⟩) = false)
    {key value : Bytes} (held : t.get? key = some value) (other : key ≠ LedgerKey.nextId) :
    (t.applyBatch (t.registration keys)).get? key = some value := by
  have untouched : ∀ change ∈ (t.registration keys).reverse, ¬ change.key = key := by
    rintro change among rfl
    rcases List.mem_append.1 (List.mem_reverse.1 among) with entry | counter
    · obtain ⟨n, lt, rfl | rfl⟩ := mem_registryEntries.1 entry
      · -- Keys that have a number are not entered again.
        have new := (List.mem_filter.1 (List.mem_eraseDups.1 (List.getElem_mem lt))).2
        have none : t.get? (LedgerKey.idOf (t.newKeys keys)[n]) = none := by
          simpa [contains] using new
        exact Option.some_ne_none _ (held.symm.trans none)
      · have none : t.get? (LedgerKey.keyOf ⟨t.registry.next + UInt64.ofNat n⟩) = none := by
          simpa [contains] using free n lt
        exact Option.some_ne_none _ (held.symm.trans none)
    · obtain rfl := List.mem_singleton.1 counter
      exact other rfl
  rw [get?_applyBatch, List.find?_eq_none.2 (by simpa using untouched)]
  exact held

/-- From one ledger to another some keys were registered, and nothing else was done. -/
structure Registers (former : Table Bytes) (keys : List PublicKey) (after : Table Bytes) :
    Prop where
  /-- Only the batch was written; without keys not even the counter. -/
  entries : after = if keys = [] then former else former.applyBatch (former.registration keys)
  /-- Where the numbers to be given are free, all entries but the counter stay. -/
  stays : (∀ n < (former.newKeys keys).length,
      former.contains (LedgerKey.keyOf ⟨former.registry.next + UInt64.ofNat n⟩) = false) →
    ∀ key value, former.get? key = some value → key ≠ LedgerKey.nextId →
      after.get? key = some value

theorem registers_nil (t : Table Bytes) : t.Registers [] t := ⟨rfl, fun _ _ _ held _ => held⟩

theorem registers_applyBatch {keys : List PublicKey} (some_key : keys ≠ []) :
    t.Registers keys (t.applyBatch (t.registration keys)) :=
  ⟨(if_neg some_key).symm, fun free _ _ => get?_registration free⟩

theorem fitsFile_registration (t : Table Bytes) {keys : List PublicKey}
    (bls : ∀ key ∈ keys, key.isBls) :
    ∀ change ∈ t.registration keys, change.FitsFile := by
  intro change among
  rcases List.mem_append.1 among with entry | counter
  · obtain ⟨n, lt, entry⟩ := mem_registryEntries.1 entry
    have member : (t.newKeys keys)[n] ∈ keys :=
      (List.mem_filter.1 (List.mem_eraseDups.1 (List.getElem_mem lt))).1
    have length : (t.newKeys keys)[n].bytes.length = 48 := by
      simpa [PublicKey.isBls, PublicKey.blsLength] using bls _ member
    rcases entry with rfl | rfl
    · simp [Change.FitsFile, LedgerKey.idOf]
      omega
    · simp [Change.FitsFile, LedgerKey.keyOf, KeyFamily.scope]
      omega
  · obtain rfl := List.mem_singleton.1 counter
    exact ⟨by decide, by simp⟩

end Table

/-! ## Registering -/

namespace Ledger

open Transaction

variable {v : Table Bytes}

/-- Where a reading succeeds, what it gives is what a ledger is said to hold. -/
theorem strict_readAt {α : Type} (place : Place) (read : Bytes → Except LedgerError α) :
    (Query.record place.bytes read).Strict v fun found => found = v.readAt place read := by
  refine (Query.strict_get place.bytes).bind fun value same => ?_
  rw [Table.readAt, ← same]
  cases value with
  | none => exact Query.strict_pure rfl
  | some bytes =>
    refine (Query.strict_ofExcept (P := fun a => read bytes = .ok a) fun _ given => given).bind
      fun a given => Query.strict_pure ?_
    rw [Option.bind_some, given]
    rfl

theorem strict_nextId : nextId.Strict v fun next => next = v.registry.next :=
  (strict_readAt .nextId _).bind fun _ same => Query.strict_pure (same ▸ rfl)

theorem strict_registerFrom (next : UInt64) (keys : List PublicKey) :
    (registerFrom next keys).Strict v fun r v' =>
      v' = v.applyBatch (registryEntries next (v.newKeys keys)) ∧
        r.2 = next + UInt64.ofNat (v.newKeys keys).length := by
  induction keys generalizing v next with
  | nil => exact strict_pure ⟨rfl, (UInt64.add_zero next).symm⟩
  | cons key rest ih =>
    unfold registerFrom
    refine Strict.query_bind (Query.strict_record (Place.idOf key).bytes _) fun found there => ?_
    have there : found.isSome = v.contains (LedgerKey.idOf key) := there
    cases found with
    | some id =>
      rw [Table.newKeys_cons_known there.symm]
      exact Strict.bind ((ih next).mono fun _ _ post => strict_pure post)
    | none =>
      rw [Table.newKeys_cons_new there.symm next]
      refine Strict.bind (strict_put (Strict.bind (strict_put (Strict.bind ?_))))
      refine (ih (v := v.enroll key next) (next + 1)).mono fun r _ done => ?_
      obtain ⟨written, after⟩ := done
      refine strict_pure ⟨written, after.trans ?_⟩
      rw [List.length_cons, UInt64.ofNat_add _ 1, UInt64.add_assoc, UInt64.add_comm 1]
      rfl

theorem strict_register (keys : List PublicKey) :
    (register keys).Strict v fun _ v' => v' = v.applyBatch (v.registration keys) := by
  unfold register
  refine Strict.query_bind strict_nextId fun next same => Strict.bind ?_
  subst same
  refine (strict_registerFrom _ keys).mono fun r v' done => ?_
  obtain ⟨written, after⟩ := done
  refine Strict.bind (strict_put (strict_pure ?_))
  rw [written, after, Table.registration, Table.applyBatch, Table.applyBatch, List.foldl_append]
  rfl

/-- Keys are registered in one batch, which is the last call; after an error nothing is
    written. -/
theorem commits_registerAll {t : Table Bytes} (keys : List PublicKey) :
    (registerAll keys).run.Commits (fun x r => r = .error (.store x))
      (fun r => ∀ ids, r = .ok ids → t.applyBatch (t.registration keys) = t)
      (fun r t' => ∃ ids, r = .ok ids ∧ t' = t.applyBatch (t.registration keys)) t := by
  have registers : Transaction.Strict (do
      let _ ← nextId
      let ids ← register keys
      let _ ← nextId
      return ids) t fun _ t' => t' = t.applyBatch (t.registration keys) := by
    refine Strict.query_bind strict_nextId fun _ _ => Strict.bind ?_
    refine (strict_register keys).mono fun ids _ registered => ?_
    exact Strict.query_bind strict_nextId fun _ _ => strict_pure registered
  refine (LedgerWork.commits_atomically registers).mono (fun r read ids given => ?_)
    fun r t' ⟨ids, given, _, written⟩ => ⟨ids, given, written⟩
  exact (read ids given rfl).symm

end Ledger

end SlashingGuard
