import SlashingGuard.Proofs.Ledger.Change
import SlashingGuard.Proofs.Ledger.Writes

/-! # Registration

    Registering keys as a function on tables: a key that has a number keeps
    it, a new one gets the number that comes next.  No account is touched,
    and a failing call leaves nothing but changes of the registry. -/

namespace SlashingGuard

namespace Table

variable {t : Table Bytes}

/-! ## Registering keys -/

/-- The ledger after keys were given their numbers, new keys from `next` on, with the numbers and
    with the number that comes next then. -/
def enrollFrom (t : Table Bytes) (next : UInt64) :
    List PublicKey → Table Bytes × List ValidatorId × UInt64
  | [] => (t, [], next)
  | key :: rest =>
    match t.registry.idOf key with
    | some id =>
      let (t', ids, after) := t.enrollFrom next rest
      (t', id :: ids, after)
    | none =>
      let (t', ids, after) := (t.enroll key next).enrollFrom (next + 1) rest
      (t', ⟨next⟩ :: ids, after)

/-- The ledger after keys were registered, and their numbers. -/
def registerKeys (t : Table Bytes) (keys : List PublicKey) : Table Bytes × List ValidatorId :=
  let (t', ids, next) := t.enrollFrom t.registry.next keys
  (t'.setNext next, ids)

theorem enrollFrom_cons_known {key : PublicKey} {id : ValidatorId}
    (h : t.registry.idOf key = some id) (next : UInt64) (rest : List PublicKey) :
    t.enrollFrom next (key :: rest) =
      ((t.enrollFrom next rest).1, id :: (t.enrollFrom next rest).2.1,
        (t.enrollFrom next rest).2.2) := by
  rw [enrollFrom, h]

theorem enrollFrom_cons_new {key : PublicKey} (h : t.registry.idOf key = none) (next : UInt64)
    (rest : List PublicKey) :
    t.enrollFrom next (key :: rest) =
      (((t.enroll key next).enrollFrom (next + 1) rest).1,
        ⟨next⟩ :: ((t.enroll key next).enrollFrom (next + 1) rest).2.1,
        ((t.enroll key next).enrollFrom (next + 1) rest).2.2) := by
  rw [enrollFrom, h]

@[simp] theorem account_enrollFrom (t : Table Bytes) (next : UInt64) (keys : List PublicKey)
    (id : ValidatorId) : (t.enrollFrom next keys).1.account id = t.account id := by
  induction keys generalizing t next with
  | nil => rfl
  | cons key rest ih =>
    cases known : t.registry.idOf key with
    | some id => rw [enrollFrom_cons_known known, ih]
    | none => rw [enrollFrom_cons_new known, ih, account_enroll]

theorem reaches_enrollFrom (allowed : Bytes → Prop) (t : Table Bytes) (next : UInt64)
    {keys : List PublicKey} (admitted : ∀ key ∈ keys, allowed key.bytes) :
    Reaches allowed t (t.enrollFrom next keys).1 := by
  induction keys generalizing t next with
  | nil => exact .refl
  | cons key rest ih =>
    obtain ⟨first, others⟩ := List.forall_mem_cons.1 admitted
    cases known : t.registry.idOf key with
    | some id => rw [enrollFrom_cons_known known]; exact ih t next others
    | none =>
      rw [enrollFrom_cons_new known]
      exact .head (.enroll next known first) (ih _ _ others)

theorem remembers_enrollFrom (t : Table Bytes) (next : UInt64) (keys : List PublicKey) :
    t.Remembers (t.enrollFrom next keys).1 :=
  (reaches_enrollFrom (fun _ => True) t next fun _ _ => trivial).remembers

/-- Each key has the number that it was given. -/
theorem idOf_enrollFrom (t : Table Bytes) (next : UInt64) {keys : List PublicKey}
    {key : PublicKey} {id : ValidatorId} (h : (key, id) ∈ keys.zip (t.enrollFrom next keys).2.1) :
    (t.enrollFrom next keys).1.registry.idOf key = some id := by
  induction keys generalizing t next with
  | nil => contradiction
  | cons first rest ih =>
    cases known : t.registry.idOf first with
    | some number =>
      rw [enrollFrom_cons_known known] at h ⊢
      rcases List.mem_cons.1 h with same | later
      · obtain ⟨rfl, rfl⟩ := Prod.mk.inj same
        exact (remembers_enrollFrom t next rest).idOf key id known
      · exact ih t next later
    | none =>
      rw [enrollFrom_cons_new known] at h ⊢
      rcases List.mem_cons.1 h with same | later
      · obtain ⟨rfl, rfl⟩ := Prod.mk.inj same
        exact (remembers_enrollFrom _ _ rest).idOf key _ (by simp)
      · exact ih _ _ later

@[simp] theorem account_registerKeys (t : Table Bytes) (keys : List PublicKey)
    (id : ValidatorId) : (t.registerKeys keys).1.account id = t.account id := by
  simp [registerKeys]

theorem reaches_registerKeys (allowed : Bytes → Prop) (t : Table Bytes) {keys : List PublicKey}
    (admitted : ∀ key ∈ keys, allowed key.bytes) : Reaches allowed t (t.registerKeys keys).1 :=
  (reaches_enrollFrom allowed t _ admitted).tail (.setNext _ _)

theorem idOf_registerKeys (t : Table Bytes) {keys : List PublicKey} {key : PublicKey}
    {id : ValidatorId} (h : (key, id) ∈ keys.zip (t.registerKeys keys).2) :
    (t.registerKeys keys).1.registry.idOf key = some id :=
  (remembers_setNext _ _).idOf key id (idOf_enrollFrom t _ h)

end Table

namespace Table

/-- All that may have happened to the registry is that keys were registered, as a whole. -/
def RegistersWhole (t t' : Table Bytes) : Prop :=
  t'.registry = t.registry ∨ ∃ keys, t' = (t.registerKeys keys).1

end Table

/-! ## Numbers -/

/-- Different keys have different numbers, and none of them is above `n`. -/
structure Registry.Numbered (r : Registry) (n : Nat) : Prop where
  le : ∀ key id, r.idOf key = some id → id.number.toNat ≤ n
  injective : ∀ key key' id, r.idOf key = some id → r.idOf key' = some id → key = key'

namespace Table

variable {t : Table Bytes}

/-- A new key gets a number that no key has, as long as the counter has not gone round. -/
theorem numbered_enroll {n : Nat} (h : t.registry.Numbered n) (room : n + 1 < 2 ^ 64)
    (key : PublicKey) : (t.enroll key (UInt64.ofNat (n + 1))).registry.Numbered (n + 1) := by
  have number : (UInt64.ofNat (n + 1)).toNat = n + 1 := by
    rw [UInt64.toNat_ofNat']
    exact Nat.mod_eq_of_lt room
  -- All numbers given so far are at most `n`.
  have fresh : ∀ k, t.registry.idOf k ≠ some ⟨UInt64.ofNat (n + 1)⟩ := by
    intro k hk
    have le := h.le k _ hk
    rw [number] at le
    omega
  constructor
  · intro k id hk
    rw [registry_enroll, Registry.enroll_idOf] at hk
    split at hk
    · obtain rfl := Option.some.inj hk
      exact Nat.le_of_eq number
    · exact Nat.le_succ_of_le (h.le k id hk)
  · intro k k' id hk hk'
    rw [registry_enroll, Registry.enroll_idOf] at hk hk'
    split at hk <;> split at hk'
    · next same same' => exact same.trans same'.symm
    · obtain rfl := Option.some.inj hk
      exact absurd hk' (fresh k')
    · obtain rfl := Option.some.inj hk'
      exact absurd hk (fresh k)
    · exact h.injective k k' id hk hk'

theorem numbered_enrollFrom {n : Nat} (h : t.registry.Numbered n) {keys : List PublicKey}
    (room : n + keys.length < 2 ^ 64) :
    ∃ m ≤ n + keys.length, (t.enrollFrom (UInt64.ofNat (n + 1)) keys).1.registry.Numbered m ∧
      (t.enrollFrom (UInt64.ofNat (n + 1)) keys).2.2 = UInt64.ofNat (m + 1) := by
  induction keys generalizing t n with
  | nil => exact ⟨n, Nat.le_refl n, h, rfl⟩
  | cons key rest ih =>
    rw [List.length_cons] at room ⊢
    cases known : t.registry.idOf key with
    | some id =>
      rw [enrollFrom_cons_known known]
      obtain ⟨m, le, numbered⟩ := ih h (by omega)
      exact ⟨m, by omega, numbered⟩
    | none =>
      rw [enrollFrom_cons_new known]
      have next : UInt64.ofNat (n + 1) + 1 = UInt64.ofNat (n + 1 + 1) := by
        rw [UInt64.ofNat_add (n + 1) 1]; rfl
      obtain ⟨m, le, numbered⟩ := ih (numbered_enroll h (by omega) key) (by omega)
      rw [next]
      exact ⟨m, by omega, numbered⟩

/-- Registering keys keeps numbers apart, as long as there are numbers. -/
theorem numbered_registerKeys {n : Nat} (h : t.registry.Numbered n)
    (next : t.registry.next = UInt64.ofNat (n + 1)) (keys : List PublicKey)
    (room : n + keys.length < 2 ^ 64) :
    ∃ m ≤ n + keys.length, (t.registerKeys keys).1.registry.Numbered m ∧
      (t.registerKeys keys).1.registry.next = UInt64.ofNat (m + 1) := by
  obtain ⟨m, le, numbered, after⟩ := numbered_enrollFrom h room
  refine ⟨m, le, ?_, ?_⟩
  · simp only [registerKeys, next, registry_setNext]
    exact ⟨numbered.le, numbered.injective⟩
  · simp only [registerKeys, next, registry_setNext]
    exact after

end Table

namespace Ledger

open Transaction

variable {faulty : Prop} {v : Table Bytes} {E : LedgerError → Table Bytes → Prop}

/-! ## Registering steps -/

theorem always_registerFrom (allowed : Bytes → Prop) (wf : v.WellFormed) (next : UInt64)
    {keys : List PublicKey} (admitted : ∀ key ∈ keys, allowed key.bytes)
    {Q : List ValidatorId × UInt64 → Table Bytes → Prop}
    (h : Q (v.enrollFrom next keys).2 (v.enrollFrom next keys).1)
    (fault : faulty → ∀ x v', Table.Reaches allowed v v' → E (.store x) v') :
    Transaction.Always faulty (registerFrom next keys) v Q E := by
  induction keys generalizing v next Q with
  | nil => exact always_pure h
  | cons key rest ih =>
    obtain ⟨first, others⟩ := List.forall_mem_cons.1 admitted
    unfold registerFrom
    refine Always.query_bind (yields_idOf? wf.legible key) (fun f x => fault f x v .refl) ?_
    cases known : v.registry.idOf key with
    | some id =>
      rw [Table.enrollFrom_cons_known known] at h
      exact Always.bind (ih wf next others (always_pure h) fault)
    | none =>
      -- The rest of the keys is registered on the ledger that has this one already.
      rw [Table.enrollFrom_cons_new known] at h
      refine Always.bind (always_put (Always.bind (always_put (Always.bind ?_))))
      refine ih (v := v.enroll key next) (wf.enroll key next) (next + 1) others (always_pure h) ?_
      exact fun f x v' reaches => fault f x v' (.head (.enroll next known first) reaches)

theorem always_register (allowed : Bytes → Prop) (wf : v.WellFormed) {keys : List PublicKey}
    (admitted : ∀ key ∈ keys, allowed key.bytes) {Q : List ValidatorId → Table Bytes → Prop}
    (h : Q (v.registerKeys keys).2 (v.registerKeys keys).1)
    (fault : faulty → ∀ x v', Table.Reaches allowed v v' → E (.store x) v') :
    Transaction.Always faulty (register keys) v Q E := by
  unfold register
  refine Always.query_bind (yields_nextId wf.legible) (fun f x => fault f x v .refl) ?_
  refine Always.bind (always_registerFrom allowed wf _ admitted ?_ fault)
  exact Always.bind (always_put (always_pure h))

/-- Registration registers all keys, or a call fails and it changes nothing. -/
theorem always_registerAll {t : Table Bytes} (wf : t.WellFormed) (keys : List PublicKey)
    {Q : Except LedgerError (List ValidatorId) → Table Bytes → Prop}
    (done : Q (.ok (t.registerKeys keys).2) (t.registerKeys keys).1)
    (fault : faulty → ∀ x, Q (.error (.store x)) t) :
    (registerAll keys).run.Always faulty t Q := by
  let allowed : Bytes → Prop := fun _ => True
  have admitted : ∀ key ∈ keys, allowed key.bytes := fun _ _ => trivial
  have wf' := (Table.reaches_registerKeys allowed t admitted).wellFormed wf
  refine LedgerWork.always_atomically (Always.query_bind (yields_nextId wf.legible) fault ?_)
  refine Always.bind (always_register allowed wf admitted ?_ fun f x _ _ => fault f x)
  exact Always.query_bind (yields_nextId wf'.legible) fault (always_pure ⟨done, fault⟩)

end Ledger

end SlashingGuard
