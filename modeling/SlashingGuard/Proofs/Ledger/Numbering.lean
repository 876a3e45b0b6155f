import Mathlib.Data.List.Nodup
import SlashingGuard.Proofs.Ledger.Registration

/-! # Numbering

    The numbers of validators follow the order in which their keys came in:
    the first key has the number one, and each new key the number behind the
    one before it.  So the registry is a list of keys without repetitions, and
    registering more keys appends those of them that are not in it.

    This holds as long as the counter has not gone round, that is, as long as
    fewer keys are registered than there are numbers. -/

namespace SlashingGuard

/-! ## Lists without repetitions -/

theorem eraseDups_sublist {α : Type} [BEq α] : (l : List α) → l.eraseDups.Sublist l
  | [] => .refl []
  | a :: l => by
    have shorter : (l.filter fun b => !b == a).length < l.length + 1 :=
      Nat.lt_succ_of_le (List.length_filter_le _ l)
    rw [List.eraseDups_cons]
    exact ((eraseDups_sublist _).trans List.filter_sublist).cons_cons a
termination_by l => l.length

section Lists

variable {α : Type} [BEq α] [LawfulBEq α]

theorem nodup_eraseDups : (l : List α) → l.eraseDups.Nodup
  | [] => List.nodup_nil
  | a :: l => by
    have shorter : (l.filter fun b => !b == a).length < l.length + 1 :=
      Nat.lt_succ_of_le (List.length_filter_le _ l)
    rw [List.eraseDups_cons, List.nodup_cons, List.mem_eraseDups]
    exact ⟨by simp, nodup_eraseDups _⟩
termination_by l => l.length

theorem eraseDups_of_nodup {l : List α} (h : l.Nodup) : l.eraseDups = l := by
  induction l with
  | nil => rfl
  | cons a l ih =>
    obtain ⟨absent, rest⟩ := List.nodup_cons.1 h
    have others : (l.filter fun b => !b == a) = l := by
      refine List.filter_eq_self.2 fun b hb => ?_
      have ne : b ≠ a := fun same => absent (same ▸ hb)
      simpa using ne
    rw [List.eraseDups_cons, others, ih rest]

/-- What was seen before does not count again. -/
theorem eraseDups_append_cons {seen : List α} {a : α} (h : a ∈ seen) (rest : List α) :
    (seen ++ a :: rest).eraseDups = (seen ++ rest).eraseDups := by
  rw [List.eraseDups_append, List.eraseDups_append]
  congr 2
  simp [List.removeAll, h]

end Lists

/-! ## Registries as lists -/

/-- The keys of a registry are those of a list, the first with the number one and each other with
    the number behind that of the key before it. -/
structure Registry.Lists (r : Registry) (order : List PublicKey) : Prop where
  nodup : order.Nodup
  keyOf : ∀ id key, r.keyOf id = some key ↔ ∃ i, order[i]? = some key ∧ id.number.toNat = i + 1
  idOf : ∀ key id, r.idOf key = some id ↔ r.keyOf id = some key
  next : r.next.toNat = order.length + 1

namespace Registry.Lists

variable {r : Registry} {order : List PublicKey} {key : PublicKey} {id : ValidatorId}

/-- A number that is given is between one and the counter. -/
theorem number_bounds (h : r.Lists order) (known : r.keyOf id = some key) :
    1 ≤ id.number ∧ id.number < r.next := by
  obtain ⟨i, found, number⟩ := (h.keyOf id key).1 known
  obtain ⟨lt, -⟩ := List.getElem?_eq_some_iff.1 found
  have next := h.next
  constructor
  · rw [UInt64.le_iff_toNat_le, number]
    exact Nat.le_add_left 1 i
  · rw [UInt64.lt_iff_toNat_lt]
    omega

theorem isSome_idOf_iff (h : r.Lists order) : (r.idOf key).isSome ↔ key ∈ order := by
  rw [Option.isSome_iff_exists]
  constructor
  · rintro ⟨id, known⟩
    obtain ⟨i, found, -⟩ := (h.keyOf id key).1 ((h.idOf key id).1 known)
    exact List.mem_of_getElem? found
  · intro member
    obtain ⟨i, found⟩ := List.getElem?_of_mem member
    obtain ⟨lt, -⟩ := List.getElem?_eq_some_iff.1 found
    have next := h.next
    have bound := r.next.toNat_lt
    have number : (UInt64.ofNat (i + 1)).toNat = i + 1 := by
      rw [UInt64.toNat_ofNat']
      exact Nat.mod_eq_of_lt (by omega)
    exact ⟨⟨UInt64.ofNat (i + 1)⟩, (h.idOf key _).2 ((h.keyOf _ key).2 ⟨i, found, number⟩)⟩

/-- A key that is not in the list comes to its end. -/
theorem enroll (h : r.Lists order) (new : key ∉ order) (room : order.length + 2 < 2 ^ 64) :
    Registry.Lists { r.enroll key ⟨r.next⟩ with next := r.next + 1 } (order ++ [key]) where
  nodup := by simpa using List.Nodup.concat new h.nodup
  keyOf id k := by
    have next := h.next
    simp only [Registry.enroll_keyOf, List.getElem?_append, List.getElem?_singleton]
    split
    · next last =>
      -- The number is the new one, which stands for the place behind the list.
      subst last
      constructor
      · intro same
        refine ⟨order.length, ?_, next⟩
        simpa using same
      · rintro ⟨i, found, number⟩
        obtain rfl : i = order.length := by simp only at number; omega
        simpa using found
    · next earlier =>
      rw [h.keyOf]
      refine exists_congr fun i => and_congr_left fun number => ?_
      have ne : i ≠ order.length := by
        rintro rfl
        apply earlier
        rw [← ValidatorId.number_inj, ← UInt64.toNat_inj, number, next]
      split
      · rfl
      · next behind =>
        have gone : order[i]? = none := List.getElem?_eq_none (by omega)
        have ne : ¬ i - order.length = 0 := by omega
        simp [gone, ne]
  idOf k id := by
    -- The new number stands for nothing yet, and the new key has none.
    have unused : ∀ k, r.keyOf ⟨r.next⟩ ≠ some k := by
      intro k known
      exact UInt64.lt_irrefl _ (h.number_bounds known).2
    have unknown : ∀ id, r.keyOf id ≠ some key := by
      intro id known
      obtain ⟨i, found, -⟩ := (h.keyOf id key).1 known
      exact new (List.mem_of_getElem? found)
    simp only [Registry.enroll_idOf, Registry.enroll_keyOf]
    split <;> split
    · next same last => simp [same, last]
    · next same earlier =>
      subst same
      simp [unknown id, Ne.symm earlier]
    · next other last =>
      subst last
      simp [h.idOf, unused k, Ne.symm other]
    · exact h.idOf k id
  next := by
    have next := h.next
    show (r.next + 1).toNat = (order ++ [key]).length + 1
    rw [UInt64.toNat_add, next, List.length_append]
    exact Nat.mod_eq_of_lt room

end Registry.Lists

/-! ## Registering keys -/

namespace Table

variable {t t' : Table Bytes} {order : List PublicKey}

theorem lists_empty : (empty : Table Bytes).registry.Lists [] where
  nodup := List.nodup_nil
  keyOf id key := by
    constructor
    · intro h
      contradiction
    · rintro ⟨i, found, -⟩
      contradiction
  idOf key id := by constructor <;> intro h <;> contradiction
  next := rfl

/-- Keys that are given numbers from the counter on come to the end of the list, those that are in
    it already apart. -/
theorem lists_enrollFrom (next : UInt64)
    (h : Registry.Lists { t.registry with next := next } order) {keys : List PublicKey}
    (room : (order ++ keys).eraseDups.length + 1 < 2 ^ 64) :
    Registry.Lists
      { (t.enrollFrom next keys).1.registry with next := (t.enrollFrom next keys).2.2 }
      (order ++ keys).eraseDups := by
  induction keys generalizing t next order with
  | nil =>
    rw [List.append_nil, eraseDups_of_nodup h.nodup]
    exact h
  | cons key rest ih =>
    have known_iff : (t.registry.idOf key).isSome ↔ key ∈ order := h.isSome_idOf_iff
    cases known : t.registry.idOf key with
    | some id =>
      have member : key ∈ order := known_iff.1 (by rw [known]; rfl)
      rw [eraseDups_append_cons member] at room ⊢
      rw [enrollFrom_cons_known known]
      exact ih next h room
    | none =>
      have new : key ∉ order := fun member => by simpa [known] using known_iff.2 member
      have split : order ++ key :: rest = (order ++ [key]) ++ rest := by simp
      rw [split] at room ⊢
      -- The list with the key is a part of what is there in the end.
      have nodup : (order ++ [key]).Nodup := by simpa using List.Nodup.concat new h.nodup
      have less : order.length + 2 < 2 ^ 64 := by
        rw [List.eraseDups_append, List.length_append, eraseDups_of_nodup nodup,
          List.length_append, List.length_singleton] at room
        omega
      rw [enrollFrom_cons_new known]
      refine ih (next + 1) ?_ room
      rw [registry_enroll]
      exact h.enroll new less

/-- Each key that was to get a number has one. -/
theorem isSome_idOf_enrollFrom (t : Table Bytes) (next : UInt64) {keys : List PublicKey}
    {key : PublicKey} (h : key ∈ keys) :
    ((t.enrollFrom next keys).1.registry.idOf key).isSome := by
  induction keys generalizing t next with
  | nil => contradiction
  | cons first rest ih =>
    cases known : t.registry.idOf first with
    | some id =>
      rw [enrollFrom_cons_known known]
      rcases List.mem_cons.1 h with rfl | later
      · rw [(remembers_enrollFrom t next rest).idOf key id known]
        rfl
      · exact ih t next later
    | none =>
      rw [enrollFrom_cons_new known]
      rcases List.mem_cons.1 h with rfl | later
      · rw [(remembers_enrollFrom _ _ rest).idOf key ⟨next⟩ (by simp)]
        rfl
      · exact ih _ _ later

/-- As many numbers are given as there are keys. -/
theorem length_enrollFrom (t : Table Bytes) (next : UInt64) (keys : List PublicKey) :
    (t.enrollFrom next keys).2.1.length = keys.length := by
  induction keys generalizing t next with
  | nil => rfl
  | cons key rest ih =>
    cases known : t.registry.idOf key with
    | some id => rw [enrollFrom_cons_known known, List.length_cons, List.length_cons, ih]
    | none => rw [enrollFrom_cons_new known, List.length_cons, List.length_cons, ih]

theorem isSome_idOf_registerKeys (t : Table Bytes) {keys : List PublicKey} {key : PublicKey}
    (h : key ∈ keys) : ((t.registerKeys keys).1.registry.idOf key).isSome := by
  simpa [registerKeys] using isSome_idOf_enrollFrom t t.registry.next h

theorem length_registerKeys (t : Table Bytes) (keys : List PublicKey) :
    (t.registerKeys keys).2.length = keys.length :=
  length_enrollFrom t _ keys

theorem remembers_registerKeys (t : Table Bytes) (keys : List PublicKey) :
    t.Remembers (t.registerKeys keys).1 :=
  (reaches_registerKeys (fun _ => True) t fun _ _ => trivial).remembers

/-! ## Room for numbers -/

/-- The counter has not gone round: however many different keys of the registry are listed, they
    are fewer than the numbers from one on. -/
def HasRoom (t : Table Bytes) : Prop :=
  ∀ order : List PublicKey, order.Nodup → (∀ key ∈ order, (t.registry.idOf key).isSome) →
    order.length + 1 < 2 ^ 64

theorem HasRoom.of_remembers (room : t'.HasRoom) (h : t.Remembers t') : t.HasRoom := by
  intro order nodup known
  refine room order nodup fun key hk => ?_
  obtain ⟨id, hid⟩ := Option.isSome_iff_exists.1 (known key hk)
  rw [h.idOf key id hid]
  rfl

/-- There is room as long as the ledger has fewer entries than there are numbers. -/
theorem hasRoom_of_size (h : t.size + 1 < 2 ^ 64) : t.HasRoom := by
  intro order nodup known
  -- Each key of the registry has an entry of its own.
  have entries : order.map (fun key => (Place.idOf key).bytes) ⊆ t.entries.map Prod.fst := by
    intro bytes member
    obtain ⟨key, hk, rfl⟩ := List.mem_map.1 member
    obtain ⟨id, hid⟩ := Option.isSome_iff_exists.1 (known key hk)
    obtain ⟨value, found, -⟩ := Option.bind_eq_some_iff.1 hid
    exact List.mem_map_of_mem (f := Prod.fst) (get?_eq_some_iff.1 found)
  have different : (order.map fun key => (Place.idOf key).bytes).Nodup := by
    refine nodup.map fun key key' same => ?_
    simpa using same
  have le := (List.subperm_of_subset different entries).length_le
  rw [List.length_map, List.length_map] at le
  exact Nat.lt_of_le_of_lt (Nat.succ_le_succ le) h

/-- Registering keys appends those that are new, in their order. -/
theorem lists_registerKeys (h : t.registry.Lists order) {keys : List PublicKey}
    (room : (t.registerKeys keys).1.HasRoom) :
    (t.registerKeys keys).1.registry.Lists (order ++ keys).eraseDups := by
  have less : (order ++ keys).eraseDups.length + 1 < 2 ^ 64 := by
    refine room _ (nodup_eraseDups _) fun key hk => ?_
    rcases List.mem_append.1 (List.mem_eraseDups.1 hk) with before | now
    · obtain ⟨id, hid⟩ := Option.isSome_iff_exists.1 (h.isSome_idOf_iff.2 before)
      rw [(remembers_registerKeys t keys).idOf key id hid]
      rfl
    · exact isSome_idOf_registerKeys t now
  have lists := lists_enrollFrom t.registry.next h less
  simpa only [registerKeys, registry_setNext] using lists

/-! ## Tidy registries -/

/-- The registry is a list of keys, unless the counter has gone round. -/
def Tidy (t : Table Bytes) : Prop :=
  t.HasRoom → ∃ order, t.registry.Lists order

theorem tidy_empty : (empty : Table Bytes).Tidy := fun _ => ⟨[], lists_empty⟩

/-- Registrations that are made as a whole keep it one. -/
theorem Tidy.registersWhole (tidy : t.Tidy) (h : t.RegistersWhole t') : t'.Tidy := by
  intro room
  rcases h with same | ⟨keys, rfl⟩
  · rw [same]
    exact tidy (room.of_remembers (.of_registry_eq same))
  · obtain ⟨order, lists⟩ := tidy (room.of_remembers (remembers_registerKeys t keys))
    exact ⟨_, lists_registerKeys lists room⟩

/-! ## Registering again -/

/-- Keys that all have numbers are given none. -/
theorem enrollFrom_known (next : UInt64) {keys : List PublicKey}
    (known : ∀ key ∈ keys, (t.registry.idOf key).isSome) :
    (t.enrollFrom next keys).1 = t ∧ (t.enrollFrom next keys).2.2 = next := by
  induction keys with
  | nil => exact ⟨rfl, rfl⟩
  | cons key rest ih =>
    obtain ⟨first, others⟩ := List.forall_mem_cons.1 known
    obtain ⟨id, hid⟩ := Option.isSome_iff_exists.1 first
    rw [enrollFrom_cons_known hid]
    exact ih others

/-- Where the counter is stored, registering keys that all have numbers changes nothing. -/
theorem registerKeys_counted {n : UInt64} {keys : List PublicKey}
    (known : ∀ key ∈ keys, (t.registry.idOf key).isSome)
    (stored : t.get? Place.nextId.bytes = some (Bytes.ofWord n)) : (t.registerKeys keys).1 = t := by
  have next : t.registry.next = n := by
    simp [registry, readAt, stored, Except.toOption]
  obtain ⟨same, counter⟩ := enrollFrom_known t.registry.next known
  have table : (t.registerKeys keys).1 =
      (t.enrollFrom t.registry.next keys).1.setNext (t.enrollFrom t.registry.next keys).2.2 := rfl
  rw [table, same, counter, next, setNext]
  -- The counter is written with the value that it has.
  refine ext_get? fun key => ?_
  rw [get?_insert]
  split
  · next here => rw [← here, stored]
  · rfl

theorem isSome_nextId_registerKeys (t : Table Bytes) (keys : List PublicKey) :
    ((t.registerKeys keys).1.get? Place.nextId.bytes).isSome := by
  simp [registerKeys, setNext]

end Table

end SlashingGuard
