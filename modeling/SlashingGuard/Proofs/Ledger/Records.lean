import Mathlib.Data.List.Perm.Basic
import Mathlib.Data.Set.Finite.Basic
import SlashingGuard.Duty.Record
import SlashingGuard.Ledger.Error

/-! # Lists of records

    Records of validators, each under a number, in a plain list and in no
    particular order.  They are put in, deleted and looked up as in any list.

    Such a list is compared with what is held under validators and numbers
    somewhere else: it has the same records, each of them once, and then a
    lookup finds what is held, a listing in ascending order has what the list
    has, and the last number of the listing is the largest. -/

namespace SlashingGuard

/-! ## Records by number -/

/-- Records of validators, each under a number: its slot or its target. -/
class Numbered (R : Type) where
  validator : R → ValidatorId
  number : R → UInt64

instance : Numbered SignedBlock := ⟨SignedBlock.validator, SignedBlock.slot⟩

instance : Numbered SignedAttestation := ⟨SignedAttestation.validator, SignedAttestation.target⟩

namespace Records

open Numbered

variable {R : Type} [Numbered R]

/-- The records of a validator. -/
def ownedBy (id : ValidatorId) (l : List R) : List R := l.filter fun r => validator r = id

/-- The record of a validator under a number. -/
def at? (l : List R) (id : ValidatorId) (n : UInt64) : Option R :=
  l.find? fun r => validator r = id ∧ number r = n

/-- The largest number, as a natural number, under which a validator has a record. -/
def newest? (l : List R) (id : ValidatorId) : Option Nat :=
  ((ownedBy id l).map fun r => (number r).toNat).max?

/-- A listing of the records of a validator: each of them as often as in the list, in strictly
    ascending order of their numbers. -/
structure Listing (l : List R) (id : ValidatorId) (listing : List R) : Prop where
  perm : listing.Perm (ownedBy id l)
  ascending : listing.Pairwise fun a b => number a < number b

/-- Whether a record is one of a validator with a number below a bound. -/
def isBelow (id : ValidatorId) (bound : UInt64) (r : R) : Bool :=
  validator r = id ∧ number r < bound

/-- Puts a record in.  One that is there is not put in again, and another one in its place is
    refused. -/
def put [DecidableEq R] (l : List R) (r : R) (refusal : R → LedgerError) :
    Except LedgerError Nat × List R :=
  match at? l (validator r) (number r) with
  | none => (.ok 0, r :: l)
  | some held => if held = r then (.ok 0, l) else (.error (refusal held), l)

/-- Deletes the records of a validator below a bound, and counts them. -/
def deleteBelow (l : List R) (id : ValidatorId) (bound : UInt64) :
    Except LedgerError Nat × List R :=
  (.ok (l.countP (isBelow id bound)), l.filter fun r => !isBelow id bound r)

theorem mem_ownedBy {l : List R} {id : ValidatorId} {r : R} :
    r ∈ ownedBy id l ↔ r ∈ l ∧ validator r = id := by
  rw [ownedBy, List.mem_filter, decide_eq_true_eq]

theorem mem_of_at? {l : List R} {id : ValidatorId} {n : UInt64} {r : R} (h : at? l id n = some r) :
    r ∈ l := List.mem_of_find?_eq_some h

/-- A record is there after it was put in, or it was there before. -/
theorem mem_put [DecidableEq R] {l : List R} {r r' : R} {refusal : R → LedgerError} :
    r' ∈ (put l r refusal).2 ↔ r' ∈ l ∨ r = r' ∧ (put l r refusal).1 = .ok 0 := by
  unfold put
  cases held : at? l (validator r) (number r) with
  | none => simp [or_comm, eq_comm]
  | some other =>
    by_cases same : other = r
    · have there : r ∈ l := mem_of_at? (same ▸ held)
      simp only [same, if_true, and_true]
      exact ⟨.inl, fun h => h.elim id fun eq => eq ▸ there⟩
    · simp [same]

theorem mem_deleteBelow {l : List R} {id : ValidatorId} {bound : UInt64} {r : R} :
    r ∈ (deleteBelow l id bound).2 ↔ r ∈ l ∧ ¬ (validator r = id ∧ number r < bound) := by
  simp only [deleteBelow, List.mem_filter, isBelow, Bool.not_eq_true', decide_eq_false_iff_not]

/-! ### Lists of what is held -/

section Lists

variable {l : List R} {held : ValidatorId → UInt64 → Option R}

/-- A list has the records that are held, each once. -/
structure Lists (l : List R) (held : ValidatorId → UInt64 → Option R) : Prop where
  nodup : l.Nodup
  mem : ∀ r, r ∈ l ↔ held (validator r) (number r) = some r

/-- Records are held under their own validator and number. -/
def Filed (held : ValidatorId → UInt64 → Option R) : Prop :=
  ∀ id n r, held id n = some r → validator r = id ∧ number r = n

theorem Lists.at?_eq (h : Lists l held) (filed : Filed held) (id : ValidatorId) (n : UInt64) :
    at? l id n = held id n := by
  cases found : at? l id n with
  | some r =>
    obtain ⟨rfl, rfl⟩ : validator r = id ∧ number r = n := by
      simpa using List.find?_some found
    exact ((h.mem r).1 (mem_of_at? found)).symm
  | none =>
    cases there : held id n with
    | none => rfl
    | some r =>
      obtain ⟨rfl, rfl⟩ := filed id n r there
      have absent := List.find?_eq_none.1 found r ((h.mem r).2 there)
      simp at absent

/-- What is held at finitely many places can be listed. -/
theorem exists_lists
    (finite : {place : ValidatorId × UInt64 | (held place.1 place.2).isSome}.Finite) :
    ∃ l, Lists l held := by
  have all : {r | held (validator r) (number r) = some r}.Finite := by
    refine Set.Finite.of_injOn (f := fun r => (validator r, number r)) (fun r there => ?_)
      (fun r there r' there' same => ?_) finite
    · exact Option.isSome_of_eq_some there
    · obtain ⟨owner, place⟩ := Prod.mk.inj same
      have there : held (validator r) (number r) = some r := there
      rw [owner, place] at there
      exact Option.some.inj (there.symm.trans there')
  exact ⟨all.toFinset.toList, all.toFinset.nodup_toList, fun r => by simp⟩

/-- A record put in at a free place is held from then on. -/
theorem Lists.cons (h : Lists l held) {r : R} (free : held (validator r) (number r) = none) :
    Lists (r :: l) fun id n => if id = validator r ∧ n = number r then some r else held id n where
  nodup := by
    refine List.nodup_cons.2 ⟨fun there => ?_, h.nodup⟩
    rw [(h.mem r).1 there] at free
    contradiction
  mem r' := by
    rw [List.mem_cons, h.mem]
    by_cases same : validator r' = validator r ∧ number r' = number r
    · rw [if_pos same, same.1, same.2, free]
      simp [eq_comm]
    · have ne : r' ≠ r := fun eq => same (eq ▸ ⟨rfl, rfl⟩)
      rw [if_neg same]
      simp [ne]

/-- What is deleted is held no more. -/
theorem Lists.deleteBelow (h : Lists l held) (id : ValidatorId) (bound : UInt64) :
    Lists (Records.deleteBelow l id bound).2
      fun i n => if i = id ∧ n < bound then none else held i n where
  nodup := h.nodup.filter _
  mem r := by
    rw [mem_deleteBelow, h.mem]
    by_cases below : validator r = id ∧ number r < bound
    · simp [below]
    · simp [below]

/-- Order and members make a listing. -/
theorem Lists.listing (h : Lists l held) {id : ValidatorId} {listing : List R}
    (ascending : listing.Pairwise fun a b => number a < number b)
    (mem : ∀ r, r ∈ listing ↔ validator r = id ∧ held id (number r) = some r) :
    Listing l id listing := by
  refine ⟨?_, ascending⟩
  have nodup : listing.Nodup := ascending.imp fun {a b} lt eq => by
    rw [eq] at lt
    exact UInt64.lt_irrefl _ lt
  refine (List.perm_ext_iff_of_nodup nodup (h.nodup.filter _)).2 fun r => ?_
  rw [mem, ← ownedBy, mem_ownedBy, h.mem]
  constructor
  · rintro ⟨rfl, there⟩
    exact ⟨there, rfl⟩
  · rintro ⟨there, rfl⟩
    exact ⟨rfl, there⟩

/-- As many are deleted as a listing of the validator has below the bound. -/
theorem Listing.countP {id : ValidatorId} {listing : List R} (h : Listing l id listing)
    (bound : UInt64) :
    l.countP (isBelow id bound) = (listing.filter fun r => number r < bound).length := by
  have same := (h.perm.filter fun r => number r < bound).length_eq
  rw [same, ownedBy, List.filter_filter, ← List.countP_eq_length_filter]
  refine List.countP_congr fun r _ => ?_
  simp [isBelow, and_comm]

/-- The last number of ascending ones is the largest. -/
theorem getLast?_eq_max? {ns : List UInt64} (ascending : ns.Pairwise (· < ·)) {ks : List Nat}
    (same : ∀ k, k ∈ ks ↔ ∃ n ∈ ns, n.toNat = k) : ns.getLast?.map UInt64.toNat = ks.max? := by
  cases last : ns.getLast? with
  | none =>
    obtain rfl := List.getLast?_eq_none_iff.1 last
    obtain rfl : ks = [] := List.eq_nil_iff_forall_not_mem.2 fun k there => by simp [same] at there
    rfl
  | some n =>
    obtain ⟨front, rfl⟩ := List.getLast?_eq_some_iff.1 last
    refine (List.max?_eq_some_iff.2 ⟨(same _).2 ⟨n, by simp, rfl⟩, fun k there => ?_⟩).symm
    obtain ⟨n', member, rfl⟩ := (same k).1 there
    rcases List.mem_append.1 member with before | itself
    · exact Nat.le_of_lt ((List.pairwise_append.1 ascending).2.2 n' before n (by simp))
    · exact List.mem_singleton.1 itself ▸ Nat.le_refl _

/-- Ascending numbers that are those of a validator's records end with the newest. -/
theorem Lists.newest?_eq (h : Lists l held) (filed : Filed held) {id : ValidatorId}
    {ns : List UInt64} (ascending : ns.Pairwise (· < ·))
    (mem : ∀ n, n ∈ ns ↔ (held id n).isSome) : ns.getLast?.map UInt64.toNat = newest? l id := by
  refine getLast?_eq_max? ascending fun k => ?_
  constructor
  · intro there
    obtain ⟨r, owned, rfl⟩ := List.mem_map.1 there
    obtain ⟨member, rfl⟩ := mem_ownedBy.1 owned
    exact ⟨number r, (mem _).2 (by rw [(h.mem r).1 member]; rfl), rfl⟩
  · rintro ⟨n, member, rfl⟩
    obtain ⟨r, there⟩ := Option.isSome_iff_exists.1 ((mem n).1 member)
    obtain ⟨rfl, rfl⟩ := filed id n r there
    exact List.mem_map.2 ⟨r, mem_ownedBy.2 ⟨(h.mem r).2 there, rfl⟩, rfl⟩

end Lists

end Records

end SlashingGuard
