import SlashingGuard.Bytes

/-! # Tables

    Finite maps from byte strings, as entries in strictly ascending order of
    their keys.  The order is part of the type, so two tables with the same
    entries are the same table, and the keys with a given beginning stand
    next to each other. -/

namespace SlashingGuard

variable {α : Type}

/-- A key with its value. -/
abbrev Entry (α : Type) : Type := Bytes × α

namespace Entries

/-- Keys in strictly ascending order. -/
abbrev Ascending (entries : List (Entry α)) : Prop :=
  entries.Pairwise fun a b => a.1 < b.1

/-- The value at a key. -/
def find? (key : Bytes) : List (Entry α) → Option α
  | [] => none
  | entry :: rest => if entry.1 = key then some entry.2 else find? key rest

/-- The entries with one put in its place, instead of the one with its key. -/
def insert (key : Bytes) (value : α) : List (Entry α) → List (Entry α)
  | [] => [(key, value)]
  | entry :: rest =>
    if key < entry.1 then (key, value) :: entry :: rest
    else if entry.1 < key then entry :: insert key value rest
    else (key, value) :: rest

/-- The entries without the one at a key. -/
def erase (key : Bytes) (entries : List (Entry α)) : List (Entry α) :=
  entries.filter fun entry => entry.1 ≠ key

theorem mem_insert {key : Bytes} {value : α} {entries : List (Entry α)} {e : Entry α}
    (h : e ∈ insert key value entries) : e = (key, value) ∨ e ∈ entries := by
  induction entries with
  | nil => simpa [insert] using h
  | cons entry rest ih =>
    simp only [insert] at h
    split at h
    · simpa using h
    · split at h
      · rcases List.mem_cons.1 h with h | h
        · simp [h]
        · rcases ih h with h | h <;> simp [h]
      · rcases List.mem_cons.1 h with h | h
        · simp [h]
        · simp [h]

theorem ascending_insert (key : Bytes) (value : α) {entries : List (Entry α)}
    (h : Ascending entries) : Ascending (insert key value entries) := by
  induction entries with
  | nil => simp [insert, Ascending]
  | cons entry rest ih =>
    obtain ⟨head, tail⟩ := List.pairwise_cons.1 h
    simp only [insert]
    split
    · next lt =>
      refine List.pairwise_cons.2 ⟨fun e he => ?_, h⟩
      rcases List.mem_cons.1 he with rfl | he
      · exact lt
      · exact List.lt_trans lt (head e he)
    · next notLt =>
      split
      · next gt =>
        refine List.pairwise_cons.2 ⟨fun e he => ?_, ih tail⟩
        rcases mem_insert he with rfl | he
        · exact gt
        · exact head e he
      · next notGt =>
        have same : entry.1 = key :=
          List.le_antisymm (List.not_lt.1 notLt) (List.not_lt.1 notGt)
        exact List.pairwise_cons.2 ⟨fun e he => same ▸ head e he, tail⟩

theorem ascending_erase (key : Bytes) {entries : List (Entry α)} (h : Ascending entries) :
    Ascending (erase key entries) :=
  h.filter _

end Entries

/-- A finite map from byte strings. -/
structure Table (α : Type) where
  entries : List (Entry α)
  ascending : Entries.Ascending entries

namespace Table

@[ext] theorem ext {s t : Table α} (h : s.entries = t.entries) : s = t := by
  cases s; cases t; simpa using h

def empty : Table α := ⟨[], List.Pairwise.nil⟩

/-- The value at a key. -/
def get? (t : Table α) (key : Bytes) : Option α :=
  Entries.find? key t.entries

def contains (t : Table α) (key : Bytes) : Bool :=
  (t.get? key).isSome

/-- The table with a value put at a key. -/
def insert (t : Table α) (key : Bytes) (value : α) : Table α :=
  ⟨Entries.insert key value t.entries, Entries.ascending_insert key value t.ascending⟩

/-- The table with nothing at a key. -/
def erase (t : Table α) (key : Bytes) : Table α :=
  ⟨Entries.erase key t.entries, Entries.ascending_erase key t.ascending⟩

/-- The table of some entries; of two with one key the later counts. -/
def ofEntries (entries : List (Entry α)) : Table α :=
  entries.foldl (fun t entry => t.insert entry.1 entry.2) empty

/-- The entries whose keys begin with `scope`: from the first key that is not below it, as long
    as they do. -/
def scan (t : Table α) (scope : Bytes) : List (Entry α) :=
  (t.entries.dropWhile fun entry => entry.1 < scope).takeWhile fun entry =>
    scope.isPrefixOf entry.1

def size (t : Table α) : Nat := t.entries.length

def isEmpty (t : Table α) : Bool := t.entries.isEmpty

end Table

end SlashingGuard
