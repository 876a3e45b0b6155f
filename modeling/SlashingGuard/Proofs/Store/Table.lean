import Mathlib.Data.List.Sort
import SlashingGuard.Store.Call

/-! # Lookups and scans of tables

    A table is determined by its lookups, so an equation between tables is
    proved key by key.  Each change has one equation for the lookups after it,
    and a scan gives exactly the entries whose keys begin with the scope. -/

namespace SlashingGuard

variable {α : Type}

/-! ## Entries -/

namespace Entries

/-- Where a property of later entries passes to earlier ones, the entries that have it come
    first. -/
theorem takeWhile_eq_filter {β : Type} {p : β → Bool} {l : List β}
    (h : l.Pairwise fun a b => p b → p a) : l.takeWhile p = l.filter p := by
  induction l with
  | nil => rfl
  | cons a l ih =>
    obtain ⟨head, tail⟩ := List.pairwise_cons.1 h
    by_cases ha : p a
    · rw [List.takeWhile_cons_of_pos ha, List.filter_cons_of_pos ha, ih tail]
    · rw [List.takeWhile_cons_of_neg ha, List.filter_cons_of_neg ha]
      exact (List.filter_eq_nil_iff.2 fun b hb hp => ha (head b hb hp)).symm

theorem dropWhile_eq_filter {β : Type} {p : β → Bool} {l : List β}
    (h : l.Pairwise fun a b => p b → p a) : l.dropWhile p = l.filter fun a => !p a := by
  induction l with
  | nil => rfl
  | cons a l ih =>
    obtain ⟨head, tail⟩ := List.pairwise_cons.1 h
    by_cases ha : p a
    · rw [List.dropWhile_cons_of_pos ha, List.filter_cons_of_neg (by simpa using ha), ih tail]
    · rw [List.dropWhile_cons_of_neg ha, List.filter_cons_of_pos (by simpa using ha)]
      have rest : ∀ b ∈ l, (!p b) = true := fun b hb => by
        simpa using fun hp => ha (head b hb hp)
      rw [List.filter_eq_self.2 rest]

theorem find?_insert (key : Bytes) (value : α) (entries : List (Entry α)) (key' : Bytes) :
    find? key' (insert key value entries) =
      if key = key' then some value else find? key' entries := by
  induction entries with
  | nil => simp [insert, find?]
  | cons entry rest ih =>
    simp only [insert]
    split
    · simp [find?]
    · next notLt =>
      split
      · next gt =>
        rw [find?, find?, ih]
        by_cases hk : key = key'
        · have ne : entry.1 ≠ key' := by
            rintro rfl
            exact notLt (hk ▸ gt)
          rw [if_neg ne, if_pos hk, if_pos hk]
        · rw [if_neg hk, if_neg hk]
      · next notGt =>
        -- Neither key is below the other: the entry is replaced.
        have same : entry.1 = key :=
          List.le_antisymm (List.not_lt.1 notLt) (List.not_lt.1 notGt)
        by_cases hk : key = key' <;> simp [find?, same, hk]

theorem find?_erase (key : Bytes) (entries : List (Entry α)) (key' : Bytes) :
    find? key' (erase key entries) = if key = key' then none else find? key' entries := by
  induction entries with
  | nil => simp [erase, find?]
  | cons entry rest ih =>
    simp only [erase] at ih
    by_cases he : entry.1 = key
    · rw [erase, List.filter_cons_of_neg (by simpa using he), ih, find?]
      by_cases hk : key = key'
      · rw [if_pos hk, if_pos hk]
      · rw [if_neg hk, if_neg hk, if_neg fun h => hk (he.symm.trans h)]
    · rw [erase, List.filter_cons_of_pos (by simpa using he), find?, find?, ih]
      by_cases hk : key = key'
      · rw [if_neg fun h => he (h.trans hk.symm), if_pos hk, if_pos hk]
      · rw [if_neg hk, if_neg hk]

/-- In ascending entries the lookup of a key finds its only entry. -/
theorem find?_eq_some_iff {entries : List (Entry α)} (h : Ascending entries) {key : Bytes}
    {value : α} : find? key entries = some value ↔ (key, value) ∈ entries := by
  induction entries with
  | nil => simp [find?]
  | cons entry rest ih =>
    obtain ⟨head, tail⟩ := List.pairwise_cons.1 h
    rw [find?, List.mem_cons]
    by_cases he : entry.1 = key
    · have absent : (key, value) ∉ rest := fun hm =>
        List.lt_irrefl _ (he ▸ head _ hm)
      rw [if_pos he, or_iff_left absent, Option.some_inj, Prod.ext_iff]
      exact ⟨fun h => ⟨he.symm, h.symm⟩, fun h => h.2.symm⟩
    · have ne : (key, value) ≠ entry := fun h => he (h ▸ rfl)
      rw [if_neg he, ih tail, or_iff_right ne]

/-- A selection of entries by their keys keeps the lookups of the keys selected. -/
theorem find?_filter (keep : Bytes → Bool) (entries : List (Entry α)) (key : Bytes) :
    find? key (entries.filter fun entry => keep entry.1) =
      if keep key then find? key entries else none := by
  induction entries with
  | nil => simp [find?]
  | cons entry rest ih =>
    by_cases hk : keep entry.1
    · rw [List.filter_cons_of_pos (by simpa using hk), find?, find?, ih]
      by_cases he : entry.1 = key
      · rw [if_pos he, if_pos he, if_pos (he ▸ hk)]
      · rw [if_neg he, if_neg he]
    · rw [List.filter_cons_of_neg (by simpa using hk), ih, find?]
      by_cases he : entry.1 = key
      · rw [if_neg (he ▸ hk), if_neg (he ▸ hk)]
      · rw [if_neg he]

/-- Ascending entries have different keys. -/
theorem nodup_keys {entries : List (Entry α)} (h : Ascending entries) :
    (entries.map Prod.fst).Nodup := by
  refine List.pairwise_map.2 (h.imp fun lt same => ?_)
  rw [same] at lt
  exact List.lt_irrefl _ lt

/-- Ascending entries with the same members are the same. -/
theorem eq_of_mem_iff {entries entries' : List (Entry α)} (h : Ascending entries)
    (h' : Ascending entries') (same : ∀ entry, entry ∈ entries ↔ entry ∈ entries') :
    entries = entries' := by
  have irrefl : Std.Irrefl fun a b : Entry α => a.1 < b.1 := ⟨fun a => List.lt_irrefl a.1⟩
  exact List.Pairwise.eq_of_mem_iff h h' same

end Entries

/-! ## Tables -/

namespace Table

theorem get?_eq_some_iff {t : Table α} {key : Bytes} {value : α} :
    t.get? key = some value ↔ (key, value) ∈ t.entries :=
  Entries.find?_eq_some_iff t.ascending

/-- Tables with the same lookups are the same table. -/
theorem ext_get? {s t : Table α} (h : ∀ key, s.get? key = t.get? key) : s = t := by
  apply Table.ext
  apply Entries.eq_of_mem_iff s.ascending t.ascending
  intro entry
  rw [← get?_eq_some_iff, ← get?_eq_some_iff, h]

@[simp] theorem get?_empty (key : Bytes) : (empty : Table α).get? key = none := rfl

@[simp] theorem get?_insert (t : Table α) (key : Bytes) (value : α) (key' : Bytes) :
    (t.insert key value).get? key' = if key = key' then some value else t.get? key' :=
  Entries.find?_insert key value t.entries key'

@[simp] theorem get?_erase (t : Table α) (key key' : Bytes) :
    (t.erase key).get? key' = if key = key' then none else t.get? key' :=
  Entries.find?_erase key t.entries key'

/-- Of two values put at one key the second counts. -/
theorem insert_insert (t : Table α) (key : Bytes) (value value' : α) :
    (t.insert key value).insert key value' = t.insert key value' := by
  apply ext_get?
  intro key'
  simp only [get?_insert]
  split <;> rfl

/-- Values at two keys are put in either order. -/
theorem insert_comm (t : Table α) {key key' : Bytes} (ne : key ≠ key') (value value' : α) :
    (t.insert key value).insert key' value' = (t.insert key' value').insert key value := by
  apply ext_get?
  intro k
  simp only [get?_insert]
  by_cases h : key = k
  · have other : key' ≠ k := fun h' => ne (h.trans h'.symm)
    rw [if_pos h, if_neg other, if_pos h]
  · rw [if_neg h, if_neg h]

/-- Changes at the keys of ascending entries, one after the other: each key is changed at most
    once, so the lookup of a key is the effect of its own entry. -/
theorem get?_foldl {β : Type} {step : Table α → Entry β → Table α} (effect : β → Option α)
    (hstep : ∀ t entry key, (step t entry).get? key =
      if entry.1 = key then effect entry.2 else t.get? key)
    {entries : List (Entry β)} (h : Entries.Ascending entries) (t : Table α) (key : Bytes) :
    (entries.foldl step t).get? key =
      match Entries.find? key entries with
      | some b => effect b
      | none => t.get? key := by
  induction entries generalizing t with
  | nil => rfl
  | cons entry rest ih =>
    obtain ⟨head, tail⟩ := List.pairwise_cons.1 h
    rw [List.foldl_cons, ih tail, hstep, Entries.find?]
    by_cases he : entry.1 = key
    · have absent : Entries.find? key rest = none := by
        rw [Option.eq_none_iff_forall_ne_some]
        intro b hb
        exact List.lt_irrefl _ (he ▸ head _ ((Entries.find?_eq_some_iff tail).1 hb))
      simp [he, absent]
    · simp [he]

/-- Ascending entries give the table that has them. -/
theorem ofEntries_eq_of_ascending {entries : List (Entry α)} (h : Entries.Ascending entries) :
    ofEntries entries = ⟨entries, h⟩ := by
  refine ext_get? fun key => ?_
  rw [ofEntries, get?_foldl some (fun t entry key => get?_insert t entry.1 entry.2 key) h,
    get?_empty]
  cases he : Entries.find? key entries <;> exact he.symm

/-! ## Scans -/

/-- A byte string that begins with another is not below it. -/
theorem not_lt_of_isPrefixOf {scope key : Bytes} (h : scope.isPrefixOf key) : ¬ key < scope := by
  obtain ⟨rest, rfl⟩ := List.isPrefixOf_iff_prefix.1 h
  induction scope with
  | nil => simp
  | cons a scope ih =>
    simpa [List.cons_lt_cons_iff] using ih (by simp)

/-- What begins with a scope has behind it nothing that does not, down to the scope. -/
theorem isPrefixOf_of_lt {scope a b : Bytes} (ha : ¬ a < scope) (hab : a < b)
    (hb : scope.isPrefixOf b) : scope.isPrefixOf a := by
  induction scope generalizing a b with
  | nil => simp
  | cons c scope ih =>
    match a, b with
    | [], _ => simp at ha
    | _ :: _, [] => simp at hab
    | x :: a, y :: b =>
      simp only [List.cons_lt_cons_iff, not_or, not_and] at ha
      simp only [List.isPrefixOf_cons_cons, Bool.and_eq_true, beq_iff_eq] at hb ⊢
      obtain ⟨rfl, hb⟩ := hb
      rcases List.cons_lt_cons_iff.1 hab with lt | ⟨rfl, lt⟩
      · exact absurd lt ha.1
      · exact ⟨rfl, ih (ha.2 rfl) lt hb⟩

/-- What is neither below a scope nor begins with it is above everything that does. -/
theorem lt_of_not_isPrefixOf {scope key other : Bytes} (notBelow : ¬ other < scope)
    (outside : ¬ scope.isPrefixOf other) (inside : scope.isPrefixOf key) : key < other := by
  by_contra notLt
  rcases List.le_iff_lt_or_eq.1 (List.not_lt.1 notLt) with lt | rfl
  · exact outside (isPrefixOf_of_lt notBelow lt inside)
  · exact outside inside

/-- The entries below a scope come first. -/
theorem below_first (t : Table α) (scope : Bytes) :
    t.entries.Pairwise fun a b => decide (b.1 < scope) → decide (a.1 < scope) := by
  refine t.ascending.imp ?_
  intro a b lt below
  simpa using List.lt_trans lt (by simpa using below)

/-- Of the others those that begin with the scope come first. -/
theorem inside_first (t : Table α) (scope : Bytes) :
    (t.entries.filter fun entry => !decide (entry.1 < scope)).Pairwise fun a b =>
      scope.isPrefixOf b.1 → scope.isPrefixOf a.1 := by
  refine List.Pairwise.imp_of_mem ?_ (t.ascending.filter _)
  intro a b member _ lt inside
  have notBelow := (List.mem_filter.1 member).2
  exact isPrefixOf_of_lt (by simpa using notBelow) lt inside

/-- A scan gives the entries whose keys begin with the scope. -/
theorem scan_eq_filter (t : Table α) (scope : Bytes) :
    t.scan scope = t.entries.filter fun entry => scope.isPrefixOf entry.1 := by
  rw [scan, Entries.dropWhile_eq_filter (t.below_first scope),
    Entries.takeWhile_eq_filter (t.inside_first scope), List.filter_filter]
  refine List.filter_congr fun entry _ => ?_
  by_cases inside : scope.isPrefixOf entry.1
  · simp [inside, not_lt_of_isPrefixOf inside]
  · simp [inside]

/-- The entries of a scan stand together: before them is what is below the scope, and behind them
    what is above every key that begins with it. -/
theorem exists_around_scan (t : Table α) (scope : Bytes) :
    ∃ before after, t.entries = before ++ t.scan scope ++ after ∧
      (∀ entry ∈ before, entry.1 < scope) ∧
      ∀ entry ∈ after, ∀ key, scope.isPrefixOf key → key < entry.1 := by
  let notBelow := t.entries.dropWhile fun entry => entry.1 < scope
  refine ⟨t.entries.takeWhile fun entry => entry.1 < scope,
    notBelow.dropWhile fun entry => scope.isPrefixOf entry.1, ?_, ?_, ?_⟩
  · rw [scan, List.append_assoc, List.takeWhile_append_dropWhile, List.takeWhile_append_dropWhile]
  · intro entry member
    rw [Entries.takeWhile_eq_filter (t.below_first scope)] at member
    simpa using (List.mem_filter.1 member).2
  · intro entry member key inside
    have kept : notBelow = t.entries.filter fun entry => !decide (entry.1 < scope) :=
      Entries.dropWhile_eq_filter (t.below_first scope)
    rw [kept, Entries.dropWhile_eq_filter (t.inside_first scope)] at member
    obtain ⟨member, outside⟩ := List.mem_filter.1 member
    have above := (List.mem_filter.1 member).2
    rw [Bool.not_eq_true', ← Bool.not_eq_true] at outside
    exact lt_of_not_isPrefixOf (by simpa using above) outside inside

theorem mem_scan {t : Table α} {scope key : Bytes} {value : α} :
    (key, value) ∈ t.scan scope ↔ t.get? key = some value ∧ scope.isPrefixOf key := by
  rw [scan_eq_filter, List.mem_filter, get?_eq_some_iff]

theorem ascending_scan (t : Table α) (scope : Bytes) : Entries.Ascending (t.scan scope) := by
  rw [scan_eq_filter]
  exact t.ascending.filter _

/-- A scan keeps the lookups of the keys that begin with the scope. -/
theorem find?_scan (t : Table α) (scope key : Bytes) :
    Entries.find? key (t.scan scope) = if scope.isPrefixOf key then t.get? key else none := by
  rw [scan_eq_filter]
  exact Entries.find?_filter (fun key => scope.isPrefixOf key) t.entries key

/-- Tables that agree at the keys that begin with a scope have the same scan of it. -/
theorem scan_congr {t u : Table α} {scope : Bytes}
    (h : ∀ key, scope.isPrefixOf key → t.get? key = u.get? key) : t.scan scope = u.scan scope := by
  let s : Table α := ⟨t.scan scope, ascending_scan t scope⟩
  let s' : Table α := ⟨u.scan scope, ascending_scan u scope⟩
  suffices same : s = s' from congrArg Table.entries same
  apply ext_get?
  intro key
  show Entries.find? key (t.scan scope) = Entries.find? key (u.scan scope)
  rw [find?_scan, find?_scan]
  split
  · next inside => exact h key inside
  · rfl

/-! ### Complete scans -/

/-- The entries under a scope as a list: every entry of the table whose key begins with the scope
    and no other, each of them once, in strictly ascending order of the keys. -/
structure ListedUnder (t : Table α) (scope : Bytes) (found : List (Entry α)) : Prop where
  members : ∀ key value, (key, value) ∈ found ↔ t.get? key = some value ∧ scope <+: key
  once : (found.map Prod.fst).Nodup
  ascending : Entries.Ascending found

theorem listedUnder_scan (t : Table α) (scope : Bytes) : t.ListedUnder scope (t.scan scope) where
  members key value := by rw [mem_scan, List.isPrefixOf_iff_prefix]
  once := Entries.nodup_keys (t.ascending_scan scope)
  ascending := t.ascending_scan scope

/-- There is one such list. -/
theorem ListedUnder.eq {t : Table α} {scope : Bytes} {found found' : List (Entry α)}
    (h : t.ListedUnder scope found) (h' : t.ListedUnder scope found') : found = found' := by
  apply Entries.eq_of_mem_iff h.ascending h'.ascending
  intro ⟨key, value⟩
  rw [h.members, h'.members]

/-- A scan stops early and still misses nothing: it is the list of the entries under its scope,
    whatever the scope is.  For these entries stand together in the table.  What comes before them
    is below the scope, and what comes behind them is above every key that begins with it, whether
    the table has such a key or not. -/
theorem scan_complete (t : Table α) (scope : Bytes) :
    (∀ found, t.ListedUnder scope found ↔ found = t.scan scope) ∧
    ∃ before after, t.entries = before ++ t.scan scope ++ after ∧
      (∀ entry ∈ before, entry.1 < scope) ∧
      ∀ entry ∈ after, ∀ key, scope <+: key → key < entry.1 := by
  constructor
  · intro found
    constructor
    · intro listed
      exact listed.eq (t.listedUnder_scan scope)
    · rintro rfl
      exact t.listedUnder_scan scope
  · obtain ⟨before, after, parts, below, above⟩ := t.exists_around_scan scope
    refine ⟨before, after, parts, below, ?_⟩
    intro entry member key inside
    exact above entry member key (List.isPrefixOf_iff_prefix.2 inside)

-- A scope that ends in the largest byte, and that is a key itself.
example : (ofEntries [([2], 5), ([1, 255, 0], 4), ([1, 255], 3), ([1, 254, 9], 2)]).scan [1, 255] =
    [([1, 255], 3), ([1, 255, 0], 4)] := by
  decide +kernel

end Table

end SlashingGuard
