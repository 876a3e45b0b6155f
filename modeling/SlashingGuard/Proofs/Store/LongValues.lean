import SlashingGuard.Proofs.Store.FileFormat

/-! # Values too long for the file

    The file form holds a length in four bytes, and the writer cuts a length
    that is longer.  Nothing refuses a value of 2^32 bytes: it is written
    whole, behind the length of its first bytes only.  The reader takes these
    for the value and goes on with the rest as if further entries stood there.

    So whoever chooses such a value chooses entries of the ledger that is
    opened next: what stands under a key there need not be what was put. -/

namespace SlashingGuard

namespace Table

variable {α : Type}

/-- The table with entries put in, one after the other. -/
def insertAll (t : Table α) (entries : List (Entry α)) : Table α :=
  entries.foldl (fun t entry => t.insert entry.1 entry.2) t

@[simp] theorem insertAll_nil (t : Table α) : t.insertAll [] = t := rfl

@[simp] theorem insertAll_cons (t : Table α) (entry : Entry α) (rest : List (Entry α)) :
    t.insertAll (entry :: rest) = (t.insert entry.1 entry.2).insertAll rest := rfl

theorem ofEntries_append (entries entries' : List (Entry α)) :
    ofEntries (entries ++ entries') = (ofEntries entries).insertAll entries' :=
  List.foldl_append

/-- An entry whose key the others do not have can be put in before or after them. -/
theorem insertAll_insert (t : Table α) (key : Bytes) (value : α) {entries : List (Entry α)}
    (others : ∀ entry ∈ entries, entry.1 ≠ key) :
    (t.insert key value).insertAll entries = (t.insertAll entries).insert key value := by
  induction entries generalizing t with
  | nil => rfl
  | cons entry rest ih =>
    obtain ⟨other, others⟩ := List.forall_mem_cons.1 others
    rw [insertAll_cons, insertAll_cons, insert_comm t other.symm, ih _ others]

/-- So can any entries whose keys the others do not have. -/
theorem insertAll_comm (t : Table α) {entries entries' : List (Entry α)}
    (apart : ∀ entry ∈ entries, ∀ entry' ∈ entries', entry'.1 ≠ entry.1) :
    (t.insertAll entries).insertAll entries' = (t.insertAll entries').insertAll entries := by
  induction entries generalizing t with
  | nil => rfl
  | cons entry rest ih =>
    obtain ⟨first, apart⟩ := List.forall_mem_cons.1 apart
    rw [insertAll_cons, insertAll_cons, ih _ apart, insertAll_insert t _ _ first]

end Table

/-- Where an entry that was put in stands among the others does not depend on its value. -/
theorem Entries.exists_around_insert {α : Type} (key : Bytes) (entries : List (Entry α)) :
    ∃ before after : List (Entry α), (∀ entry ∈ before ++ after, entry ∈ entries) ∧
      ∀ value, insert key value entries = before ++ (key, value) :: after := by
  induction entries with
  | nil => exact ⟨[], [], by simp, fun _ => rfl⟩
  | cons entry rest ih =>
    by_cases below : key < entry.1
    · exact ⟨[], entry :: rest, by simp, fun value => by rw [insert, if_pos below]; rfl⟩
    · by_cases above : entry.1 < key
      · obtain ⟨before, after, members, parts⟩ := ih
        refine ⟨entry :: before, after, ?_, fun value => ?_⟩
        · simpa using fun a b h => .inr (members (a, b) (by simpa using h))
        · rw [insert, if_neg below, if_pos above, parts]
          rfl
      · refine ⟨[], rest, fun e he => List.mem_cons_of_mem _ he, fun value => ?_⟩
        rw [insert, if_neg below, if_neg above]
        rfl

namespace LedgerFile

/-! ## What is written of a long value -/

/-- Behind bytes whose length is a multiple of 2^32 the length that is written does not change. -/
theorem encodeChunk_append {rest : Bytes} (whole : 2 ^ 32 ∣ rest.length) (shown : Bytes) :
    encodeChunk (shown ++ rest) = encodeChunk shown ++ rest := by
  obtain ⟨n, whole⟩ := whole
  have lengths : Bytes.littleEndian 4 (shown ++ rest).length =
      Bytes.littleEndian 4 shown.length := by
    rw [← Bytes.littleEndian_mod, ← Bytes.littleEndian_mod 4 shown.length, List.length_append,
      whole]
    congr 1
    omega
  rw [encodeChunk, encodeChunk, lengths, List.append_assoc]

/-- A value with other entries behind its first bytes is written as the entry that has these bytes
    only, with the other entries behind it. -/
theorem encodeEntry_append {hidden : List (Entry Bytes)}
    (whole : 2 ^ 32 ∣ (hidden.flatMap encodeEntry).length) (key shown : Bytes) :
    encodeEntry (key, shown ++ hidden.flatMap encodeEntry) =
      ((key, shown) :: hidden).flatMap encodeEntry := by
  simp only [encodeEntry, encodeChunk_append whole, List.flatMap_cons, List.append_assoc]

/-- A table with a value of that kind is not the one that its file opens with: the key has the
    first bytes only, and the hidden entries have come in after it.  They must not have keys that
    others have, since of two entries with one key the later counts. -/
theorem decode_encode_insert {t : Table Bytes} (fits : t.FitsFile) {key shown : Bytes}
    {hidden : List (Entry Bytes)}
    (short : ∀ entry ∈ (key, shown) :: hidden, entry.1.length < 2 ^ 32 ∧ entry.2.length < 2 ^ 32)
    (whole : 2 ^ 32 ∣ (hidden.flatMap encodeEntry).length)
    (fresh : ∀ entry ∈ hidden, entry.1 ≠ key → t.get? entry.1 = none) :
    decode (encode (t.insert key (shown ++ hidden.flatMap encodeEntry))) =
      .ok ((t.insert key shown).insertAll hidden) := by
  obtain ⟨before, after, members, parts⟩ := Entries.exists_around_insert key t.entries
  have written : encode (t.insert key (shown ++ hidden.flatMap encodeEntry)) =
      (before ++ (key, shown) :: (hidden ++ after)).flatMap encodeEntry := by
    show (Entries.insert key _ t.entries).flatMap encodeEntry = _
    rw [parts, List.flatMap_append, List.flatMap_cons, encodeEntry_append whole]
    simp only [List.flatMap_append, List.flatMap_cons, List.append_assoc]
  have fit : ∀ entry ∈ before ++ (key, shown) :: (hidden ++ after),
      entry.1.length < 2 ^ 32 ∧ entry.2.length < 2 ^ 32 := by
    intro entry member
    simp only [List.mem_append, List.mem_cons] at member short members
    rcases member with h | h | h | h
    · exact fits entry (members entry (.inl h))
    · exact short entry (.inl h)
    · exact short entry (.inr h)
    · exact fits entry (members entry (.inr h))
  have ascending : Entries.Ascending (before ++ (key, shown) :: after) :=
    parts shown ▸ Entries.ascending_insert key shown t.ascending
  -- What stands behind the key has other keys than it and than the hidden entries.
  have apart : ∀ entry ∈ hidden, ∀ entry' ∈ after, entry'.1 ≠ entry.1 := by
    intro entry he entry' he' same
    have behind : key < entry'.1 :=
      (List.pairwise_cons.1 (List.pairwise_append.1 ascending).2.1).1 entry' he'
    have other : entry.1 ≠ key := by
      intro itself
      rw [same, itself] at behind
      exact List.lt_irrefl _ behind
    have there : t.get? entry'.1 = some entry'.2 :=
      Table.get?_eq_some_iff.2 (members entry' (List.mem_append_right _ he'))
    rw [same, fresh entry he other] at there
    contradiction
  have read : decode (encode (t.insert key (shown ++ hidden.flatMap encodeEntry))) =
      .ok (Table.ofEntries (before ++ (key, shown) :: (hidden ++ after))) :=
    decode_eq_ok.2 ⟨_, complete_iff.2 ⟨fit, written⟩, rfl⟩
  rw [read]
  refine congrArg Except.ok ?_
  calc Table.ofEntries (before ++ (key, shown) :: (hidden ++ after))
      = ((Table.ofEntries (before ++ [(key, shown)])).insertAll hidden).insertAll after := by
        rw [← Table.ofEntries_append, ← Table.ofEntries_append]
        simp
    _ = (Table.ofEntries (before ++ (key, shown) :: after)).insertAll hidden := by
        rw [Table.insertAll_comm _ apart, ← Table.ofEntries_append]
        simp
    _ = (t.insert key shown).insertAll hidden := by
        rw [Table.ofEntries_eq_of_ascending ascending]
        exact congrArg (Table.insertAll · hidden) (Table.ext (parts shown).symm)

/-! ## Entries of 2^32 bytes -/

/-- Bytes of a given number, all of them zero. -/
def zeros (n : Nat) : Bytes := List.replicate n 0

@[simp] theorem length_zeros (n : Nat) : (zeros n).length = n := List.length_replicate

/-- How many zeros make some entries, and a last one with a key of its own, 2^32 bytes long. -/
def padding (entries : List (Entry Bytes)) (key : Bytes) : Nat :=
  2 ^ 32 - ((entries.flatMap encodeEntry).length + 8 + key.length)

/-- Some entries, and behind them an entry of zeros that fills them up to 2^32 bytes. -/
def filledUp (entries : List (Entry Bytes)) (key : Bytes) : List (Entry Bytes) :=
  entries ++ [(key, zeros (padding entries key))]

theorem length_encodeEntry (entry : Entry Bytes) :
    (encodeEntry entry).length = entryLength entry := by
  simp only [encodeEntry, encodeChunk, List.length_append, Bytes.length_littleEndian, entryLength]
  omega

theorem length_filledUp {entries : List (Entry Bytes)} {key : Bytes}
    (room : (entries.flatMap encodeEntry).length + 8 + key.length ≤ 2 ^ 32) :
    ((filledUp entries key).flatMap encodeEntry).length = 2 ^ 32 := by
  simp only [filledUp, List.flatMap_append, List.flatMap_cons, List.flatMap_nil, List.append_nil,
    List.length_append, length_encodeEntry, entryLength, length_zeros, padding]
  omega

end LedgerFile

end SlashingGuard
