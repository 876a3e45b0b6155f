import SlashingGuard.Proofs.Store.LedgerFile

/-! # The format of ledger files

    What a ledger file has to be, said without its reader: a row of chunks,
    each behind four bytes that hold its length, and every two of them an
    entry.  The reader takes these files and no others, so a file is read into
    the one list of entries that it is written from.

    Writing undoes reading only for files whose keys ascend, since a table
    keeps neither the order of a file nor what a later entry replaces. -/

namespace SlashingGuard

/-! ## The last entry with a key -/

namespace Table

variable {α : Type}

/-- Entries put into a table one after the other: at a key stands the last of them that has it,
    or what stood there before. -/
theorem get?_foldl_insert {entries : List (Entry α)} {t : Table α} {key : Bytes} {value : α} :
    (entries.foldl (fun t entry => t.insert entry.1 entry.2) t).get? key = some value ↔
      (∃ before after, entries = before ++ (key, value) :: after ∧
        ∀ entry ∈ after, entry.1 ≠ key) ∨
      ((∀ entry ∈ entries, entry.1 ≠ key) ∧ t.get? key = some value) := by
  induction entries generalizing t with
  | nil => simp
  | cons entry rest ih =>
    rw [List.foldl_cons, ih, get?_insert]
    constructor
    · rintro (⟨before, after, rfl, others⟩ | ⟨absent, held⟩)
      · exact .inl ⟨entry :: before, after, rfl, others⟩
      · by_cases same : entry.1 = key
        · rw [if_pos same, Option.some_inj] at held
          exact .inl ⟨[], rest, by rw [List.nil_append, ← same, ← held], absent⟩
        · rw [if_neg same] at held
          exact .inr ⟨List.forall_mem_cons.2 ⟨same, absent⟩, held⟩
    · rintro (⟨before, after, parts, others⟩ | ⟨absent, held⟩)
      · cases before with
        | nil =>
          obtain ⟨rfl, rfl⟩ := List.cons.inj parts
          exact .inr ⟨others, if_pos rfl⟩
        | cons first before =>
          exact .inl ⟨before, after, (List.cons.inj parts).2, others⟩
      · obtain ⟨other, absent⟩ := List.forall_mem_cons.1 absent
        exact .inr ⟨absent, by rw [if_neg other, held]⟩

/-- A table with the value of the last entry at each key, and nothing else. -/
def KeepsLast (t : Table α) (entries : List (Entry α)) : Prop :=
  ∀ key value, t.get? key = some value ↔
    ∃ before after, entries = before ++ (key, value) :: after ∧ ∀ entry ∈ after, entry.1 ≠ key

theorem keepsLast_ofEntries (entries : List (Entry α)) : (ofEntries entries).KeepsLast entries := by
  intro key value
  rw [ofEntries, get?_foldl_insert]
  simp

/-- A table holds nothing but the entries that it is made of. -/
theorem mem_of_mem_ofEntries {entries : List (Entry α)} {entry : Entry α}
    (h : entry ∈ (ofEntries entries).entries) : entry ∈ entries := by
  obtain ⟨before, after, rfl, -⟩ :=
    (keepsLast_ofEntries entries _ _).1 (get?_eq_some_iff.2 h)
  simp

end Table

namespace LedgerFile

/-! ## Complete files -/

/-- A complete chunk: four bytes that hold the length of its content, and the content. -/
def Framed (content chunk : Bytes) : Prop :=
  ∃ length : Bytes, length.length = 4 ∧ Bytes.ofLittleEndian length = content.length ∧
    chunk = length ++ content

/-- Complete chunks one after the other, and their contents. -/
inductive Chunks : List Bytes → Bytes → Prop
  | nil : Chunks [] []
  | cons {content chunk bytes : Bytes} {contents : List Bytes} (first : Framed content chunk)
      (rest : Chunks contents bytes) : Chunks (content :: contents) (chunk ++ bytes)

/-- What the chunks of some entries hold: of each the key and then the value. -/
def contents (entries : List (Entry Bytes)) : List Bytes :=
  entries.flatMap fun entry => [entry.1, entry.2]

/-- A file that is made of complete entries. -/
def Complete (entries : List (Entry Bytes)) (bytes : Bytes) : Prop :=
  Chunks (contents entries) bytes

/-- A chunk is complete just if it is written from a content that the format can hold. -/
theorem framed_iff {content chunk : Bytes} :
    Framed content chunk ↔ content.length < 2 ^ 32 ∧ chunk = encodeChunk content := by
  constructor
  · rintro ⟨length, four, holds, rfl⟩
    have bound := Bytes.ofLittleEndian_lt length
    have written := Bytes.littleEndian_ofLittleEndian length
    rw [four, holds] at bound written
    exact ⟨by omega, by rw [encodeChunk, written]⟩
  · rintro ⟨short, rfl⟩
    refine ⟨Bytes.littleEndian 4 content.length, by simp, ?_, rfl⟩
    rw [Bytes.ofLittleEndian_littleEndian]
    exact Nat.mod_eq_of_lt (by omega)

theorem Framed.length_eq {content chunk : Bytes} (h : Framed content chunk) :
    chunk.length = 4 + content.length := by
  obtain ⟨length, four, -, rfl⟩ := h
  rw [List.length_append, four]

theorem Framed.ne_nil {content chunk : Bytes} (h : Framed content chunk) : chunk ≠ [] := by
  intro none
  have four := h.length_eq
  rw [none, List.length_nil] at four
  omega

theorem chunks_iff {contents : List Bytes} {bytes : Bytes} :
    Chunks contents bytes ↔
      (∀ content ∈ contents, content.length < 2 ^ 32) ∧ bytes = contents.flatMap encodeChunk := by
  constructor
  · intro chunks
    induction chunks with
    | nil => simp
    | cons first _ ih =>
      obtain ⟨short, rfl⟩ := framed_iff.1 first
      obtain ⟨shorts, rfl⟩ := ih
      exact ⟨List.forall_mem_cons.2 ⟨short, shorts⟩, rfl⟩
  · rintro ⟨short, rfl⟩
    induction contents with
    | nil => exact .nil
    | cons content contents ih =>
      obtain ⟨first, rest⟩ := List.forall_mem_cons.1 short
      exact .cons (framed_iff.2 ⟨first, rfl⟩) (ih rest)

/-- A file is complete just if it is written from entries that the format can hold. -/
theorem complete_iff {entries : List (Entry Bytes)} {bytes : Bytes} :
    Complete entries bytes ↔
      (∀ entry ∈ entries, entry.1.length < 2 ^ 32 ∧ entry.2.length < 2 ^ 32) ∧
        bytes = entries.flatMap encodeEntry := by
  rw [Complete, chunks_iff]
  refine and_congr ⟨fun short entry member => ?_, fun short content member => ?_⟩
    (Eq.congr_right ?_)
  · have inside : ∀ content ∈ [entry.1, entry.2], content ∈ contents entries :=
      fun content h => List.mem_flatMap.2 ⟨entry, member, h⟩
    exact ⟨short _ (inside _ (by simp)), short _ (inside _ (by simp))⟩
  · obtain ⟨entry, inside, h⟩ := List.mem_flatMap.1 member
    rcases List.mem_pair.1 h with rfl | rfl
    · exact (short entry inside).1
    · exact (short entry inside).2
  · simp only [contents, List.flatMap_assoc, List.flatMap_cons, List.flatMap_nil, List.append_nil]
    rfl

/-- The file of a table that the format can hold is complete. -/
theorem complete_encode {t : Table Bytes} (h : t.FitsFile) : Complete t.entries (encode t) :=
  complete_iff.2 ⟨h, rfl⟩

/-! ## What the reader takes -/

theorem readChunk_eq_ok {place : Nat} {bytes content rest : Bytes} :
    readChunk place bytes = .ok (content, rest) ↔
      ∃ chunk, Framed content chunk ∧ bytes = chunk ++ rest := by
  constructor
  · intro h
    match bytes, h with
    | a :: b :: c :: d :: body, h =>
      simp only [readChunk] at h
      split at h
      · contradiction
      · next whole =>
        simp only [Except.ok.injEq, Prod.mk.injEq] at h
        obtain ⟨rfl, rfl⟩ := h
        refine ⟨[a, b, c, d] ++ body.take (Bytes.ofLittleEndian [a, b, c, d]),
          ⟨[a, b, c, d], rfl, ?_, rfl⟩, by simp⟩
        simp only [List.length_take] at whole ⊢
        omega
  · rintro ⟨chunk, framed, rfl⟩
    obtain ⟨short, rfl⟩ := framed_iff.1 framed
    exact readChunk_encodeChunk place rest short

theorem readEntry_eq_ok {place : Nat} {bytes rest : Bytes} {entry : Entry Bytes} :
    readEntry place bytes = .ok (entry, rest) ↔
      ∃ key value, Framed entry.1 key ∧ Framed entry.2 value ∧ bytes = key ++ value ++ rest := by
  constructor
  · intro h
    simp only [readEntry, bind, Except.bind] at h
    split at h
    · contradiction
    · next hk =>
      split at h
      · contradiction
      · next hv =>
        simp only [pure, Except.pure, Except.ok.injEq, Prod.mk.injEq] at h
        obtain ⟨rfl, rfl⟩ := h
        obtain ⟨key, framedKey, split⟩ := readChunk_eq_ok.1 hk
        obtain ⟨value, framedValue, split'⟩ := readChunk_eq_ok.1 hv
        exact ⟨key, value, framedKey, framedValue, by rw [split, split', List.append_assoc]⟩
  · rintro ⟨key, value, framedKey, framedValue, rfl⟩
    obtain ⟨shortKey, rfl⟩ := framed_iff.1 framedKey
    obtain ⟨shortValue, rfl⟩ := framed_iff.1 framedValue
    exact readEntry_encodeEntry place rest shortKey shortValue

@[simp] theorem readEntries_nil (place : Nat) : readEntries place [] = .ok [] := by
  rw [readEntries]
  rfl

/-- One round of the reader: an entry is read, and then the rest. -/
theorem readEntries_of_ne_nil {place : Nat} {bytes : Bytes} (more : bytes ≠ []) :
    readEntries place bytes = (readEntry place bytes).bind fun out =>
      (readEntries (place + entryLength out.1) out.2).map (out.1 :: ·) := by
  rw [readEntries, if_neg (by simpa using more)]
  split <;> simp_all [Except.bind]

/-- The reader takes the complete files and no others. -/
theorem readEntries_eq_ok {place : Nat} {bytes : Bytes} {entries : List (Entry Bytes)} :
    readEntries place bytes = .ok entries ↔ Complete entries bytes := by
  constructor
  · intro h
    induction place, bytes using readEntries.induct generalizing entries with
    | case1 place bytes done =>
      obtain rfl : bytes = [] := by simpa using done
      obtain rfl : [] = entries := by simpa using h
      exact .nil
    | case2 place bytes more e read =>
      rw [readEntries_of_ne_nil (by simpa using more), read] at h
      contradiction
    | case3 place bytes more entry rest read _ ih =>
      rw [readEntries_of_ne_nil (by simpa using more), read, Except.bind] at h
      cases later : readEntries (place + entryLength entry) rest with
      | error e => rw [later] at h; contradiction
      | ok others =>
        obtain rfl : entry :: others = entries := by simpa [later, Except.map] using h
        obtain ⟨key, value, framedKey, framedValue, rfl⟩ := readEntry_eq_ok.1 read
        rw [List.append_assoc]
        exact .cons framedKey (.cons framedValue (ih later))
  · intro h
    obtain ⟨fits, rfl⟩ := complete_iff.1 h
    exact readEntries_flatMap place fits

/-- A complete file has one list of entries. -/
theorem Complete.unique {entries entries' : List (Entry Bytes)} {bytes : Bytes}
    (h : Complete entries bytes) (h' : Complete entries' bytes) : entries = entries' := by
  have read : readEntries 0 bytes = .ok entries := readEntries_eq_ok.2 h
  have read' : readEntries 0 bytes = .ok entries' := readEntries_eq_ok.2 h'
  exact Except.ok.inj (read.symm.trans read')

/-- A file holds a table just if it is complete and the table is that of its entries. -/
theorem decode_eq_ok {bytes : Bytes} {t : Table Bytes} :
    decode bytes = .ok t ↔ ∃ entries, Complete entries bytes ∧ t = Table.ofEntries entries := by
  rw [decode]
  constructor
  · intro h
    cases read : readEntries 0 bytes with
    | error e => rw [read] at h; contradiction
    | ok entries =>
      rw [read] at h
      exact ⟨entries, readEntries_eq_ok.1 read, (Except.ok.inj h).symm⟩
  · rintro ⟨entries, complete, rfl⟩
    rw [readEntries_eq_ok.2 complete]
    rfl

/-- Whatever file a table is read from, the format can hold it. -/
theorem fitsFile_of_decode {bytes : Bytes} {t : Table Bytes} (h : decode bytes = .ok t) :
    t.FitsFile := by
  obtain ⟨entries, complete, rfl⟩ := decode_eq_ok.1 h
  obtain ⟨fits, -⟩ := complete_iff.1 complete
  exact fun entry member => fits entry (Table.mem_of_mem_ofEntries member)

/-- A table is read back from its file just if the format can hold it. -/
theorem decode_encode_iff {t : Table Bytes} : decode (encode t) = .ok t ↔ t.FitsFile :=
  ⟨fitsFile_of_decode, decode_encode⟩

/-! ## Writing what was read -/

/-- The file of a table that was read is the file it was read from just if the keys there
    ascend. -/
theorem encode_ofEntries_eq {entries : List (Entry Bytes)} {bytes : Bytes}
    (complete : Complete entries bytes) :
    encode (Table.ofEntries entries) = bytes ↔ Entries.Ascending entries := by
  have fits := fitsFile_of_decode (decode_eq_ok.2 ⟨entries, complete, rfl⟩)
  constructor
  · intro same
    have sorted : Complete (Table.ofEntries entries).entries bytes :=
      same ▸ complete_encode fits
    rw [complete.unique sorted]
    exact (Table.ofEntries entries).ascending
  · intro ascending
    rw [Table.ofEntries_eq_of_ascending ascending]
    exact (complete_iff.1 complete).2.symm

/-- Nothing is lost between tables and ledger files.  A table is read back from its file just if
    its keys and values are shorter than 2^32 bytes, and two such tables have two files.  A file
    that can be read has one list of entries; it is the file of the table read from it just if
    their keys are strictly ascending, and in any case that file gives the same table again. -/
theorem encode_decode_lossless :
    (∀ t : Table Bytes, decode (encode t) = .ok t ↔ t.FitsFile) ∧
    (∀ t u : Table Bytes, t.FitsFile → u.FitsFile → t ≠ u → encode t ≠ encode u) ∧
    ∀ (bytes : Bytes) (t : Table Bytes), decode bytes = .ok t →
      t.FitsFile ∧ decode (encode t) = .ok t ∧
      ∃ entries, (∀ other, Complete other bytes ↔ other = entries) ∧
        (encode t = bytes ↔ Entries.Ascending entries) := by
  refine ⟨fun t => decode_encode_iff, fun t u ht hu ne same => ne ?_, fun bytes t h => ?_⟩
  · have back := decode_encode ht
    rw [same, decode_encode hu] at back
    exact (Except.ok.inj back).symm
  · have fits := fitsFile_of_decode h
    obtain ⟨entries, complete, rfl⟩ := decode_eq_ok.1 h
    refine ⟨fits, decode_encode fits, entries, fun other => ⟨fun h' => h'.unique complete, ?_⟩,
      encode_ofEntries_eq complete⟩
    rintro rfl
    exact complete

/-- A file that is out of order and has a key twice is read, and what is written then is another
    file for the same table. -/
theorem encode_decode_lossless_unsorted :
    let entries : List (Entry Bytes) := [([2], [7]), ([1], [8]), ([2], [9])]
    let bytes := entries.flatMap encodeEntry
    let t := Table.ofEntries entries
    t.entries = [([1], [8]), ([2], [9])] ∧ t.FitsFile ∧ decode bytes = .ok t ∧
      decode (encode t) = .ok t ∧ encode t ≠ bytes ∧ encode t ≠ encode Table.empty := by
  intro entries bytes t
  have complete : Complete entries bytes := complete_iff.2 ⟨by decide, rfl⟩
  have read : decode bytes = .ok t := decode_eq_ok.2 ⟨entries, complete, rfl⟩
  obtain ⟨fits, back, entries', unique, same⟩ := encode_decode_lossless.2.2 bytes t read
  obtain rfl : entries = entries' := (unique entries).1 complete
  refine ⟨by decide, fits, read, back, fun h => ?_, ?_⟩
  · exact absurd (same.1 h) (by decide)
  · refine encode_decode_lossless.2.1 t Table.empty fits (by simp [Table.FitsFile, Table.empty]) ?_
    exact fun h => absurd (congrArg Table.entries h) (by decide)

end LedgerFile

end SlashingGuard
