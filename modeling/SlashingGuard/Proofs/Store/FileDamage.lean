import Mathlib.Algebra.Ring.Parity
import SlashingGuard.Proofs.Store.FileFormat
import SlashingGuard.Proofs.Store.Saving

/-! # Damaged ledger files

    A byte string that is no complete ledger file breaks off: some complete
    chunks are followed by one whose length or content is cut.  There the
    reader stops, and names the place.  A file cut short is therefore refused,
    unless the cut falls between two entries, which the format cannot tell
    from a shorter file. -/

namespace SlashingGuard

namespace LedgerFile

/-! ## Where a file breaks off -/

theorem Chunks.split {contents contents' : List Bytes} {bytes : Bytes}
    (h : Chunks (contents ++ contents') bytes) :
    ∃ before behind, bytes = before ++ behind ∧ Chunks contents before ∧
      Chunks contents' behind := by
  obtain ⟨short, rfl⟩ := chunks_iff.1 h
  obtain ⟨shortBefore, shortBehind⟩ := List.forall_mem_append.1 short
  exact ⟨_, _, List.flatMap_append, chunks_iff.2 ⟨shortBefore, rfl⟩,
    chunks_iff.2 ⟨shortBehind, rfl⟩⟩

/-- A chunk takes four bytes at least. -/
theorem Chunks.length_le {contents : List Bytes} {bytes : Bytes} (h : Chunks contents bytes) :
    4 * contents.length ≤ bytes.length := by
  induction h with
  | nil => simp
  | cons framed _ ih =>
    rw [List.length_append, framed.length_eq, List.length_cons]
    omega

theorem length_contents (entries : List (Entry Bytes)) :
    (contents entries).length = 2 * entries.length := by
  simp [contents, List.length_flatMap, Nat.mul_comm]

/-- The reader goes on behind complete entries as it would from the start. -/
theorem readEntries_append {entries : List (Entry Bytes)} {whole : Bytes} (start : Nat)
    (h : Complete entries whole) (rest : Bytes) :
    readEntries start (whole ++ rest) =
      (readEntries (start + whole.length) rest).map (entries ++ ·) := by
  induction entries generalizing start whole with
  | nil =>
    obtain rfl : whole = [] := (complete_iff.1 h).2
    rw [List.nil_append, List.length_nil, Nat.add_zero]
    cases readEntries start rest <;> rfl
  | cons entry entries ih =>
    cases h with
    | @cons _ key _ _ framedKey behind =>
      cases behind with
      | @cons _ value others _ framedValue complete =>
        have more : key ++ (value ++ others) ++ rest ≠ [] := by simp [framedKey.ne_nil]
        have first : readEntry start (key ++ (value ++ others) ++ rest) =
            .ok (entry, others ++ rest) :=
          readEntry_eq_ok.2 ⟨key, value, framedKey, framedValue, by simp⟩
        have place : start + entryLength entry + others.length =
            start + (key ++ (value ++ others)).length := by
          rw [List.length_append, List.length_append, framedKey.length_eq,
            framedValue.length_eq, entryLength]
          omega
        rw [readEntries_of_ne_nil more, first, Except.bind, ih _ complete, place]
        cases readEntries (start + (key ++ (value ++ others)).length) rest <;> rfl

/-- A complete file that goes on as one has the entries of both parts. -/
theorem Complete.of_append {entries before : List (Entry Bytes)} {whole rest : Bytes}
    (h : Complete entries (whole ++ rest)) (h' : Complete before whole) :
    ∃ behind, entries = before ++ behind ∧ Complete behind rest := by
  have read : readEntries 0 (whole ++ rest) = .ok entries := readEntries_eq_ok.2 h
  rw [readEntries_append 0 h'] at read
  cases later : readEntries (0 + whole.length) rest with
  | error e => rw [later] at read; contradiction
  | ok behind =>
    rw [later] at read
    exact ⟨behind, (Except.ok.inj read).symm, readEntries_eq_ok.1 later⟩

/-- An entry takes eight bytes at least, which bounds the rounds of the reader. -/
theorem Complete.length_le {entries : List (Entry Bytes)} {bytes : Bytes}
    (h : Complete entries bytes) : 8 * entries.length ≤ bytes.length := by
  have := Chunks.length_le h
  rw [length_contents] at this
  omega

end LedgerFile

end SlashingGuard
