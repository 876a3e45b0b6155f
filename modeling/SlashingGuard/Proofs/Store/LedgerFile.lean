import SlashingGuard.Proofs.Bytes
import SlashingGuard.Proofs.Store.Table
import SlashingGuard.Store.LedgerFile

/-! # Ledger files can be read back

    The file form holds lengths in four bytes.  A table whose keys and values
    are shorter than that is read back from its file as it was. -/

namespace SlashingGuard

/-- Whether the file form holds a table: its keys and values are shorter than 2^32 bytes. -/
def Table.FitsFile (t : Table Bytes) : Prop :=
  ∀ entry ∈ t.entries, entry.1.length < 2 ^ 32 ∧ entry.2.length < 2 ^ 32

namespace LedgerFile

theorem readChunk_encodeChunk {bytes : Bytes} (place : Nat) (rest : Bytes)
    (h : bytes.length < 2 ^ 32) :
    readChunk place (encodeChunk bytes ++ rest) = .ok (bytes, rest) := by
  have length : Bytes.ofLittleEndian (Bytes.littleEndian 4 bytes.length) = bytes.length := by
    rw [Bytes.ofLittleEndian_littleEndian]
    exact Nat.mod_eq_of_lt (by omega)
  simp only [Bytes.littleEndian] at length
  simp only [encodeChunk, Bytes.littleEndian, List.cons_append, List.nil_append, readChunk, length]
  simp

theorem readEntry_encodeEntry {entry : Entry Bytes} (place : Nat) (rest : Bytes)
    (hk : entry.1.length < 2 ^ 32) (hv : entry.2.length < 2 ^ 32) :
    readEntry place (encodeEntry entry ++ rest) = .ok (entry, rest) := by
  simp only [readEntry, encodeEntry, List.append_assoc, readChunk_encodeChunk _ _ hk,
    readChunk_encodeChunk _ _ hv, bind, Except.bind, pure, Except.pure]

/-- The entries written one after the other are read in their order. -/
theorem readEntries_flatMap {entries : List (Entry Bytes)} (place : Nat)
    (h : ∀ entry ∈ entries, entry.1.length < 2 ^ 32 ∧ entry.2.length < 2 ^ 32) :
    readEntries place (entries.flatMap encodeEntry) = .ok entries := by
  induction entries generalizing place with
  | nil => rw [readEntries]; rfl
  | cons entry rest ih =>
    obtain ⟨⟨hk, hv⟩, hrest⟩ := List.forall_mem_cons.1 h
    have head := readEntry_encodeEntry place (rest.flatMap encodeEntry) hk hv
    have notEmpty : (encodeEntry entry ++ rest.flatMap encodeEntry).isEmpty = false := by
      simp [encodeEntry, encodeChunk, Bytes.littleEndian]
    rw [List.flatMap_cons, readEntries, if_neg (by simp [notEmpty])]
    split
    · next e he => rw [head] at he; contradiction
    · next entry' rest' he =>
      rw [head] at he
      obtain ⟨rfl, rfl⟩ : entry = entry' ∧ rest.flatMap encodeEntry = rest' := by simpa using he
      rw [ih _ hrest]
      rfl

/-- A table is read back from its file. -/
theorem decode_encode {t : Table Bytes} (h : t.FitsFile) : decode (encode t) = .ok t := by
  rw [decode, encode, readEntries_flatMap 0 h]
  exact congrArg Except.ok (Table.ofEntries_eq_of_ascending t.ascending)

end LedgerFile

end SlashingGuard
