import SlashingGuard.Store.Call

/-! # Ledger files

    The file form of a table: for each entry, in key order, the length of the
    key in four bytes, least significant first, the key, and the value in the
    same way.  Reading takes entries in any order; of two with one key the
    later counts.  A file that ends inside an entry is refused. -/

namespace SlashingGuard.LedgerFile

/-! ## Writing -/

/-- Bytes behind their length, which is cut to four bytes. -/
def encodeChunk (bytes : Bytes) : Bytes :=
  Bytes.littleEndian 4 bytes.length ++ bytes

def encodeEntry (entry : Entry Bytes) : Bytes :=
  encodeChunk entry.1 ++ encodeChunk entry.2

/-- The file form of a table. -/
def encode (t : Table Bytes) : Bytes :=
  t.entries.flatMap encodeEntry

/-! ## Reading -/

/-- The place at which a file ends too early: the start of a chunk whose length is cut, or the
    end of the length of a chunk whose body is. -/
structure Truncated where
  place : Nat
  deriving DecidableEq, Repr

def Truncated.message (e : Truncated) : String :=
  "ledger file truncated at byte " ++ Decimal.write e.place

/-- A chunk that starts at `place`, and what is left behind it. -/
def readChunk (place : Nat) : Bytes → Except Truncated (Bytes × Bytes)
  | a :: b :: c :: d :: body =>
    let length := Bytes.ofLittleEndian [a, b, c, d]
    let chunk := body.take length
    if chunk.length < length then .error ⟨place + 4⟩ else .ok (chunk, body.drop length)
  | _ => .error ⟨place⟩

theorem length_readChunk {place : Nat} {bytes chunk rest : Bytes}
    (h : readChunk place bytes = .ok (chunk, rest)) :
    bytes.length = 4 + chunk.length + rest.length := by
  match bytes, h with
  | a :: b :: c :: d :: body, h =>
    simp only [readChunk] at h
    split at h
    · contradiction
    · simp only [Except.ok.injEq, Prod.mk.injEq] at h
      obtain ⟨rfl, rfl⟩ := h
      simp only [List.length_take, List.length_drop, List.length_cons] at *
      omega

/-- An entry that starts at `place`, and what is left behind it. -/
def readEntry (place : Nat) (bytes : Bytes) : Except Truncated (Entry Bytes × Bytes) := do
  let (key, rest) ← readChunk place bytes
  let (value, after) ← readChunk (place + 4 + key.length) rest
  return ((key, value), after)

/-- The length of the written form of an entry. -/
def entryLength (entry : Entry Bytes) : Nat :=
  8 + entry.1.length + entry.2.length

theorem length_readEntry {place : Nat} {bytes rest : Bytes} {entry : Entry Bytes}
    (h : readEntry place bytes = .ok (entry, rest)) :
    bytes.length = entryLength entry + rest.length := by
  simp only [readEntry, bind, Except.bind] at h
  split at h
  · contradiction
  · next chunk hk =>
    split at h
    · contradiction
    · next chunk' hv =>
      simp only [pure, Except.pure, Except.ok.injEq, Prod.mk.injEq] at h
      obtain ⟨rfl, rfl⟩ := h
      have h₁ := length_readChunk hk
      have h₂ := length_readChunk hv
      simp only [entryLength]
      omega

/-- The entries written from `place` on. -/
def readEntries (place : Nat) (bytes : Bytes) : Except Truncated (List (Entry Bytes)) :=
  if bytes.isEmpty then .ok []
  else
    match h : readEntry place bytes with
    | .error e => .error e
    | .ok (entry, rest) =>
      have shorter : rest.length < bytes.length := by
        have := length_readEntry h
        simp only [entryLength] at this
        omega
      (readEntries (place + entryLength entry) rest).map (entry :: ·)
termination_by bytes.length

/-- The table that a file holds. -/
def decode (bytes : Bytes) : Except Truncated (Table Bytes) :=
  (readEntries 0 bytes).map Table.ofEntries

end SlashingGuard.LedgerFile
