/-! # Bytes

    Byte strings and the two fixed-width layouts of a number.  Keys of the
    ledger hold their numbers most significant byte first, so that the order
    of byte strings is the order of numbers; some stored values hold theirs
    least significant byte first. -/

namespace SlashingGuard

/-- A byte string. -/
abbrev Bytes : Type := List UInt8

namespace Bytes

/-- The low `width` bytes of `n`, least significant first. -/
def littleEndian : (width n : Nat) → Bytes
  | 0, _ => []
  | width + 1, n => UInt8.ofNat n :: littleEndian width (n / 256)

/-- The low `width` bytes of `n`, most significant first. -/
def bigEndian (width n : Nat) : Bytes :=
  (littleEndian width n).reverse

/-- The number whose bytes, least significant first, are given. -/
def ofLittleEndian : Bytes → Nat
  | [] => 0
  | byte :: rest => byte.toNat + 256 * ofLittleEndian rest

/-- The number whose bytes, most significant first, are given. -/
def ofBigEndian (bytes : Bytes) : Nat :=
  ofLittleEndian bytes.reverse

@[simp] theorem length_littleEndian (width n : Nat) :
    (littleEndian width n).length = width := by
  induction width generalizing n with
  | zero => rfl
  | succ width ih => simp [littleEndian, ih]

@[simp] theorem length_bigEndian (width n : Nat) :
    (bigEndian width n).length = width := by
  simp [bigEndian]

/-- The eight bytes of a word, most significant first. -/
def ofWord (n : UInt64) : Bytes :=
  bigEndian 8 n.toNat

/-- The eight bytes of a word, least significant first. -/
def ofWordReversed (n : UInt64) : Bytes :=
  littleEndian 8 n.toNat

/-- The bytes of an ASCII text; other characters lose their high bits. -/
def ofAscii (text : String) : Bytes :=
  text.toList.map fun c => UInt8.ofNat c.toNat

/-- How many bytes the UTF-8 form of some characters takes. -/
def utf8Length : List Char → Nat
  | [] => 0
  | c :: rest => c.utf8Size + utf8Length rest

/-- The UTF-8 bytes of a text. -/
def ofText (text : String) : Bytes :=
  text.toList.flatMap String.utf8EncodeChar

/-- The text whose UTF-8 bytes are given; none if they are not UTF-8. -/
def toText? (bytes : Bytes) : Option String :=
  String.fromUTF8? ⟨bytes.toArray⟩

end Bytes

end SlashingGuard
