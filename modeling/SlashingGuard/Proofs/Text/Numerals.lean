import SlashingGuard.Duty

/-! # Numerals are read back

    The decimal text of a word and the hexadecimal text of a byte string are
    read as what they were written from.  Readers accept more than writers
    write, so the converse does not hold. -/

namespace SlashingGuard

/-! ## Decimal words -/

namespace Decimal

theorem digit?_of_isDigit {c : Char} (h : c.isDigit) : digit? c = some (c.toNat - '0'.toNat) := by
  have range : '0' ≤ c ∧ c ≤ '9' := by
    simpa [Char.isDigit, Char.le_def] using h
  rw [digit?, if_pos range]

/-- More digits only add to a number. -/
theorem le_ofDigitChars (digits : List Char) (n : Nat) : n ≤ Nat.ofDigitChars 10 digits n := by
  rw [Nat.ofDigitChars_eq_ofDigitChars_zero]
  have pos : 0 < 10 ^ digits.length := Nat.pow_pos (by decide)
  have := Nat.le_mul_of_pos_left n pos
  omega

/-- Digits that come up to a word are read as what they stand for. -/
theorem readDigits_eq_ok {digits : List Char} (all : ∀ c ∈ digits, c.isDigit) {n : Nat}
    (fits : Nat.ofDigitChars 10 digits n < UInt64.size) :
    readDigits n digits = .ok (Nat.ofDigitChars 10 digits n) := by
  induction digits generalizing n with
  | nil => rfl
  | cons c rest ih =>
    obtain ⟨first, others⟩ := List.forall_mem_cons.1 all
    rw [Nat.ofDigitChars_cons] at fits ⊢
    -- What was gathered so far fits too.
    have le := le_ofDigitChars rest (10 * n + (c.toNat - '0'.toNat))
    have small : n * 10 + (c.toNat - '0'.toNat) < UInt64.size := by omega
    rw [readDigits, digit?_of_isDigit first]
    dsimp only
    rw [if_pos small, Nat.mul_comm n 10]
    exact ih others fits

theorem read_write (n : UInt64) : read (write n.toNat) = .ok n := by
  have digits : ∀ c ∈ Nat.toDigits 10 n.toNat, c.isDigit := fun c h =>
    Nat.isDigit_of_mem_toDigits (by decide) (by decide) h
  have value : Nat.ofDigitChars 10 (Nat.toDigits 10 n.toNat) 0 = n.toNat :=
    Nat.ofDigitChars_toDigits (by decide) (by decide)
  have number := readDigits_eq_ok digits (value ▸ n.toNat_lt_size)
  rw [value] at number
  rw [read, write, String.toList_ofList]
  cases written : Nat.toDigits 10 n.toNat with
  | nil => exact absurd written Nat.toDigits_ne_nil
  | cons c rest =>
    rw [written] at number digits
    -- The first character is a digit and no sign, so all of them are read as digits.
    have unsigned : c ≠ '+' := by
      rintro rfl
      exact absurd (digits '+' List.mem_cons_self) (by decide)
    split
    · contradiction
    · next sign => exact absurd (List.cons.inj sign).1 unsigned
    · next sign => exact absurd (List.cons.inj sign).1 unsigned
    · rw [number]
      exact congrArg Except.ok (UInt64.ofNat_toNat)

end Decimal

/-! ## Byte strings -/

namespace Hex

theorem digit?_digitChar {n : Nat} (h : n < 16) : digit? (Nat.digitChar n) = some n := by
  have all : ∀ n < 16, digit? (Nat.digitChar n) = some n := by decide
  exact all n h

/-- A digit takes one byte. -/
theorem utf8Size_digitChar {n : Nat} (h : n < 16) : (Nat.digitChar n).utf8Size = 1 := by
  have all : ∀ n < 16, (Nat.digitChar n).utf8Size = 1 := by decide
  exact all n h

theorem high_lt (byte : UInt8) : byte.toNat / 16 < 16 := by
  have := byte.toNat_lt
  omega

theorem low_lt (byte : UInt8) : byte.toNat % 16 < 16 := Nat.mod_lt _ (by decide)

theorem utf8Length_pairs (bytes : Bytes) :
    Bytes.utf8Length (bytes.flatMap pair) = 2 * bytes.length := by
  induction bytes with
  | nil => rfl
  | cons byte rest ih =>
    have pairs : (byte :: rest).flatMap pair = Nat.digitChar (byte.toNat / 16) ::
        Nat.digitChar (byte.toNat % 16) :: rest.flatMap pair := rfl
    rw [pairs, Bytes.utf8Length, Bytes.utf8Length, utf8Size_digitChar (high_lt byte),
      utf8Size_digitChar (low_lt byte), ih, List.length_cons]
    omega

theorem readPairs_pairs (bytes : Bytes) (position : Nat) :
    readPairs position (bytes.flatMap pair) = .ok bytes := by
  induction bytes generalizing position with
  | nil => rfl
  | cons byte rest ih =>
    have pairs : (byte :: rest).flatMap pair = Nat.digitChar (byte.toNat / 16) ::
        Nat.digitChar (byte.toNat % 16) :: rest.flatMap pair := rfl
    have whole : 16 * (byte.toNat / 16) + byte.toNat % 16 = byte.toNat := Nat.div_add_mod _ 16
    rw [pairs, readPairs, digitAt, digit?_digitChar (high_lt byte), digitAt,
      digit?_digitChar (low_lt byte), ih]
    show Except.ok (UInt8.ofNat _ :: rest) = _
    rw [whole, UInt8.ofNat_toNat]

theorem readDigits_pairs (bytes : Bytes) : readDigits (bytes.flatMap pair) = .ok bytes := by
  rw [readDigits, utf8Length_pairs, if_neg (by omega), readPairs_pairs]

theorem read_write (bytes : Bytes) : read (write bytes) = .ok bytes := by
  rw [read, write, String.toList_ofList]
  show (readDigits (bytes.flatMap pair)).mapError _ = _
  rw [readDigits_pairs]
  rfl

end Hex

theorem SigningRoot.read_write (root : SigningRoot) : read root.write = .ok root := by
  rw [read, write, Hex.read_write]
  rfl

theorem PublicKey.read_write (key : PublicKey) : read key.write = .ok key := by
  rw [read, write, Hex.read_write]
  rfl

end SlashingGuard
