import Mathlib.Tactic.Ring
import SlashingGuard.Bytes

/-! # Numbers in bytes

    Both layouts of a number can be read back, and the layout with the most
    significant byte first keeps the order: of two byte strings of one length
    the smaller one holds the smaller number. -/

namespace SlashingGuard.Bytes

/-! ## Reading back -/

theorem ofLittleEndian_littleEndian (width n : Nat) :
    ofLittleEndian (littleEndian width n) = n % 256 ^ width := by
  induction width generalizing n with
  | zero => simp [littleEndian, ofLittleEndian, Nat.mod_one]
  | succ width ih =>
    have split : n % 256 ^ (width + 1) = n % 256 + 256 * (n / 256 % 256 ^ width) := by
      rw [Nat.pow_succ', Nat.mod_mul]
    simp [littleEndian, ofLittleEndian, ih, split]

theorem ofLittleEndian_lt (bytes : Bytes) : ofLittleEndian bytes < 256 ^ bytes.length := by
  induction bytes with
  | nil => simp [ofLittleEndian]
  | cons byte rest ih =>
    have h := byte.toNat_lt
    simp only [ofLittleEndian, List.length_cons, Nat.pow_succ]
    omega

theorem littleEndian_ofLittleEndian (bytes : Bytes) :
    littleEndian bytes.length (ofLittleEndian bytes) = bytes := by
  induction bytes with
  | nil => rfl
  | cons byte rest ih =>
    have h := byte.toNat_lt
    have low : UInt8.ofNat (byte.toNat + 256 * ofLittleEndian rest) = byte := by
      apply UInt8.toNat.inj
      simp only [UInt8.toNat_ofNat']
      omega
    have high : (byte.toNat + 256 * ofLittleEndian rest) / 256 = ofLittleEndian rest := by
      omega
    simp only [ofLittleEndian, List.length_cons, littleEndian, low, high, ih]

/-- Only the bits that fit are written. -/
theorem littleEndian_mod (width n : Nat) :
    littleEndian width (n % 256 ^ width) = littleEndian width n := by
  have h := littleEndian_ofLittleEndian (littleEndian width n)
  rwa [ofLittleEndian_littleEndian, length_littleEndian] at h

theorem ofLittleEndian_append (x y : Bytes) :
    ofLittleEndian (x ++ y) = ofLittleEndian x + 256 ^ x.length * ofLittleEndian y := by
  induction x with
  | nil => simp [ofLittleEndian]
  | cons byte rest ih =>
    simp only [List.cons_append, ofLittleEndian, ih, List.length_cons, Nat.pow_succ]
    ring

theorem ofBigEndian_cons (byte : UInt8) (rest : Bytes) :
    ofBigEndian (byte :: rest) = ofBigEndian rest + 256 ^ rest.length * byte.toNat := by
  simp [ofBigEndian, ofLittleEndian_append, ofLittleEndian]

theorem ofBigEndian_lt (bytes : Bytes) : ofBigEndian bytes < 256 ^ bytes.length := by
  simpa [ofBigEndian] using ofLittleEndian_lt bytes.reverse

/-! ## Words -/

@[simp] theorem length_ofWord (n : UInt64) : (ofWord n).length = 8 := by
  simp [ofWord]

@[simp] theorem length_ofWordReversed (n : UInt64) : (ofWordReversed n).length = 8 := by
  simp [ofWordReversed]

@[simp] theorem ofBigEndian_ofWord (n : UInt64) : ofBigEndian (ofWord n) = n.toNat := by
  have h := n.toNat_lt
  simp only [ofBigEndian, ofWord, bigEndian, List.reverse_reverse, ofLittleEndian_littleEndian]
  omega

@[simp] theorem ofLittleEndian_ofWordReversed (n : UInt64) :
    ofLittleEndian (ofWordReversed n) = n.toNat := by
  have h := n.toNat_lt
  simp only [ofWordReversed, ofLittleEndian_littleEndian]
  omega

theorem ofWord_injective {m n : UInt64} (h : ofWord m = ofWord n) : m = n := by
  apply UInt64.toNat.inj
  simpa using congrArg ofBigEndian h

@[simp] theorem ofWord_inj {m n : UInt64} : ofWord m = ofWord n ↔ m = n :=
  ⟨ofWord_injective, fun h => h ▸ rfl⟩

/-- Every eight bytes are those of the number that they hold. -/
theorem ofWordReversed_ofLittleEndian {bytes : Bytes} (h : bytes.length = 8) :
    ofWordReversed (UInt64.ofNat (ofLittleEndian bytes)) = bytes := by
  have bound := ofLittleEndian_lt bytes
  rw [h] at bound
  have number : (UInt64.ofNat (ofLittleEndian bytes)).toNat = ofLittleEndian bytes := by
    rw [UInt64.toNat_ofNat']
    omega
  rw [ofWordReversed, number, ← h, littleEndian_ofLittleEndian]

theorem ofWord_ofBigEndian {bytes : Bytes} (h : bytes.length = 8) :
    ofWord (UInt64.ofNat (ofBigEndian bytes)) = bytes := by
  have reversed : bytes.reverse.length = 8 := List.length_reverse.trans h
  show (ofWordReversed (UInt64.ofNat (ofLittleEndian bytes.reverse))).reverse = bytes
  rw [ofWordReversed_ofLittleEndian reversed, List.reverse_reverse]

/-- Eight bytes or more begin with those of a number. -/
theorem exists_eq_ofWordReversed_append {bytes : Bytes} (h : 8 ≤ bytes.length) :
    ∃ n rest, bytes = ofWordReversed n ++ rest := by
  have eight : (bytes.take 8).length = 8 := by
    rw [List.length_take]
    omega
  refine ⟨UInt64.ofNat (ofLittleEndian (bytes.take 8)), bytes.drop 8, ?_⟩
  rw [ofWordReversed_ofLittleEndian eight, List.take_append_drop]

/-- Bytes can be filled up to a length. -/
theorem exists_filled {bytes : Bytes} {n : Nat} (h : bytes.length ≤ n) :
    ∃ filled : Bytes, filled.length = n ∧ bytes <+: filled := by
  refine ⟨bytes ++ List.replicate (n - bytes.length) 0, ?_, List.prefix_append _ _⟩
  rw [List.length_append, List.length_replicate]
  omega

/-- Fewer bytes are the beginning of some number. -/
theorem exists_prefix_ofWordReversed {bytes : Bytes} (h : bytes.length < 8) :
    ∃ n, bytes <+: ofWordReversed n := by
  obtain ⟨filled, eight, begins⟩ := exists_filled (Nat.le_of_lt h)
  refine ⟨UInt64.ofNat (ofLittleEndian filled), ?_⟩
  rwa [ofWordReversed_ofLittleEndian eight]

/-- Bytes begin with two numbers, or they break off within two numbers. -/
theorem two_words (bytes : Bytes) :
    (∃ m n rest, bytes = ofWordReversed m ++ (ofWordReversed n ++ rest)) ∨
      bytes.length < 16 ∧ ∃ m n, bytes <+: ofWordReversed m ++ ofWordReversed n := by
  by_cases first : 8 ≤ bytes.length
  · obtain ⟨m, rest, rfl⟩ := exists_eq_ofWordReversed_append first
    by_cases second : 8 ≤ rest.length
    · obtain ⟨n, rest, rfl⟩ := exists_eq_ofWordReversed_append second
      exact .inl ⟨m, n, rest, rfl⟩
    · obtain ⟨n, begins⟩ := exists_prefix_ofWordReversed (Nat.lt_of_not_le second)
      refine .inr ⟨?_, m, n, (List.prefix_append_right_inj _).2 begins⟩
      rw [List.length_append, length_ofWordReversed]
      omega
  · obtain ⟨m, begins⟩ := exists_prefix_ofWordReversed (Nat.lt_of_not_le first)
    exact .inr ⟨by omega, m, 0, begins.trans (List.prefix_append _ _)⟩

/-- A length in eight bytes is the word of what is left of it. -/
theorem littleEndian_eq_ofWordReversed (n : Nat) :
    littleEndian 8 n = ofWordReversed (UInt64.ofNat n) := by
  rw [ofWordReversed, UInt64.toNat_ofNat']
  exact (littleEndian_mod 8 n).symm

/-- Words that begin alike are the same. -/
theorem ofWord_prefix_append_iff {m n : UInt64} {rest : Bytes} :
    ofWord m <+: ofWord n ++ rest ↔ m = n := by
  constructor
  · rintro ⟨more, same⟩
    obtain ⟨words, -⟩ := List.append_inj same (by simp)
    exact ofWord_injective words
  · rintro rfl
    exact List.prefix_append _ _

/-! ## Order -/

/-- Of two byte strings of one length the smaller one holds the smaller number. -/
theorem lt_iff_ofBigEndian_lt {x y : Bytes} (h : x.length = y.length) :
    x < y ↔ ofBigEndian x < ofBigEndian y := by
  induction x generalizing y with
  | nil =>
    obtain rfl : y = [] := List.length_eq_zero_iff.1 h.symm
    simp
  | cons a x ih =>
    match y, h with
    | b :: y, h =>
      have len : x.length = y.length := by simpa using h
      have hx := ofBigEndian_lt x
      have hy := ofBigEndian_lt y
      rw [List.cons_lt_cons_iff, ih len, ofBigEndian_cons, ofBigEndian_cons, len]
      rw [len] at hx
      -- The first byte that differs decides, since what follows stays below one unit of it.
      rcases Nat.lt_trichotomy a.toNat b.toNat with lt | eq | gt
      · have step : 256 ^ y.length * (a.toNat + 1) ≤ 256 ^ y.length * b.toNat :=
          Nat.mul_le_mul_left _ lt
        rw [Nat.mul_add, Nat.mul_one] at step
        have : a < b := lt
        simp only [this, true_or, true_iff]
        omega
      · obtain rfl : a = b := UInt8.toNat.inj eq
        simp
      · have step : 256 ^ y.length * (b.toNat + 1) ≤ 256 ^ y.length * a.toNat :=
          Nat.mul_le_mul_left _ gt
        rw [Nat.mul_add, Nat.mul_one] at step
        have notLt : ¬ a < b := fun lt => Nat.lt_asymm gt lt
        have ne : a ≠ b := fun eq => Nat.lt_irrefl _ (eq ▸ gt)
        simp only [notLt, ne, false_and, or_self, false_iff]
        omega

@[simp] theorem ofWord_lt_ofWord {m n : UInt64} : ofWord m < ofWord n ↔ m < n := by
  rw [lt_iff_ofBigEndian_lt (by simp), ofBigEndian_ofWord, ofBigEndian_ofWord]
  rfl

/-- Behind one beginning words stand in the order of their numbers. -/
theorem append_ofWord_lt {scope : Bytes} {m n : UInt64} :
    scope ++ ofWord m < scope ++ ofWord n ↔ m < n := by
  constructor
  · intro h
    rcases UInt64.lt_or_le m n with lt | le
    · exact lt
    · refine absurd h (List.not_lt.2 ?_)
      rcases UInt64.lt_or_eq_of_le le with lt | rfl
      · exact List.le_of_lt (List.append_left_lt (ofWord_lt_ofWord.2 lt))
      · exact List.le_refl _
  · exact fun h => List.append_left_lt (ofWord_lt_ofWord.2 h)

end SlashingGuard.Bytes
