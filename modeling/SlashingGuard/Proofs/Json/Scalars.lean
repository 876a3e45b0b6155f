import SlashingGuard.Proofs.Json.Reading
import SlashingGuard.Proofs.Text.Numerals

/-! # Truth values, numbers and names are read

    A truth value and a name are read wherever they stand.  A number is read
    up to its end, so what follows must not go on with it: inside a record a
    blank, a comma or the end of the object follows. -/

namespace SlashingGuard.Json

/-! ## Truth values -/

theorem readWord_append (word : List Char) (rest : Rest) :
    readWord word (word ++ rest) = .ok rest := by
  induction word with
  | nil => rfl
  | cons c word ih =>
    rw [List.cons_append, readWord, if_pos rfl]
    exact ih

theorem reads_bool (value : Bool) : Reads readBool (.bool value) value := by
  intro b text rest blanks spells
  have ahead := spells.skipBlanks_append blanks rest
  cases spells
  rw [readBool, ahead]
  cases value with
  | true => exact congrArg (Except.map _) (readWord_append ['r', 'u', 'e'] rest)
  | false => exact congrArg (Except.map _) (readWord_append ['a', 'l', 's', 'e'] rest)

/-! ## Names -/

/-- The name of an enumerated value is read as that value. -/
theorem reads_enum {α : Type} {named : List (String × α)} {name : String} {a : α}
    (known : named.lookup name = some a) : Reads (readEnum named) (.text name) a := by
  intro b text rest blanks spells
  have ahead := spells.skipBlanks_append blanks rest
  have name := reads_textAs "variant identifier" name [] text rest blanks_nil spells
  cases spells
  rw [toList_quoted, List.cons_append] at ahead name
  rw [toList_quoted, List.cons_append, readEnum, ahead]
  show readName named _ = _
  rw [List.nil_append] at name
  rw [readName, name]
  simp only [bind, Except.bind, known]

/-! ## Numbers -/

theorem isDigit_of_isDigit {c : Char} (h : c.isDigit) : isDigit c = true := by
  simpa [isDigit, Char.isDigit, Char.le_def] using h

/-- A number is written without zeros in front. -/
theorem toDigits_eq_zero_cons {n : Nat} {more : List Char} (h : Nat.toDigits 10 n = '0' :: more) :
    n = 0 := by
  induction n using Nat.strong_induction_on generalizing more with
  | _ n ih =>
    by_cases small : n < 10
    · rw [Nat.toDigits_of_lt_base small, List.cons.injEq] at h
      have all : ∀ n < 10, Nat.digitChar n = '0' → n = 0 := by decide
      exact all n small h.1
    · rw [Nat.toDigits_of_base_le (by decide) (by omega)] at h
      -- The number without its last digit begins with the same digit, but it is not zero.
      cases front : Nat.toDigits 10 (n / 10) with
      | nil => exact absurd front Nat.toDigits_ne_nil
      | cons c rest =>
        rw [front, List.cons_append, List.cons.injEq] at h
        have := ih (n / 10) (by omega) (h.1 ▸ front)
        omega

/-- Digits of a number that fits a word are gathered to the end. -/
theorem gather_eq {digits : List Char} {n : Nat}
    (fits : Nat.ofDigitChars 10 digits n < UInt64.size) :
    gather n digits = (Nat.ofDigitChars 10 digits n, []) := by
  induction digits generalizing n with
  | nil => rfl
  | cons c rest ih =>
    rw [Nat.ofDigitChars_cons, Nat.mul_comm 10 n] at fits ⊢
    have le := Decimal.le_ofDigitChars rest (n * 10 + (c.toNat - '0'.toNat))
    have small : n * 10 + digitValue c < UInt64.size := Nat.lt_of_le_of_lt le fits
    rw [gather, if_pos small]
    exact ih fits

/-- Behind its digits a number is complete, if nothing follows that would go on with it. -/
theorem afterWhole_of_stops {rest : Rest} (stops : Stops rest) (n : Nat) :
    afterWhole false n 0 rest = .ok (.word n, rest) := by
  unfold afterWhole
  split
  · exact absurd (stops _ rfl) (by decide)
  · exact absurd (stops _ rfl) (by decide)
  · exact absurd (stops _ rfl) (by decide)
  · rfl

theorem Stops.not_isDigit {c : Char} {rest : Rest} (stops : Stops (c :: rest)) :
    isDigit c = false := by
  have ends := stops c rfl
  simp only [continuesNumber, Bool.or_eq_false_iff] at ends
  exact ends.1.1.1

/-- The digits of a number end where it does. -/
theorem takeWhile_digits {digits : List Char} (all : ∀ c ∈ digits, isDigit c) {rest : Rest}
    (stops : Stops rest) :
    (digits ++ rest).takeWhile isDigit = digits ∧ (digits ++ rest).dropWhile isDigit = rest := by
  rw [List.takeWhile_append_of_pos all, List.dropWhile_append_of_pos all]
  cases rest with
  | nil => exact ⟨List.append_nil digits, rfl⟩
  | cons c more => simp [stops.not_isDigit]

/-- A number that fits a word is read up to its end. -/
theorem readNumber_write {n : Nat} (fits : n < UInt64.size) {rest : Rest} (stops : Stops rest) :
    readNumber false ((Decimal.write n).toList ++ rest) = .ok (.word n, rest) := by
  have digits : ∀ c ∈ Nat.toDigits 10 n, isDigit c := fun c h =>
    isDigit_of_isDigit (Nat.isDigit_of_mem_toDigits (by decide) (by decide) h)
  have value : Nat.ofDigitChars 10 (Nat.toDigits 10 n) 0 = n :=
    Nat.ofDigitChars_toDigits (by decide) (by decide)
  have gathered := gather_eq (value ▸ fits)
  obtain ⟨taken, dropped⟩ := takeWhile_digits digits stops
  rw [value] at gathered
  rw [Decimal.write, String.toList_ofList]
  cases written : Nat.toDigits 10 n with
  | nil => exact absurd written Nat.toDigits_ne_nil
  | cons c more =>
    rw [written] at digits taken dropped gathered
    by_cases zero : c = '0'
    · subst zero
      obtain rfl := toDigits_eq_zero_cons written
      obtain rfl : more = [] := by simpa [eq_comm] using written
      -- Zero is read by its first digit, and no digit may follow.
      cases rest with
      | nil => rfl
      | cons d more =>
        show (if isDigit d then flawPast .badNumber (d :: more)
          else afterWhole false 0 0 (d :: more)) = _
        rw [stops.not_isDigit, if_neg Bool.false_ne_true]
        exact afterWhole_of_stops stops 0
    · rw [List.cons_append] at taken dropped ⊢
      rw [readNumber]
      · rw [if_pos (digits c List.mem_cons_self), taken, dropped, gathered]
        exact afterWhole_of_stops stops n
      · exact fun same => zero same

theorem readsUpTo_wordNumber (n : UInt64) : ReadsUpTo readWordNumber (.number n.toNat) n := by
  intro b text rest blanks spells stops
  have ahead := spells.skipBlanks_append blanks rest
  have fits : n.toNat < UInt64.size := n.toNat_lt_size
  have number := readNumber_write fits stops
  have below : readBelow UInt64.size "u64" (b ++ (text ++ rest)) = .ok (n.toNat, rest) := by
    cases spells
    rw [readBelow, ahead]
    rw [Decimal.write, String.toList_ofList] at number ⊢
    cases written : Nat.toDigits 10 n.toNat with
    | nil => exact absurd written Nat.toDigits_ne_nil
    | cons c more =>
      have digit : c.isDigit :=
        Nat.isDigit_of_mem_toDigits (by decide) (by decide) (written ▸ List.mem_cons_self)
      have unsigned : c ≠ '-' := by
        rintro rfl
        exact absurd digit (by decide)
      rw [written, List.cons_append] at number
      rw [List.cons_append]
      split
      · contradiction
      · next sign => exact absurd (List.cons.inj sign).1 unsigned
      · next same =>
        obtain ⟨rfl, rfl⟩ := List.cons.inj same
        rw [if_pos (isDigit_of_isDigit digit), number]
        exact if_pos fits
  rw [readWordNumber, below]
  simp only [Except.map, UInt64.ofNat_toNat]

end SlashingGuard.Json
