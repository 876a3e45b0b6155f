import SlashingGuard.Proofs.Text.Numerals

/-! # Spellings of byte strings

    A byte string can be spelled in more than one way: with or without a
    marker, and with digits of either case.  That is all the freedom there is.
    A text is read exactly when its digits pair up, two texts are read as the
    same bytes exactly when they differ in that freedom alone, and a text that
    is refused is refused for the first thing that is wrong with its bytes. -/

namespace SlashingGuard.Hex

/-! ## Digits -/

/-- The hexadecimal digits of either case. -/
def digitChars : List Char :=
  ['0', '1', '2', '3', '4', '5', '6', '7', '8', '9', 'a', 'b', 'c', 'd', 'e', 'f',
   'A', 'B', 'C', 'D', 'E', 'F']

/-- The bytes of the hexadecimal digits. -/
def digitBytes : Bytes := digitChars.map fun c => UInt8.ofNat c.toNat

/-- What holds of all ASCII characters may be checked one by one. -/
theorem forall_ascii {p : Char → Prop} (h : ∀ n < 128, p (Char.ofNat n)) {c : Char}
    (ascii : c.toNat < 128) : p c := by
  have := h c.toNat ascii
  rwa [Char.ofNat_toNat] at this

/-- The value of a digit is written as that digit in lower case. -/
theorem exists_digit? {c : Char} (h : c ∈ digitChars) :
    ∃ value < 16, digit? c = some value ∧ Nat.digitChar value = c.toLower := by
  have all : digitChars.all fun c => (digit? c).any fun value =>
      value < 16 && Nat.digitChar value == c.toLower := by
    decide
  obtain ⟨value, known, written⟩ := (Option.any_eq_true _ _).1 (List.all_eq_true.1 all c h)
  simp only [Bool.and_eq_true, decide_eq_true_eq, beq_iff_eq] at written
  exact ⟨value, written.1, known, written.2⟩

theorem digit?_eq_none {c : Char} (h : c ∉ digitChars) : digit? c = none := by
  by_cases ascii : c.toNat < 128
  · have all : ∀ n < 128, Char.ofNat n ∉ digitChars → digit? (Char.ofNat n) = none := by decide
    exact forall_ascii (p := fun c => c ∉ digitChars → digit? c = none) all ascii h
  · -- Beyond ASCII all three ranges of digits are left behind.
    have past (last : Char) (small : last.toNat < 128) : ¬ c ≤ last := by
      intro le
      have : c.toNat ≤ last.toNat := le
      omega
    rw [digit?, if_neg fun range => past '9' (by decide) range.2,
      if_neg fun range => past 'f' (by decide) range.2,
      if_neg fun range => past 'F' (by decide) range.2]

theorem utf8EncodeChar_digit {c : Char} (h : c ∈ digitChars) :
    String.utf8EncodeChar c = [UInt8.ofNat c.toNat] := by
  have all : digitChars.all fun c =>
      decide (String.utf8EncodeChar c = [UInt8.ofNat c.toNat]) := by
    decide
  exact of_decide_eq_true (List.all_eq_true.1 all c h)

theorem mem_digitBytes {c : Char} (h : c ∈ digitChars) : UInt8.ofNat c.toNat ∈ digitBytes :=
  List.mem_map_of_mem h

theorem lt_of_mem_digitBytes {byte : UInt8} (h : byte ∈ digitBytes) : byte.toNat < 128 := by
  have all : digitBytes.all fun byte => decide (byte.toNat < 128) := by decide
  exact of_decide_eq_true (List.all_eq_true.1 all byte h)

/-- The first byte of a character that is no digit is the byte of no digit. -/
theorem utf8EncodeChar_other {c : Char} (h : c ∉ digitChars) :
    ∃ byte more, String.utf8EncodeChar c = byte :: more ∧ byte ∉ digitBytes ∧
      leadByte c = Char.ofNat byte.toNat := by
  by_cases ascii : c.toNat < 128
  · have all : ∀ n < 128, Char.ofNat n ∉ digitChars →
        UInt8.ofNat (Char.ofNat n).toNat ∉ digitBytes := by decide
    have other : UInt8.ofNat c.toNat ∉ digitBytes :=
      forall_ascii (p := fun c => c ∉ digitChars → UInt8.ofNat c.toNat ∉ digitBytes) all ascii h
    have encoded : String.utf8EncodeChar c = [UInt8.ofNat c.toNat] :=
      if_pos (Nat.le_of_lt_succ ascii)
    exact ⟨_, _, encoded, other, by rw [leadByte, encoded]⟩
  · -- The first of several bytes lies beyond ASCII.
    obtain ⟨byte, more, encoded, large⟩ : ∃ byte more,
        String.utf8EncodeChar c = byte :: more ∧ 128 ≤ byte.toNat := by
      unfold String.utf8EncodeChar
      have several : ¬ c.val.toNat ≤ 127 := fun le => ascii (Nat.lt_succ_of_le le)
      dsimp only
      rw [if_neg several]
      split
      · exact ⟨_, _, rfl, by rw [UInt8.toNat_ofNat']; omega⟩
      · split
        · exact ⟨_, _, rfl, by rw [UInt8.toNat_ofNat']; omega⟩
        · exact ⟨_, _, rfl, by rw [UInt8.toNat_ofNat']; omega⟩
    refine ⟨byte, more, encoded, fun among => ?_, by rw [leadByte, encoded]⟩
    have := lt_of_mem_digitBytes among
    omega

/-! ## Reading pairs -/

theorem digitAt_digit {c : Char} (h : c ∈ digitChars) (position : Nat) :
    ∃ value < 16, digitAt c position = .ok value ∧ Nat.digitChar value = c.toLower := by
  obtain ⟨value, small, found, written⟩ := exists_digit? h
  exact ⟨value, small, by rw [digitAt, found], written⟩

theorem digitAt_other {c : Char} (h : c ∉ digitChars) (position : Nat) :
    digitAt c position = .error (.badDigit (leadByte c) position) := by
  rw [digitAt, digit?_eq_none h]

/-- The two digits of a byte that is put together from two digits. -/
theorem pair_ofNat {h l : Nat} (high : h < 16) (low : l < 16) :
    pair (UInt8.ofNat (16 * h + l)) = [Nat.digitChar h, Nat.digitChar l] := by
  have whole : (UInt8.ofNat (16 * h + l)).toNat = 16 * h + l := by
    rw [UInt8.toNat_ofNat']
    omega
  have first : (16 * h + l) / 16 = h := by omega
  have second : (16 * h + l) % 16 = l := by omega
  rw [pair, whole, first, second]

/-- Digits that pair up are read as bytes whose digits they are, but for the case. -/
theorem readPairs_digits {digits : List Char} (all : ∀ c ∈ digits, c ∈ digitChars)
    (even : digits.length % 2 = 0) (position : Nat) :
    ∃ bytes, readPairs position digits = .ok bytes ∧
      bytes.flatMap pair = digits.map Char.toLower := by
  fun_induction readPairs position digits with
  | case1 => exact ⟨[], rfl, rfl⟩
  | case2 => exact absurd even (by simp)
  | case3 position hi lo rest ih =>
    rw [List.forall_mem_cons, List.forall_mem_cons] at all
    obtain ⟨first, second, others⟩ := all
    have even' : rest.length % 2 = 0 := by
      rw [List.length_cons, List.length_cons] at even
      omega
    obtain ⟨h, high, readHigh, writtenHigh⟩ := digitAt_digit first position
    obtain ⟨l, low, readLow, writtenLow⟩ := digitAt_digit second (position + 1)
    obtain ⟨tail, readTail, writtenTail⟩ := ih others even'
    rw [readHigh, readLow, readTail]
    refine ⟨UInt8.ofNat (16 * h + l) :: tail, rfl, ?_⟩
    rw [List.flatMap_cons, pair_ofNat high low, writtenHigh, writtenLow, writtenTail]
    rfl

/-- The first character that is no digit is reported. -/
theorem readPairs_other {before : List Char} (all : ∀ c ∈ before, c ∈ digitChars) {c : Char}
    (other : c ∉ digitChars) (after : List Char) (position : Nat) :
    readPairs position (before ++ c :: after) =
      .error (.badDigit (leadByte c) (position + before.length)) := by
  match before with
  | [] =>
    cases after with
    | nil =>
      rw [List.nil_append, readPairs, digitAt_other other]
      rfl
    | cons d rest =>
      rw [List.nil_append, readPairs, digitAt_other other]
      rfl
  | [hi] =>
    obtain ⟨h, -, read, -⟩ := digitAt_digit (all hi List.mem_cons_self) position
    rw [List.singleton_append, readPairs, read, digitAt_other other]
    rfl
  | hi :: lo :: rest =>
    rw [List.forall_mem_cons, List.forall_mem_cons] at all
    obtain ⟨h, -, readHigh, -⟩ := digitAt_digit all.1 position
    obtain ⟨l, -, readLow, -⟩ := digitAt_digit all.2.1 (position + 1)
    rw [List.cons_append, List.cons_append, readPairs, readHigh, readLow,
      readPairs_other all.2.2 other after (position + 2), List.length_cons, List.length_cons]
    have same : position + 2 + rest.length = position + (rest.length + 1 + 1) := by omega
    rw [same]
    rfl

/-! ## Bytes of a text -/

/-- The bytes of characters in UTF-8. -/
def encoded (chars : List Char) : Bytes := chars.flatMap String.utf8EncodeChar

theorem utf8Length_eq (chars : List Char) : Bytes.utf8Length chars = (encoded chars).length := by
  induction chars with
  | nil => rfl
  | cons c rest ih =>
    rw [Bytes.utf8Length, ih, encoded, encoded, List.flatMap_cons, List.length_append,
      String.length_utf8EncodeChar]

/-- Each digit takes one byte. -/
theorem encoded_digits {digits : List Char} (all : ∀ c ∈ digits, c ∈ digitChars) :
    encoded digits = digits.map fun c => UInt8.ofNat c.toNat := by
  induction digits with
  | nil => rfl
  | cons c rest ih =>
    rw [List.forall_mem_cons] at all
    rw [encoded, List.flatMap_cons, utf8EncodeChar_digit all.1, List.map_cons]
    exact congrArg (UInt8.ofNat c.toNat :: ·) (ih all.2)

theorem length_encoded_digits {digits : List Char} (all : ∀ c ∈ digits, c ∈ digitChars) :
    (encoded digits).length = digits.length := by
  rw [encoded_digits all, List.length_map]

/-- What is wrong with the bytes of a text behind the marker: they do not pair up, or they do and
    this is the first of them that belongs to no digit. -/
inductive Flawed (bytes : Bytes) : Flaw → Prop where
  | oddLength : bytes.length % 2 = 1 → Flawed bytes .oddLength
  | badDigit {before after : Bytes} {byte : UInt8} : bytes.length % 2 = 0 →
    bytes = before ++ byte :: after → (∀ b ∈ before, b ∈ digitBytes) → byte ∉ digitBytes →
      Flawed bytes (.badDigit (Char.ofNat byte.toNat) before.length)

/-- Whether characters are digits that pair up. -/
def Paired (digits : List Char) : Prop :=
  digits.length % 2 = 0 ∧ ∀ c ∈ digits, c ∈ digitChars

/-- Characters are all digits, or there is a first one that is none. -/
theorem digits_or_first_other (chars : List Char) :
    (∀ c ∈ chars, c ∈ digitChars) ∨ ∃ before c after, chars = before ++ c :: after ∧
      (∀ d ∈ before, d ∈ digitChars) ∧ c ∉ digitChars := by
  cases found : chars.find? fun c => decide (c ∉ digitChars) with
  | none => exact .inl (by simpa using found)
  | some c =>
    obtain ⟨other, before, after, rfl, all⟩ := List.find?_eq_some_iff_append.1 found
    exact .inr ⟨before, c, after, rfl, by simpa using all, by simpa using other⟩

/-- Behind the marker a text is read, or it is flawed and the flaw is reported. -/
theorem readDigits_cases (digits : List Char) :
    (Paired digits ∧ ∃ bytes, readDigits digits = .ok bytes ∧
      bytes.flatMap pair = digits.map Char.toLower) ∨
    (¬ Paired digits ∧ ∃ flaw, readDigits digits = .error flaw ∧ Flawed (encoded digits) flaw) := by
  rw [readDigits, utf8Length_eq]
  by_cases odd : (encoded digits).length % 2 = 1
  · rw [if_pos odd]
    refine .inr ⟨fun paired => ?_, _, rfl, .oddLength odd⟩
    have even := paired.1
    rw [length_encoded_digits paired.2] at odd
    omega
  · rw [if_neg odd]
    rcases digits_or_first_other digits with all | ⟨before, c, after, rfl, all, other⟩
    · have even : digits.length % 2 = 0 := by
        rw [length_encoded_digits all] at odd
        omega
      exact .inl ⟨⟨even, all⟩, readPairs_digits all even 0⟩
    · refine .inr ⟨fun paired => other (paired.2 c (by simp)), _, readPairs_other all other after 0,
        ?_⟩
      obtain ⟨byte, more, first, noDigit, lead⟩ := utf8EncodeChar_other other
      have split : encoded (before ++ c :: after) =
          encoded before ++ byte :: (more ++ encoded after) := by
        rw [encoded, List.flatMap_append, List.flatMap_cons, first]
        rfl
      rw [lead, Nat.zero_add, ← length_encoded_digits all]
      refine .badDigit (by omega) split (fun b among => ?_) noDigit
      rw [encoded_digits all] at among
      obtain ⟨d, member, rfl⟩ := List.mem_map.1 among
      exact mem_digitBytes (all d member)

/-- The bytes in front of the first that belongs to no digit, and those from there on. -/
theorem split_at_other {bytes before after : Bytes} {byte : UInt8}
    (split : bytes = before ++ byte :: after) (all : ∀ b ∈ before, b ∈ digitBytes)
    (other : byte ∉ digitBytes) :
    bytes.takeWhile (· ∈ digitBytes) = before ∧
      bytes.dropWhile (· ∈ digitBytes) = byte :: after := by
  have digits : ∀ b ∈ before, decide (b ∈ digitBytes) := by simpa using all
  have stops : ¬ decide (byte ∈ digitBytes) := by simpa using other
  subst split
  constructor
  · rw [List.takeWhile_append_of_pos digits, List.takeWhile_cons, if_neg stops, List.append_nil]
  · rw [List.dropWhile_append_of_pos digits, List.dropWhile_cons, if_neg stops]

/-- Bytes have one flaw at most. -/
theorem Flawed.unique {bytes : Bytes} {flaw flaw' : Flaw} (h : Flawed bytes flaw)
    (h' : Flawed bytes flaw') : flaw = flaw' := by
  cases h with
  | oddLength odd =>
    cases h' with
    | oddLength _ => rfl
    | badDigit even => omega
  | badDigit even split all other =>
    cases h' with
    | oddLength odd => omega
    | badDigit _ split' all' other' =>
      obtain ⟨front, rest⟩ := split_at_other split all other
      obtain ⟨front', rest'⟩ := split_at_other split' all' other'
      obtain rfl := front.symm.trans front'
      obtain rfl := (List.cons.inj (rest.symm.trans rest')).1
      rfl

/-- Digits that pair up have no flaw. -/
theorem Paired.not_flawed {digits : List Char} (h : Paired digits) {flaw : Flaw} :
    ¬ Flawed (encoded digits) flaw := by
  obtain ⟨even, all⟩ := h
  have length := length_encoded_digits all
  intro flawed
  cases flawed with
  | oddLength odd => omega
  | @badDigit before after byte _ split _ other =>
    have among : byte ∈ encoded digits := by
      rw [split]
      exact List.mem_append_right _ List.mem_cons_self
    rw [encoded_digits all] at among
    obtain ⟨d, member, rfl⟩ := List.mem_map.1 among
    exact other (mem_digitBytes (all d member))

/-! ## Whole texts -/

/-- The digits of a text behind the marker, in lower case. -/
def core (text : String) : List Char := (stripMarker text.toList).map Char.toLower

theorem read_eq_ok_iff {text : String} {bytes : Bytes} :
    read text = .ok bytes ↔
      Paired (stripMarker text.toList) ∧ bytes.flatMap pair = core text := by
  rw [read]
  rcases readDigits_cases (stripMarker text.toList) with
    ⟨paired, found, readFound, written⟩ | ⟨unpaired, flaw, refused, -⟩
  · rw [readFound]
    constructor
    · intro same
      obtain rfl := Except.ok.inj same
      exact ⟨paired, written⟩
    · -- Bytes are known by their digits, since these are read back.
      rintro ⟨-, written'⟩
      have twice := readDigits_pairs found
      rw [written, ← core, ← written', readDigits_pairs] at twice
      exact congrArg Except.ok (Except.ok.inj twice).symm
  · rw [refused]
    constructor
    · rintro ⟨⟩
    · intro h
      exact absurd h.1 unpaired

theorem read_eq_error_iff {text : String} {e : Invalid} :
    read text = .error e ↔ e.input = text ∧ Flawed (encoded (stripMarker text.toList)) e.flaw := by
  rw [read]
  rcases readDigits_cases (stripMarker text.toList) with
    ⟨paired, found, readFound, -⟩ | ⟨-, flaw, refused, flawed⟩
  · rw [readFound]
    constructor
    · rintro ⟨⟩
    · intro h
      exact absurd h.2 paired.not_flawed
  · rw [refused]
    constructor
    · intro same
      obtain rfl := Except.error.inj same
      exact ⟨rfl, flawed⟩
    · rintro ⟨input, flawed'⟩
      obtain rfl := flawed.unique flawed'
      subst input
      rfl

/-- Of two texts that are read, the bytes are the same if the digits are, but for the case. -/
theorem eq_iff_core_eq {text text' : String} {bytes bytes' : Bytes} (h : read text = .ok bytes)
    (h' : read text' = .ok bytes') : bytes = bytes' ↔ core text = core text' := by
  rw [← (read_eq_ok_iff.1 h).2, ← (read_eq_ok_iff.1 h').2]
  refine ⟨fun same => by rw [same], fun same => ?_⟩
  have twice := readDigits_pairs bytes
  rw [same, readDigits_pairs] at twice
  exact (Except.ok.inj twice).symm

theorem read_eq_ok_of_key {text : String} {key : PublicKey} (h : PublicKey.read text = .ok key) :
    read text = .ok key.bytes := by
  unfold PublicKey.read at h
  cases found : read text with
  | error e => rw [found] at h; contradiction
  | ok bytes =>
    rw [found] at h
    obtain rfl := Except.ok.inj h
    rfl

theorem read_eq_ok_of_root {text : String} {root : SigningRoot}
    (h : SigningRoot.read text = .ok root) : read text = .ok root.bytes := by
  unfold SigningRoot.read at h
  cases found : read text with
  | error e => rw [found] at h; contradiction
  | ok bytes =>
    rw [found] at h
    obtain rfl := Except.ok.inj h
    rfl

/-- How texts are read as byte strings, and as the keys and roots that these are. -/
structure ReadsUpToSpelling : Prop where
  /-- What is written is read back. -/
  written : ∀ bytes, read (write bytes) = .ok bytes
  /-- Those texts are read that have digits that pair up behind the marker, and no others. -/
  accepted : ∀ text, (∃ bytes, read text = .ok bytes) ↔ Paired (stripMarker text.toList)
  /-- Two texts are read as one byte string if they differ in the marker and the case alone. -/
  one : ∀ text text' bytes bytes', read text = .ok bytes → read text' = .ok bytes' →
    (bytes = bytes' ↔ core text = core text')
  /-- So neither a key nor a root has a second identity under another spelling. -/
  oneKey : ∀ text text' key key', PublicKey.read text = .ok key → PublicKey.read text' = .ok key' →
    (key = key' ↔ core text = core text')
  oneRoot : ∀ text text' root root', SigningRoot.read text = .ok root →
    SigningRoot.read text' = .ok root' → (root = root' ↔ core text = core text')
  /-- What was read is written as the marker and the digits in lower case. -/
  rewritten : ∀ text bytes, read text = .ok bytes →
    write bytes = String.ofList ('0' :: 'x' :: core text)
  /-- A text is refused for the flaw of its bytes behind the marker, and named as it was given. -/
  refused : ∀ text e, read text = .error e ↔
    e.input = text ∧ Flawed (encoded (stripMarker text.toList)) e.flaw

theorem reads_up_to_spelling : ReadsUpToSpelling where
  written := read_write
  accepted text := by
    constructor
    · rintro ⟨bytes, found⟩
      exact (read_eq_ok_iff.1 found).1
    · intro paired
      cases found : read text with
      | ok bytes => exact ⟨bytes, rfl⟩
      | error e => exact absurd (read_eq_error_iff.1 found).2 paired.not_flawed
  one _ _ _ _ := eq_iff_core_eq
  oneKey text text' key key' h h' := by
    rw [← eq_iff_core_eq (read_eq_ok_of_key h) (read_eq_ok_of_key h')]
    exact ⟨congrArg PublicKey.bytes, congrArg PublicKey.mk⟩
  oneRoot text text' root root' h h' := by
    rw [← eq_iff_core_eq (read_eq_ok_of_root h) (read_eq_ok_of_root h')]
    exact ⟨congrArg SigningRoot.bytes, congrArg SigningRoot.mk⟩
  rewritten text bytes found := by rw [write, (read_eq_ok_iff.1 found).2]
  refused _ _ := read_eq_error_iff

/-- One key in two spellings, and a text with two markers, whose second one is not taken off. -/
theorem reads_up_to_spelling_twoMarkers :
    (∃ key, PublicKey.read "0XaB" = .ok key ∧ PublicKey.read "Ab" = .ok key) ∧
      read "0x0xab" = .error ⟨"0x0xab", .badDigit 'x' 1⟩ := by
  have spellings := reads_up_to_spelling
  have first : PublicKey.read "0XaB" = .ok ⟨[0xab]⟩ := by rfl
  have second : PublicKey.read "Ab" = .ok ⟨[0xab]⟩ := by rfl
  have one := (spellings.oneKey _ _ _ _ first second).2 (by rfl)
  have flawed : Flawed (encoded (stripMarker "0x0xab".toList)) (.badDigit 'x' 1) :=
    @Flawed.badDigit _ [48] [97, 98] 120 (by rfl) (by rfl) (by decide +kernel) (by decide +kernel)
  exact ⟨⟨_, first, one ▸ second⟩, (spellings.refused _ _).2 ⟨rfl, flawed⟩⟩

end SlashingGuard.Hex
