import Mathlib.Data.List.Forall2
import SlashingGuard.Json.Record
import SlashingGuard.Proofs.Json.Spelling

/-! # Spellings are read

    A reader reads a value as something if it does so at every spelling of the
    value, whatever blanks stand before it and whatever follows it.  Each way
    to put readers together has one lemma here, so what a reader of records
    makes of a value is put together in the same way. -/

namespace SlashingGuard.Json

variable {α β : Type}

/-! ## Blanks -/

/-- Blanks ahead are passed over up to the first character that is none. -/
theorem skipBlanks_blanks {b : List Char} (h : Blanks b) {c : Char} (solid : isBlank c = false)
    (rest : Rest) : skipBlanks (b ++ c :: rest) = c :: rest := by
  rw [skipBlanks, List.dropWhile_append_of_pos h, List.dropWhile_cons_of_neg (by simp [solid])]

/-! ## Texts -/

/-- Two hexadecimal digits behind two zeros are read as the number that they write. -/
theorem hexUnit?_low {n : Nat} (h : n < 32) :
    hexUnit? '0' '0' (Nat.digitChar (n / 16)) (Nat.digitChar (n % 16)) = some n := by
  have all : ∀ n < 32,
      hexUnit? '0' '0' (Nat.digitChar (n / 16)) (Nat.digitChar (n % 16)) = some n := by decide
  exact all n h

/-- An escaped character is read as what it was. -/
theorem readChars_escapedChar (c : Char) (rest : Rest) :
    readChars (escapedChar c ++ rest) =
      (readChars rest).map fun (s, left) => (c :: s, left) := by
  unfold escapedChar
  -- First the characters that have an escape of their own.
  split
  · next h => subst h; simp [readChars, shortEscape?]
  · split
    · next h => subst h; simp [readChars, shortEscape?]
    · next backslash =>
      split
      · next h => subst h; simp [readChars, shortEscape?]
      · split
        · next h => subst h; simp [readChars, shortEscape?]
        · split
          · next h => subst h; simp [readChars, shortEscape?]
          · split
            · next h => subst h; simp [readChars, shortEscape?]
            · split
              · next h => subst h; simp [readChars, shortEscape?]
              · split
                · next control =>
                  -- Another control is given by its number, which is no half of a pair.
                  have trailing : isTrailing c.toNat = false := by simp [isTrailing]; omega
                  have leading : isLeading c.toNat = false := by simp [isLeading]; omega
                  simp [readChars, hexUnit?_low control, trailing, leading]
                · next plain =>
                  simp [readChars, backslash, plain]

/-- The characters of a text are read up to the quote behind them. -/
theorem readChars_escaped (s : List Char) (rest : Rest) :
    readChars (s.flatMap escapedChar ++ '"' :: rest) = .ok (s, rest) := by
  induction s with
  | nil => simp [readChars]
  | cons c s ih =>
    rw [List.flatMap_cons, List.append_assoc, readChars_escapedChar, ih]
    rfl

theorem toList_quoted (s : String) :
    (quoted s).toList = '"' :: (s.toList.flatMap escapedChar ++ ['"']) := by
  rw [quoted, String.toList_ofList, List.cons_append]

/-! ## Readers -/

/-- A reader reads every spelling of a value as `a`, wherever it stands. -/
def Reads (read : Reader α) (value : Json) (a : α) : Prop :=
  ∀ b text rest, Blanks b → Spells text value → read (b ++ (text ++ rest)) = .ok (a, rest)

/-- What a reader makes of a value is put into another form. -/
theorem Reads.map {read : Reader α} {value : Json} {a : α} (h : Reads read value a) (f : α → β) :
    Reads (fun input => (read input).map fun (x, rest) => (f x, rest)) value (f a) := by
  intro b text rest blanks spells
  simp only [h b text rest blanks spells, Except.map]

theorem reads_textAs (expected s : String) : Reads (readTextAs expected) (.text s) s := by
  intro b text rest blanks spells
  cases spells
  rw [toList_quoted, List.cons_append, List.append_assoc, readTextAs, skipBlanks_blanks blanks rfl]
  show (readChars (_ ++ ('"' :: rest))).map _ = _
  rw [readChars_escaped]
  simp only [Except.map, String.ofList_toList]

theorem reads_text (s : String) : Reads readText (.text s) s := reads_textAs "a string" s

/-- A text that is written by an inverse of what parses it. -/
theorem reads_parsed {ε : Type} {parse : String → Except ε α} {message : ε → String} {s : String}
    {a : α} (h : parse s = .ok a) : Reads (readParsed parse message) (.text s) a := by
  intro b text rest blanks spells
  rw [readParsed, reads_text s b text rest blanks spells]
  simp only [bind, Except.bind, h]

/-! ## Values that are read up to their end -/

/-- Whether a number goes on with a character that stands behind its digits. -/
def continuesNumber (c : Char) : Bool :=
  isDigit c || c == '.' || c == 'e' || c == 'E'

/-- What is left does not go on with a number. -/
def Stops (rest : Rest) : Prop := ∀ c ∈ rest.head?, continuesNumber c = false

/-- A reader reads every spelling of a value as `a`, wherever it stands, if nothing follows that
    would go on with a number. -/
def ReadsUpTo (read : Reader α) (value : Json) (a : α) : Prop :=
  ∀ b text rest, Blanks b → Spells text value → Stops rest →
    read (b ++ (text ++ rest)) = .ok (a, rest)

theorem Reads.upTo {read : Reader α} {value : Json} {a : α} (h : Reads read value a) :
    ReadsUpTo read value a :=
  fun b text rest blanks spells _ => h b text rest blanks spells

theorem ReadsUpTo.map {read : Reader α} {value : Json} {a : α} (h : ReadsUpTo read value a)
    (f : α → β) :
    ReadsUpTo (fun input => (read input).map fun (x, rest) => (f x, rest)) value (f a) := by
  intro b text rest blanks spells stops
  simp only [h b text rest blanks spells stops, Except.map]

theorem stops_blanks {b : List Char} (blanks : Blanks b) {c : Char}
    (stops : continuesNumber c = false) (rest : Rest) : Stops (b ++ c :: rest) := by
  cases b with
  | nil =>
    rintro d ⟨⟩
    exact stops
  | cons blank more =>
    rintro d ⟨⟩
    have blank := blanks blank List.mem_cons_self
    simp only [isBlank, Bool.or_eq_true, beq_iff_eq] at blank
    rcases blank with ((rfl | rfl) | rfl) | rfl <;> rfl

/-- Behind a member an object goes on with a blank, a comma or its end. -/
theorem SpellsMembers.stops {body : List Char} {members : List (String × Json)}
    (h : SpellsMembers false body members) (rest : Rest) : Stops (body ++ rest) := by
  cases h with
  | nil blanks =>
    rw [List.append_assoc]
    exact stops_blanks blanks rfl rest
  | cons separates _ _ =>
    cases separates with
    | next blanks _ =>
      rw [List.append_assoc, List.append_assoc, List.cons_append]
      exact stops_blanks blanks rfl _

/-! ## The first character of a value -/

/-- A character that no value stops at: neither blank nor the end of an item. -/
structure Solid (c : Char) : Prop where
  notBlank : isBlank c = false
  notComma : c ≠ ','
  notEnd : c ≠ ']'

theorem Solid.of_isDigit {c : Char} (h : c.isDigit) : Solid c where
  notBlank := by
    cases blank : isBlank c with
    | false => rfl
    | true =>
      simp only [isBlank, Bool.or_eq_true, beq_iff_eq] at blank
      rcases blank with ((rfl | rfl) | rfl) | rfl <;> exact absurd h (by decide)
  notComma := by
    rintro rfl
    exact absurd h (by decide)
  notEnd := by
    rintro rfl
    exact absurd h (by decide)

/-- A value begins with a solid character, and with an `n` only if it is null. -/
theorem Spells.head {text : List Char} {value : Json} (h : Spells text value) :
    ∃ c more, text = c :: more ∧ Solid c ∧ (value ≠ .null → c ≠ 'n') := by
  cases h with
  | null => exact ⟨'n', _, rfl, ⟨rfl, by decide, by decide⟩, fun no => absurd rfl no⟩
  | bool b =>
    cases b with
    | false => exact ⟨'f', _, rfl, ⟨rfl, by decide, by decide⟩, fun _ => by decide⟩
    | true => exact ⟨'t', _, rfl, ⟨rfl, by decide, by decide⟩, fun _ => by decide⟩
  | number n =>
    rw [Decimal.write, String.toList_ofList]
    cases digits : Nat.toDigits 10 n with
    | nil => exact absurd digits Nat.toDigits_ne_nil
    | cons c more =>
      have digit : c.isDigit :=
        Nat.isDigit_of_mem_toDigits (by decide) (by decide) (digits ▸ List.mem_cons_self)
      refine ⟨c, more, rfl, .of_isDigit digit, fun _ => ?_⟩
      rintro rfl
      exact absurd digit (by decide)
  | text s =>
    rw [toList_quoted]
    exact ⟨'"', _, rfl, ⟨rfl, by decide, by decide⟩, fun _ => by decide⟩
  | array _ => exact ⟨'[', _, rfl, ⟨rfl, by decide, by decide⟩, fun _ => by decide⟩
  | object _ => exact ⟨'\x7b', _, rfl, ⟨rfl, by decide, by decide⟩, fun _ => by decide⟩

/-- Blanks before a value are passed over. -/
theorem Spells.skipBlanks_append {text : List Char} {value : Json} (h : Spells text value)
    {b : List Char} (blanks : Blanks b) (rest : Rest) :
    skipBlanks (b ++ (text ++ rest)) = text ++ rest := by
  obtain ⟨c, more, rfl, solid, -⟩ := h.head
  exact skipBlanks_blanks blanks solid.notBlank (more ++ rest)

/-! ## Values that may be absent -/

/-- A value that is there is read where it might be null. -/
theorem Reads.optional {read : Reader α} {value : Json} {a : α} (h : Reads read value a)
    (there : value ≠ .null) : Reads (readOptional read) value (some a) := by
  intro b text rest blanks spells
  have ahead := spells.skipBlanks_append blanks rest
  have value := h [] text rest blanks_nil spells
  -- Only null begins with an `n`, so one character tells whether the value is there.
  obtain ⟨c, more, rfl, -, notNull⟩ := spells.head
  rw [readOptional, ahead]
  split
  · next same => exact absurd (List.cons.inj same).1 (notNull there)
  · rw [List.nil_append] at value
    rw [value]
    rfl

/-! ## Arrays -/

/-- What is ahead in an array, behind the separator: its next item. -/
theorem nextItem_cons {first : Bool} {separator text : List Char} {item : Json}
    (separates : Separates first separator) (spells : Spells text item) (rest : Rest) :
    nextItem first (separator ++ (text ++ rest)) = .ok (some (text ++ rest)) := by
  cases separates with
  | first blanks =>
    have ahead := spells.skipBlanks_append blanks rest
    -- The first character of the item cannot be taken for the end or a separator.
    obtain ⟨c, more, rfl, solid, -⟩ := spells.head
    rw [nextItem, ahead]
    split
    · next none => contradiction
    · next ended => exact absurd (List.cons.inj ended).1 solid.notEnd
    · next comma => exact absurd (List.cons.inj comma).1 solid.notComma
    · rfl
  | next blanks blanks' =>
    rename_i b b'
    have comma : skipBlanks ((b ++ ',' :: b') ++ (text ++ rest)) = ',' :: (b' ++ (text ++ rest)) := by
      rw [List.append_assoc, List.cons_append]
      exact skipBlanks_blanks blanks rfl _
    have ahead := spells.skipBlanks_append blanks' rest
    obtain ⟨c, more, rfl, solid, -⟩ := spells.head
    rw [nextItem, comma]
    simp only [Bool.false_eq_true, if_false, ahead]
    split
    · next none => contradiction
    · next ended => exact absurd (List.cons.inj ended).1 solid.notEnd
    · rfl

/-- Each item takes a place in the text, and the end of the array another one. -/
theorem SpellsItems.length_lt {first : Bool} {body : List Char} {items : List Json}
    (h : SpellsItems first body items) : items.length < body.length := by
  induction items generalizing first body with
  | nil =>
    cases h with
    | nil _ => simp
  | cons item items ih =>
    cases h with
    | cons _ spells more =>
      obtain ⟨c, left, rfl, -, -⟩ := spells.head
      have := ih more
      simp only [List.length_cons, List.length_append]
      omega

/-- Items are read one after the other, up to the end of their array. -/
theorem readItems_spelled {read : Reader α} {items : List Json} {values : List α}
    (h : List.Forall₂ (Reads read) items values) {first : Bool} {body : List Char}
    (spells : SpellsItems first body items) {fuel : Nat} (enough : items.length < fuel)
    (rest : Rest) : readItems read first fuel (body ++ rest) = .ok (values, rest) := by
  induction h generalizing first body fuel with
  | nil =>
    cases spells with
    | nil blanks =>
      rename_i b
      have ended : skipBlanks (b ++ ']' :: rest) = ']' :: rest := skipBlanks_blanks blanks rfl rest
      have none : nextItem first (b ++ ']' :: rest) = .ok none := by simp only [nextItem, ended]
      have last : endArray (b ++ ']' :: rest) = .ok rest := by simp only [endArray, ended]
      cases fuel with
      | zero => contradiction
      | succ fuel =>
        rw [readItems, List.append_assoc, List.singleton_append, none]
        simp only [bind, Except.bind, last, pure, Except.pure]
  | cons item others ih =>
    cases spells with
    | cons separates text more =>
      rename_i separator text' body'
      cases fuel with
      | zero => contradiction
      | succ fuel =>
        have next := nextItem_cons separates text (body' ++ rest)
        have value := item [] text' (body' ++ rest) blanks_nil text
        have values := ih more (Nat.lt_of_succ_lt_succ enough)
        rw [List.nil_append] at value
        simp only [readItems, List.append_assoc, next, bind, Except.bind, value, values, pure,
          Except.pure]

/-- An array is read item by item. -/
theorem Reads.list {read : Reader α} {items : List Json} {values : List α}
    (h : List.Forall₂ (Reads read) items values) : Reads (readList read) (.array items) values := by
  intro b text rest blanks spells
  cases spells with
  | array body =>
    rename_i body'
    rw [readList, List.cons_append, skipBlanks_blanks blanks rfl]
    have enough : items.length < (body' ++ rest).length + 1 := by
      have := body.length_lt
      rw [List.length_append]
      omega
    exact readItems_spelled h body enough rest

/-! ## Records -/

namespace Record

variable {σ : Type} {r : Record σ}

/-- A member of a record is read as a change of the draft. -/
def Gives (r : Record σ) (member : String × Json) (store : σ → σ) : Prop :=
  ∃ m, (r.members.find? fun m => m.name == member.1) = some m ∧ Reads m.read member.2 store

/-- A member of a record is read as a change of the draft, up to its end. -/
def GivesUpTo (r : Record σ) (member : String × Json) (store : σ → σ) : Prop :=
  ∃ m, (r.members.find? fun m => m.name == member.1) = some m ∧ ReadsUpTo m.read member.2 store

theorem Gives.upTo {member : String × Json} {store : σ → σ} (h : r.Gives member store) :
    r.GivesUpTo member store :=
  h.imp fun _ => And.imp_right Reads.upTo

/-- The member that is found under a name, and what its reader makes of the value. -/
theorem gives_of {name : String} {presence : Presence} {read : Reader α} {store : α → σ → σ}
    {value : Json} {a : α}
    (found : (r.members.find? fun m => m.name == name) = some (.of name presence read store))
    (h : Reads read value a) : r.Gives (name, value) (store a) :=
  ⟨_, found, h.map store⟩

theorem givesUpTo_of {name : String} {presence : Presence} {read : Reader α} {store : α → σ → σ}
    {value : Json} {a : α}
    (found : (r.members.find? fun m => m.name == name) = some (.of name presence read store))
    (h : ReadsUpTo read value a) : r.GivesUpTo (name, value) (store a) :=
  ⟨_, found, h.map store⟩

/-- What is ahead in an object, behind the separator: the name of the next member. -/
theorem next_name {first : Bool} {separator : List Char} (separates : Separates first separator)
    (rest : Rest) : next first (separator ++ '"' :: rest) = .ok (.name rest) := by
  cases separates with
  | first blanks => rw [next, skipBlanks_blanks blanks rfl]; rfl
  | next blanks blanks' =>
    have ahead := skipBlanks_blanks blanks' (c := '"') rfl rest
    rw [next, List.append_assoc, List.cons_append, skipBlanks_blanks blanks rfl]
    simp only [Bool.false_eq_true, if_false, ahead]

theorem readColon_blanks {b : List Char} (blanks : Blanks b) (rest : Rest) :
    readColon (b ++ ':' :: rest) = .ok rest := by
  rw [readColon, skipBlanks_blanks blanks rfl]
  rfl

/-- Each member takes a place in the text, and the end of the object another one. -/
theorem length_lt_of_spells {first : Bool} {body : List Char} {members : List (String × Json)}
    (h : SpellsMembers first body members) : members.length < body.length := by
  induction members generalizing first body with
  | nil =>
    cases h with
    | nil _ => simp
  | cons member members ih =>
    cases h with
    | cons _ spells more =>
      cases spells
      have := ih more
      simp only [List.length_cons, List.length_append, toList_quoted]
      omega

/-- Behind the last member the object ends. -/
theorem next_closed {b : List Char} (blanks : Blanks b) (first : Bool) (rest : Rest) :
    next first (b ++ '\x7d' :: rest) = .ok (.closed rest) := by
  rw [next, skipBlanks_blanks blanks rfl]
  rfl

/-- A draft is complete when every name that is needed was seen. -/
theorem complete_of_seen {seen : List String}
    (all : ∀ m ∈ r.members, m.presence.inObject → m.name ∈ seen) (draft : σ) (rest : Rest) :
    complete r seen draft rest = .ok (draft, rest) := by
  have missing : (r.members.find? fun m => m.presence.inObject && !seen.contains m.name) = none := by
    simp only [List.find?_eq_none, Bool.and_eq_true, Bool.not_eq_true', not_and]
    intro m member needed absent
    have there := all m member needed
    simp [there] at absent
  rw [complete, missing]

/-- A member whose name was not seen is read into the draft, and the others follow. -/
theorem readMembers_cons {member : String × Json} {store : σ → σ}
    (gives : r.GivesUpTo member store) {first : Bool} {separator text : List Char}
    (separates : Separates first separator) (spells : SpellsMember text member)
    {seen : List String} (new : member.1 ∉ seen) (fuel : Nat) (draft : σ) {rest : Rest}
    (stops : Stops rest) :
    readMembers r (fuel + 1) first seen draft (separator ++ (text ++ rest)) =
      readMembers r fuel false (member.1 :: seen) (store draft) rest := by
  obtain ⟨m, found, value⟩ := gives
  cases spells with
  | mk blanks blanks' spelled =>
    rename_i name b b' text' value'
    have unseen : seen.contains name = false := by simpa using new
    rw [readMembers, toList_quoted]
    simp only [List.append_assoc, List.cons_append, List.nil_append, bind, Except.bind]
    rw [next_name separates]
    simp only [readChars_escaped, String.ofList_toList]
    rw [found]
    simp only [unseen, Bool.false_eq_true, if_false, readColon_blanks blanks,
      value b' text' rest blanks' spelled stops]

/-- Members are read one after the other, up to the end of their object: each name stands once, and
    none that is needed is missing. -/
theorem readMembers_spelled {members : List (String × Json)} {stores : List (σ → σ)}
    (h : List.Forall₂ r.GivesUpTo members stores) {first : Bool} {body : List Char}
    (spells : SpellsMembers first body members) {seen : List String}
    (once : (members.map Prod.fst).Nodup) (new : ∀ name ∈ members.map Prod.fst, name ∉ seen)
    (all : ∀ m ∈ r.members, m.presence.inObject → m.name ∈ seen ∨ m.name ∈ members.map Prod.fst)
    {fuel : Nat} (enough : members.length < fuel) (draft : σ) (rest : Rest) :
    readMembers r fuel first seen draft (body ++ rest) =
      .ok (stores.foldl (fun d store => store d) draft, rest) := by
  induction h generalizing first body seen fuel draft with
  | nil =>
    obtain ⟨fuel, rfl⟩ := Nat.exists_eq_succ_of_ne_zero (Nat.ne_zero_of_lt enough)
    cases spells with
    | nil blanks =>
      rw [readMembers, List.append_assoc, List.singleton_append, next_closed blanks]
      refine complete_of_seen (fun m member needed => ?_) draft rest
      exact (all m member needed).resolve_right (by simp)
  | @cons member store members stores gives others ih =>
    obtain ⟨fuel, rfl⟩ := Nat.exists_eq_succ_of_ne_zero (Nat.ne_zero_of_lt enough)
    cases spells with
    | cons separates text more =>
      rw [List.map_cons, List.nodup_cons] at once
      -- Behind this member its name is among those that were seen.
      have new' : ∀ other ∈ members.map Prod.fst, other ∉ member.1 :: seen := by
        intro other among
        rw [List.mem_cons, not_or]
        refine ⟨?_, new other (List.mem_cons_of_mem _ among)⟩
        rintro rfl
        exact once.1 among
      have all' : ∀ m ∈ r.members, m.presence.inObject →
          m.name ∈ member.1 :: seen ∨ m.name ∈ members.map Prod.fst := by
        intro m member needed
        have := all m member needed
        simpa only [List.map_cons, List.mem_cons, or_left_comm, or_assoc] using this
      rw [List.append_assoc, List.append_assoc,
        readMembers_cons gives separates text (new member.1 List.mem_cons_self) _ _ (more.stops rest)]
      exact ih more once.2 new' all' (Nat.lt_of_succ_lt_succ enough) (store draft)

/-- An object is read member by member, each of which changes the draft.  The names may be looked
    for among those of the record, which differ from each other. -/
theorem reads_upTo {members : List (String × Json)} {stores : List (σ → σ)}
    (h : List.Forall₂ r.GivesUpTo members stores) (distinct : (r.members.map Member.name).Nodup)
    (ordered : (members.map Prod.fst).Sublist (r.members.map Member.name))
    (all : ∀ m ∈ r.members, m.presence.inObject → m.name ∈ members.map Prod.fst) :
    Reads r.read (.object members) (stores.foldl (fun d store => store d) r.draft) := by
  intro b text rest blanks spells
  cases spells with
  | object body =>
    rename_i body'
    rw [read, List.cons_append, skipBlanks_blanks blanks rfl]
    have once : (members.map Prod.fst).Nodup := distinct.sublist ordered
    have enough : members.length < (body' ++ rest).length + 1 := by
      have := length_lt_of_spells body
      rw [List.length_append]
      omega
    exact readMembers_spelled h body once (by simp) (fun m member needed => .inr (all m member needed))
      enough r.draft rest

theorem reads {members : List (String × Json)} {stores : List (σ → σ)}
    (h : List.Forall₂ r.Gives members stores) (distinct : (r.members.map Member.name).Nodup)
    (ordered : (members.map Prod.fst).Sublist (r.members.map Member.name))
    (all : ∀ m ∈ r.members, m.presence.inObject → m.name ∈ members.map Prod.fst) :
    Reads r.read (.object members) (stores.foldl (fun d store => store d) r.draft) :=
  reads_upTo (h.imp fun _ _ => Gives.upTo) distinct ordered all

/-- A member that may be left out changes the draft if it is there. -/
theorem gives_optional (name : String) {presence : Presence} {read : Reader (Option α)}
    {write : α → Json} {store : Option α → σ → σ}
    (found : (r.members.find? fun m => m.name == name) = some (.of name presence read store))
    (h : ∀ a, Reads read (write a) (some a)) (value : Option α) :
    List.Forall₂ r.Gives (optionalMember name write value)
      (value.toList.map fun a => store (some a)) := by
  cases value with
  | none => exact .nil
  | some a => exact .cons (gives_of found (h a)) .nil

end Record

/-! ## Whole texts -/

/-- A text that spells a value is read as what its reader makes of the value. -/
theorem readWhole_of_spells {read : Reader α} {value : Json} {a : α} (h : Reads read value a)
    {text : String} (spells : Spells text.toList value) : readWhole read text = .ok a := by
  have whole := h [] text.toList [] blanks_nil spells
  rw [List.nil_append, List.append_nil] at whole
  rw [readWhole, whole]
  rfl

end SlashingGuard.Json
