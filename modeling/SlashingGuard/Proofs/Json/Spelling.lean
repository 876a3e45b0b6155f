import Mathlib.Data.List.SplitBy
import SlashingGuard.Json.Reader
import SlashingGuard.Json.Basic

/-! # Spellings of JSON values

    A value can be written in more than one way, since blanks may stand
    between its parts.  A spelling of a value is a text that differs from its
    compact form in such blanks alone, and the compact form and the pretty
    form at any depth are spellings.  What is said of readers is said of all
    spellings, so that the two forms need not be told apart again. -/

namespace SlashingGuard.Json

/-- Whether there is nothing but blanks. -/
def Blanks (l : List Char) : Prop := ∀ c ∈ l, isBlank c

theorem blanks_nil : Blanks [] := nofun

/-- What stands before an item or a member: blanks, with a comma among them unless it is the
    first. -/
inductive Separates : Bool → List Char → Prop where
  | first {b : List Char} : Blanks b → Separates true b
  | next {b b' : List Char} : Blanks b → Blanks b' → Separates false (b ++ ',' :: b')

mutual

/-- Whether a text is a spelling of a value. -/
inductive Spells : List Char → Json → Prop where
  | null : Spells "null".toList .null
  | bool (b : Bool) : Spells (boolText b).toList (.bool b)
  | number (n : Nat) : Spells (Decimal.write n).toList (.number n)
  | text (s : String) : Spells (quoted s).toList (.text s)
  | array {body : List Char} {items : List Json} : SpellsItems true body items →
    Spells ('[' :: body) (.array items)
  | object {body : List Char} {members : List (String × Json)} : SpellsMembers true body members →
    Spells ('\x7b' :: body) (.object members)

/-- Whether a text is a spelling of items up to the end of their array. -/
inductive SpellsItems : Bool → List Char → List Json → Prop where
  | nil {first : Bool} {b : List Char} : Blanks b → SpellsItems first (b ++ [']']) []
  | cons {first : Bool} {separator text body : List Char} {item : Json} {items : List Json} :
    Separates first separator → Spells text item → SpellsItems false body items →
      SpellsItems first (separator ++ (text ++ body)) (item :: items)

/-- Whether a text is a spelling of members up to the end of their object. -/
inductive SpellsMembers : Bool → List Char → List (String × Json) → Prop where
  | nil {first : Bool} {b : List Char} : Blanks b → SpellsMembers first (b ++ ['\x7d']) []
  | cons {first : Bool} {separator text body : List Char} {member : String × Json}
    {members : List (String × Json)} :
    Separates first separator → SpellsMember text member → SpellsMembers false body members →
      SpellsMembers first (separator ++ (text ++ body)) (member :: members)

/-- Whether a text is a spelling of a member. -/
inductive SpellsMember : List Char → String × Json → Prop where
  | mk {name : String} {b b' text : List Char} {value : Json} : Blanks b → Blanks b' →
    Spells text value → SpellsMember ((quoted name).toList ++ (b ++ ':' :: (b' ++ text))) (name, value)

end

/-! ## The two written forms -/

/-- The characters of tokens. -/
def chars (tokens : List String) : List Char := tokens.flatMap String.toList

theorem toList_join (tokens : List String) : (String.join tokens).toList = chars tokens :=
  String.toList_join

@[simp] theorem chars_nil : chars [] = [] := rfl

@[simp] theorem chars_cons (token : String) (tokens : List String) :
    chars (token :: tokens) = token.toList ++ chars tokens := rfl

@[simp] theorem chars_append (tokens more : List String) :
    chars (tokens ++ more) = chars tokens ++ chars more :=
  List.flatMap_append

/-- The tokens of a text are its quoted form, cut between the runs. -/
theorem chars_quotedTokens (s : String) : chars (quotedTokens s) = (quoted s).toList := by
  have runs (l : List (List Char)) :
      chars (l.map fun run => String.ofList (run.flatMap escapedChar)) =
        l.flatten.flatMap escapedChar := by
    induction l with
    | nil => rfl
    | cons run rest ih =>
      rw [List.map_cons, chars_cons, ih, String.toList_ofList, List.flatten_cons,
        List.flatMap_append]
  rw [quotedTokens, List.cons_append, chars_cons, chars_append, runs, List.flatten_splitBy, quoted]
  simp

theorem blanks_lineStart (depth : Nat) : Blanks (chars (lineStart depth)) := by
  intro c member
  rw [lineStart, chars_cons, List.mem_append] at member
  rcases member with newline | indent
  · obtain rfl : c = '\n' := by simpa using newline
    rfl
  · obtain ⟨token, among, inside⟩ := List.mem_flatMap.1 indent
    rw [List.eq_of_mem_replicate among] at inside
    obtain rfl : c = ' ' := by simpa using inside
    rfl

theorem separates_separator (depth : Nat) (first : Bool) :
    Separates first (chars (separator depth first)) := by
  cases first with
  | true => exact .first (blanks_lineStart depth)
  | false => exact .next blanks_nil (blanks_lineStart depth)

theorem separates_comma (first : Bool) :
    Separates first (chars (if first then [] else [","])) := by
  cases first with
  | true => exact .first blanks_nil
  | false => exact .next blanks_nil blanks_nil

mutual

theorem spells_compact : ∀ value : Json, Spells (chars (compactTokens value)) value
  | .null => by simpa [compactTokens] using Spells.null
  | .bool b => by simpa [compactTokens] using Spells.bool b
  | .number n => by simpa [compactTokens] using Spells.number n
  | .text s => by
    rw [compactTokens, chars_quotedTokens]
    exact .text s
  | .array items => by
    rw [compactTokens]
    exact .array (spellsItems_compact true items)
  | .object members => by
    rw [compactTokens]
    exact .object (spellsMembers_compact true members)
termination_by structural value => value

theorem spellsItems_compact (first : Bool) :
    ∀ items : List Json, SpellsItems first (chars (compactItems first items)) items
  | [] => .nil blanks_nil
  | item :: rest => by
    rw [compactItems, List.append_assoc, chars_append, chars_append]
    exact .cons (separates_comma first) (spells_compact item) (spellsItems_compact false rest)
termination_by structural items => items

theorem spellsMembers_compact (first : Bool) : ∀ members : List (String × Json),
    SpellsMembers first (chars (compactMembers first members)) members
  | [] => .nil blanks_nil
  | member :: rest => by
    rw [compactMembers, List.append_assoc, chars_append, chars_append]
    exact .cons (separates_comma first) (spellsMember_compact member)
      (spellsMembers_compact false rest)
termination_by structural members => members

theorem spellsMember_compact :
    ∀ member : String × Json, SpellsMember (chars (compactMember member)) member
  | (name, value) => by
    rw [compactMember, chars_append, chars_quotedTokens, chars_cons]
    exact .mk blanks_nil blanks_nil (spells_compact value)
termination_by structural member => member

end

mutual

theorem spells_pretty (depth : Nat) : ∀ value : Json, Spells (chars (prettyTokens depth value)) value
  | .null => by simpa [prettyTokens] using Spells.null
  | .bool b => by simpa [prettyTokens] using Spells.bool b
  | .number n => by simpa [prettyTokens] using Spells.number n
  | .text s => by
    rw [prettyTokens, chars_quotedTokens]
    exact .text s
  | .array [] => .array (.nil blanks_nil)
  | .array (item :: rest) => by
    rw [prettyTokens]
    · exact .array (spellsItems_pretty depth true (item :: rest))
    · nofun
  | .object [] => .object (.nil blanks_nil)
  | .object (member :: rest) => by
    rw [prettyTokens]
    · exact .object (spellsMembers_pretty depth true (member :: rest))
    · nofun
termination_by structural value => value

theorem spellsItems_pretty (depth : Nat) (first : Bool) :
    ∀ items : List Json, SpellsItems first (chars (prettyItems depth first items)) items
  | [] => by
    rw [prettyItems, chars_append]
    exact .nil (blanks_lineStart depth)
  | item :: rest => by
    rw [prettyItems, List.append_assoc, chars_append, chars_append]
    exact .cons (separates_separator (depth + 1) first) (spells_pretty (depth + 1) item)
      (spellsItems_pretty depth false rest)
termination_by structural items => items

theorem spellsMembers_pretty (depth : Nat) (first : Bool) : ∀ members : List (String × Json),
    SpellsMembers first (chars (prettyMembers depth first members)) members
  | [] => by
    rw [prettyMembers, chars_append]
    exact .nil (blanks_lineStart depth)
  | member :: rest => by
    rw [prettyMembers, List.append_assoc, chars_append, chars_append]
    exact .cons (separates_separator (depth + 1) first) (spellsMember_pretty (depth + 1) member)
      (spellsMembers_pretty depth false rest)
termination_by structural members => members

theorem spellsMember_pretty (depth : Nat) :
    ∀ member : String × Json, SpellsMember (chars (prettyMember depth member)) member
  | (name, value) => by
    rw [prettyMember, chars_append, chars_quotedTokens, chars_cons]
    -- The pretty form has a blank behind the colon, and the compact form has none.
    have blank : Blanks [' '] := by simp [Blanks, isBlank]
    exact .mk blanks_nil blank (spells_pretty depth value)
termination_by structural member => member

end

/-- Both written forms of a value are spellings of it. -/
theorem spells_toList_compact (value : Json) : Spells (compact value).toList value := by
  rw [compact, toList_join]
  exact spells_compact value

theorem spells_toList_pretty (value : Json) : Spells (pretty value).toList value := by
  rw [pretty, toList_join]
  exact spells_pretty 0 value

end SlashingGuard.Json
