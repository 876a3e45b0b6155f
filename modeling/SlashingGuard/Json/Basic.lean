import SlashingGuard.Text.Decimal

/-! # JSON values

    The values this library writes, and their two written forms: compact,
    without any blank, and pretty, with one member or item a line and two
    blanks of indentation a level.  Both are lists of tokens, so that a
    writer can hand them to a sink one by one. -/

namespace SlashingGuard

/-- A JSON value.  Numbers are natural numbers; members keep their order. -/
inductive Json where
  | null
  | bool (b : Bool)
  | number (n : Nat)
  | text (s : String)
  | array (items : List Json)
  | object (members : List (String × Json))

namespace Json

/-! ## Text -/

/-- A character of a text: the quote, the backslash and controls are escaped. -/
def escapedChar (c : Char) : List Char :=
  if c = '"' then ['\\', '"']
  else if c = '\\' then ['\\', '\\']
  else if c = '\x08' then ['\\', 'b']
  else if c = '\t' then ['\\', 't']
  else if c = '\n' then ['\\', 'n']
  else if c = '\x0c' then ['\\', 'f']
  else if c = '\r' then ['\\', 'r']
  else if c.toNat < 32 then
    ['\\', 'u', '0', '0', Nat.digitChar (c.toNat / 16), Nat.digitChar (c.toNat % 16)]
  else [c]

/-- A text between double quotes. -/
def quoted (s : String) : String :=
  String.ofList ('"' :: s.toList.flatMap escapedChar ++ ['"'])

/-- Whether a character of a text stands for itself. -/
def isPlain (c : Char) : Bool := escapedChar c = [c]

/-- The tokens of a text between double quotes: the quotes, the escapes, and between them each run
    of characters that stand for themselves.  Proofs need only the text that they make up. -/
@[irreducible] def quotedTokens (s : String) : List String :=
  let runs := s.toList.splitBy fun a b => isPlain a && isPlain b
  "\"" :: runs.map (fun run => String.ofList (run.flatMap escapedChar)) ++ ["\""]

def boolText (b : Bool) : String :=
  if b then "true" else "false"

/-! ## The compact form -/

mutual

/-- The tokens of the compact form. -/
def compactTokens : Json → List String
  | .null => ["null"]
  | .bool b => [boolText b]
  | .number n => [Decimal.write n]
  | .text s => quotedTokens s
  | .array items => "[" :: compactItems true items
  | .object members => "\x7b" :: compactMembers true members
termination_by structural value => value

/-- Items, each but the first behind a comma, and the closing bracket. -/
def compactItems (first : Bool) : List Json → List String
  | [] => ["]"]
  | item :: rest =>
    (if first then [] else [","]) ++ compactTokens item ++ compactItems false rest
termination_by structural items => items

/-- Members, each but the first behind a comma, and the closing brace. -/
def compactMembers (first : Bool) : List (String × Json) → List String
  | [] => ["\x7d"]
  | member :: rest =>
    (if first then [] else [","]) ++ compactMember member ++ compactMembers false rest
termination_by structural members => members

def compactMember : String × Json → List String
  | (name, value) => quotedTokens name ++ ":" :: compactTokens value
termination_by structural member => member

end

/-! ## The pretty form -/

/-- The start of a line at some depth. -/
def lineStart (depth : Nat) : List String :=
  "\n" :: List.replicate depth "  "

/-- What stands before an item at some depth: a comma unless it is the first, and a new line.  The
    comma and the line break are one token. -/
def separator (depth : Nat) (first : Bool) : List String :=
  (if first then "\n" else ",\n") :: List.replicate depth "  "

mutual

/-- The tokens of the pretty form of a value at some depth. -/
def prettyTokens (depth : Nat) : Json → List String
  | .null => ["null"]
  | .bool b => [boolText b]
  | .number n => [Decimal.write n]
  | .text s => quotedTokens s
  | .array [] => ["[", "]"]
  | .array items => "[" :: prettyItems depth true items
  | .object [] => ["\x7b", "\x7d"]
  | .object members => "\x7b" :: prettyMembers depth true members
termination_by structural value => value

/-- Items one level below `depth`, and the closing bracket on a line of its own. -/
def prettyItems (depth : Nat) (first : Bool) : List Json → List String
  | [] => lineStart depth ++ ["]"]
  | item :: rest =>
    separator (depth + 1) first ++ prettyTokens (depth + 1) item ++ prettyItems depth false rest
termination_by structural items => items

/-- Members one level below `depth`, and the closing brace on a line of its own. -/
def prettyMembers (depth : Nat) (first : Bool) : List (String × Json) → List String
  | [] => lineStart depth ++ ["\x7d"]
  | member :: rest =>
    separator (depth + 1) first ++ prettyMember (depth + 1) member ++
      prettyMembers depth false rest
termination_by structural members => members

def prettyMember (depth : Nat) : String × Json → List String
  | (name, value) => quotedTokens name ++ ": " :: prettyTokens depth value
termination_by structural member => member

end

/-- The compact form. -/
def compact (value : Json) : String :=
  String.join (compactTokens value)

/-- The pretty form. -/
def pretty (value : Json) : String :=
  String.join (prettyTokens 0 value)

/-- A value that may be absent, written as null when it is. -/
def orNull {α : Type} (write : α → Json) : Option α → Json
  | none => .null
  | some value => write value

/-- A member that is left out when its value is absent. -/
def optionalMember {α : Type} (name : String) (write : α → Json) :
    Option α → List (String × Json)
  | none => []
  | some value => [(name, write value)]

end Json

end SlashingGuard
