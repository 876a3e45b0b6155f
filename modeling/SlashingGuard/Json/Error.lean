import SlashingGuard.Bytes
import SlashingGuard.Text.Quoted
import SlashingGuard.Text.Shortest

/-! # What can be wrong with a JSON text

    A text is read from left to right, and the first thing wrong with it is
    reported: either the text is no JSON (a flaw), or a value in it is not
    what the reader wants there.  Both come with the place in the text where
    reading stood. -/

namespace SlashingGuard.Json

/-! ## Causes -/

/-- How a text fails to be JSON. -/
inductive Flaw where
  | endInArray
  | endInObject
  | endInText
  | endInValue
  | noColon
  | noArrayEnd
  | noObjectEnd
  | badWord
  | noValue
  | badEscape
  | badNumber
  | outOfRange
  | rawControl
  | keyNoText
  | loneSurrogate
  | halfSurrogate
  | trailingComma
  | trailingText
  deriving DecidableEq, Repr

def Flaw.message : Flaw → String
  | .endInArray => "EOF while parsing a list"
  | .endInObject => "EOF while parsing an object"
  | .endInText => "EOF while parsing a string"
  | .endInValue => "EOF while parsing a value"
  | .noColon => "expected `:`"
  | .noArrayEnd => "expected `,` or `]`"
  | .noObjectEnd => "expected `,` or `\x7d`"
  | .badWord => "expected ident"
  | .noValue => "expected value"
  | .badEscape => "invalid escape"
  | .badNumber => "invalid number"
  | .outOfRange => "number out of range"
  | .rawControl => "control character (\\u0000-\\u001F) found while parsing a string"
  | .keyNoText => "key must be a string"
  | .loneSurrogate => "lone leading surrogate in hex escape"
  | .halfSurrogate => "unexpected end of hex escape"
  | .trailingComma => "trailing comma"
  | .trailingText => "trailing characters"

/-- Whether the text only stops too early. -/
def Flaw.isUnfinished : Flaw → Bool
  | .endInArray | .endInObject | .endInText | .endInValue => true
  | _ => false

/-- A value met where another kind was wanted, as far as messages tell it. -/
inductive Found where
  | null
  | bool (b : Bool)
  | integer (n : Int)
  | float (x : Float)
  | text (s : String)
  | sequence
  | map

def Found.message : Found → String
  | .null => "null"
  | .bool b => "boolean `" ++ (if b then "true" else "false") ++ "`"
  | .integer n => "integer `" ++ toString n ++ "`"
  | .float x => "floating point `" ++ Shortest.display x ++ "`"
  | .text s => "string " ++ Text.quote s
  | .sequence => "sequence"
  | .map => "map"

/-- How a value fails to be what the reader wants. -/
inductive Mismatch where
  | wrongKind (found : Found) (expected : String)
  | wrongValue (n : Int) (expected : String)
  | missingMember (name : String)
  | duplicateMember (name : String)
  | wrongLength (length : Nat) (record : String) (members : Nat)
  | unknownName (name : String) (known : List String)
  /-- The text of a member was refused by the reader of that text. -/
  | refused (reason : String)

/-- The names that an enumeration knows. -/
def knownNames : List String → String
  | [] => "there are no variants"
  | [a] => "expected `" ++ a ++ "`"
  | [a, b] => "expected `" ++ a ++ "` or `" ++ b ++ "`"
  | names => "expected one of " ++ String.intercalate ", " (names.map fun n => "`" ++ n ++ "`")

def Mismatch.message : Mismatch → String
  | .wrongKind found expected =>
    "invalid type: " ++ found.message ++ ", expected " ++ expected
  | .wrongValue n expected =>
    "invalid value: integer `" ++ toString n ++ "`, expected " ++ expected
  | .missingMember name => "missing field `" ++ name ++ "`"
  | .duplicateMember name => "duplicate field `" ++ name ++ "`"
  | .wrongLength length record members =>
    "invalid length " ++ toString length ++ ", expected struct " ++ record ++ " with " ++
      toString members ++ (if members = 1 then " element" else " elements")
  | .unknownName name known => "unknown variant `" ++ name ++ "`, " ++ knownNames known
  | .refused reason => reason

inductive Cause where
  | flaw (what : Flaw)
  | mismatch (what : Mismatch)

def Cause.message : Cause → String
  | .flaw what => what.message
  | .mismatch what => what.message

/-! ## Places -/

/-- The first thing wrong with a text, and how many UTF-8 bytes of the text lie behind the place
    where reading stood. -/
structure Error where
  cause : Cause
  left : Nat

/-- The line of a place, counted from one, and how many bytes of that line lie before it. -/
def place (text : List Char) (left : Nat) : Nat × Nat :=
  let bytes := text.flatMap String.utf8EncodeChar
  let before := bytes.take (bytes.length - left)
  (1 + before.count 10, (before.reverse.takeWhile (· != 10)).length)

/-- The message about an error in a text, with the place in it. -/
def Error.message (e : Error) (text : String) : String :=
  let (line, column) := place text.toList e.left
  e.cause.message ++ " at line " ++ toString line ++ " column " ++ toString column

end SlashingGuard.Json
