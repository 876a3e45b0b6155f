/-! # Decimal words

    Decimal text of 64-bit words.  A leading plus sign and leading zeros are
    accepted; blanks, minus signs and digits beyond ASCII are not. -/

namespace SlashingGuard.Decimal

/-- Why a text is no decimal word. -/
inductive Trouble where
  | empty
  | invalidDigit
  | tooLarge
  deriving DecidableEq, Repr

def Trouble.message : Trouble → String
  | .empty => "cannot parse integer from empty string"
  | .invalidDigit => "invalid digit found in string"
  | .tooLarge => "number too large to fit in target type"

/-- The value of an ASCII decimal digit. -/
def digit? (c : Char) : Option Nat :=
  if '0' ≤ c ∧ c ≤ '9' then some (c.toNat - '0'.toNat) else none

/-- Digits read left to right onto `n`; the first digit that is none, or that
    takes the number past a word, is reported. -/
def readDigits (n : Nat) : List Char → Except Trouble Nat
  | [] => .ok n
  | c :: rest =>
    match digit? c with
    | none => .error .invalidDigit
    | some d => if n * 10 + d < UInt64.size then readDigits (n * 10 + d) rest else .error .tooLarge

/-- The word written by a text. -/
def read (text : String) : Except Trouble UInt64 :=
  match text.toList with
  | [] => .error .empty
  | ['+'] => .error .invalidDigit
  | '+' :: digits => (readDigits 0 digits).map UInt64.ofNat
  | digits => (readDigits 0 digits).map UInt64.ofNat

/-- The decimal text of a number, without sign or leading zeros. -/
def write (n : Nat) : String :=
  String.ofList (Nat.toDigits 10 n)

end SlashingGuard.Decimal
