import SlashingGuard.Bytes
import SlashingGuard.Text.Quoted

/-! # Hexadecimal text

    Byte strings written as two hexadecimal digits a byte, with an optional
    marker `0x` or `0X` in front.  Reading takes digits of either case;
    writing gives the marker `0x` and lowercase digits. -/

namespace SlashingGuard.Hex

/-- Why a text is no hexadecimal byte string. -/
inductive Flaw where
  /-- The digits, counted in UTF-8 bytes, do not pair up. -/
  | oddLength
  /-- The first byte that is no digit, as the character of that number, and its place after the
      marker. -/
  | badDigit (byte : Char) (position : Nat)
  deriving DecidableEq, Repr

def Flaw.message : Flaw → String
  | .oddLength => "Odd number of digits"
  | .badDigit byte position =>
    "Invalid character " ++ Text.quoteChar byte ++ " at position " ++ toString position

/-- A text that is no hexadecimal byte string. -/
structure Invalid where
  input : String
  flaw : Flaw
  deriving DecidableEq, Repr

def Invalid.message (e : Invalid) : String :=
  "Invalid hex string " ++ Text.quote e.input ++ ": " ++ e.flaw.message

/-! ## Digits -/

/-- The value of a hexadecimal digit of either case. -/
def digit? (c : Char) : Option Nat :=
  if '0' ≤ c ∧ c ≤ '9' then some (c.toNat - '0'.toNat)
  else if 'a' ≤ c ∧ c ≤ 'f' then some (c.toNat - 'a'.toNat + 10)
  else if 'A' ≤ c ∧ c ≤ 'F' then some (c.toNat - 'A'.toNat + 10)
  else none

/-- The first UTF-8 byte of a character, as the character of that number. -/
def leadByte (c : Char) : Char :=
  match String.utf8EncodeChar c with
  | byte :: _ => Char.ofNat byte.toNat
  | [] => c

/-- The digit `c` that stands at `position`, or the complaint about it. -/
def digitAt (c : Char) (position : Nat) : Except Flaw Nat :=
  match digit? c with
  | some value => .ok value
  | none => .error (.badDigit (leadByte c) position)

/-- The text without one marker in front. -/
def stripMarker : List Char → List Char
  | '0' :: 'x' :: rest => rest
  | '0' :: 'X' :: rest => rest
  | text => text

/-! ## Reading and writing -/

/-- Digits read in pairs from `position` on; the first that is none is reported. -/
def readPairs (position : Nat) : List Char → Except Flaw Bytes
  | [] => .ok []
  | [c] => (digitAt c position).bind fun _ => .error .oddLength
  | hi :: lo :: rest => do
    let h ← digitAt hi position
    let l ← digitAt lo (position + 1)
    let tail ← readPairs (position + 2) rest
    return UInt8.ofNat (16 * h + l) :: tail

/-- The byte string that digits write. -/
def readDigits (digits : List Char) : Except Flaw Bytes :=
  if Bytes.utf8Length digits % 2 = 1 then .error .oddLength else readPairs 0 digits

/-- The byte string that a text writes. -/
def read (text : String) : Except Invalid Bytes :=
  (readDigits (stripMarker text.toList)).mapError fun flaw => ⟨text, flaw⟩

/-- The two lowercase digits of a byte. -/
def pair (byte : UInt8) : List Char :=
  [Nat.digitChar (byte.toNat / 16), Nat.digitChar (byte.toNat % 16)]

/-- Lowercase digits without a marker. -/
def digits (bytes : Bytes) : String :=
  String.ofList (bytes.flatMap pair)

/-- Lowercase digits behind the marker `0x`. -/
def write (bytes : Bytes) : String :=
  String.ofList ('0' :: 'x' :: bytes.flatMap pair)

end SlashingGuard.Hex
