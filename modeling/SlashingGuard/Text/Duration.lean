import SlashingGuard.Text.Decimal

/-! # Durations

    Lengths of time in nanoseconds, and the text in which messages show them:
    the largest unit that leaves a whole part, with the fraction that is
    left, without trailing zeros. -/

namespace SlashingGuard

/-- A length of time. -/
structure Duration where
  nanos : Nat
  deriving DecidableEq, Repr

namespace Duration

def ofSeconds (n : Nat) : Duration := ⟨n * 1000000000⟩

def ofMillis (n : Nat) : Duration := ⟨n * 1000000⟩

/-- Whole seconds, a half rounded up. -/
def toSeconds (d : Duration) : Nat := (d.nanos + 500000000) / 1000000000

/-- Whole milliseconds, a half rounded up. -/
def toMillis (d : Duration) : Nat := (d.nanos + 500000) / 1000000

/-- The seconds that have passed in full. -/
def wholeSeconds (d : Duration) : Nat := d.nanos / 1000000000

def isZero (d : Duration) : Bool := d.nanos == 0

/-- The first `places` digits of a fraction, without trailing zeros. -/
def fractionDigits (places fraction : Nat) : List Char :=
  let written := Nat.toDigits 10 fraction
  let padded := List.replicate (places - written.length) '0' ++ written
  (padded.reverse.dropWhile (· == '0')).reverse

/-- A whole part, and behind a point what `places` digits of fraction leave. -/
def decimal (whole places fraction : Nat) : String :=
  match fractionDigits places fraction with
  | [] => Decimal.write whole
  | tail => Decimal.write whole ++ "." ++ String.ofList tail

/-- The text of a duration, in the largest unit that fits it. -/
def display (d : Duration) : String :=
  let n := d.nanos
  if 1000000000 ≤ n then decimal (n / 1000000000) 9 (n % 1000000000) ++ "s"
  else if 1000000 ≤ n then decimal (n / 1000000) 6 (n % 1000000) ++ "ms"
  else if 1000 ≤ n then decimal (n / 1000) 3 (n % 1000) ++ "µs"
  else Decimal.write n ++ "ns"

@[simp] theorem toSeconds_ofSeconds (n : Nat) : (ofSeconds n).toSeconds = n := by
  simp only [toSeconds, ofSeconds]; omega

@[simp] theorem toMillis_ofMillis (n : Nat) : (ofMillis n).toMillis = n := by
  simp only [toMillis, ofMillis]; omega

end Duration

end SlashingGuard
