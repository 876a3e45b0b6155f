import SlashingGuard.Text.Decimal

/-! # Shortest decimals

    The fewest decimal digits that read back as a given binary fraction
    `m * 2 ^ q`, and the text of a floating-point number made of them.

    The reals that round to the fraction form an interval, its ends included
    exactly when `m` is even.  For one digit, two digits and so on, the two
    neighbours of the fraction on that decimal grid are tried in exact
    arithmetic; the first grid with a neighbour inside the interval wins, and
    of two neighbours the nearer, or the even one if both are as near. -/

namespace SlashingGuard.Shortest

/-- A positive decimal `digits * 10 ^ exponent`. -/
structure Scaled where
  digits : Nat
  exponent : Int
  deriving DecidableEq, Repr

/-- A binary fraction in quarter units: the value and the two ends of the interval that rounds to
    it, each a multiple of `scale / unit`. -/
structure Interval where
  value : Nat
  low : Nat
  high : Nat
  scale : Nat
  unit : Nat
  closed : Bool

/-- The interval of `m * 2 ^ q`.  Below a power of two the numbers lie closer together. -/
def Interval.of (m : Nat) (q : Int) (narrowBelow : Bool) : Interval where
  value := 4 * m
  low := 4 * m - (if narrowBelow then 1 else 2)
  high := 4 * m + 2
  scale := Nat.pow 2 (q - 2).toNat
  unit := Nat.pow 2 (2 - q).toNat
  closed := m % 2 == 0

/-- Numerator and denominator of `10 ^ k`. -/
def powerOfTen (k : Int) : Nat × Nat :=
  (Nat.pow 10 k.toNat, Nat.pow 10 (-k).toNat)

/-- The largest `k` at most `start` with `10 ^ k` no larger than the value. -/
def Interval.magnitude (r : Interval) (start : Int) : (fuel : Nat) → Int
  | 0 => start
  | fuel + 1 =>
    let (p, d) := powerOfTen start
    if p * r.unit ≤ r.value * r.scale * d then start else r.magnitude (start - 1) fuel

/-- Whether `n * 10 ^ k` lies in the interval. -/
def Interval.holds (r : Interval) (n : Nat) (k : Int) : Bool :=
  let (p, d) := powerOfTen k
  let x := n * p * r.unit
  let low := r.low * r.scale * d
  let high := r.high * r.scale * d
  if r.closed then low ≤ x && x ≤ high else low < x && x < high

/-- The neighbour of the value on the grid of `10 ^ k` that reads back, if one does. -/
def Interval.onGrid (r : Interval) (k : Int) : Option Scaled :=
  let (p, d) := powerOfTen k
  let value := r.value * r.scale * d
  let step := p * r.unit
  let below := value / step
  let excess := 2 * (value % step)
  let nearerBelow := excess < step ∨ excess = step ∧ below % 2 = 0
  match r.holds below k, r.holds (below + 1) k with
  | true, true => some ⟨if nearerBelow then below else below + 1, k⟩
  | true, false => some ⟨below, k⟩
  | false, true => some ⟨below + 1, k⟩
  | false, false => none

/-- The first grid with a neighbour that reads back, from the coarsest `10 ^ k` on. -/
def Interval.search (r : Interval) (k : Int) : (fuel : Nat) → Scaled
  | 0 => ⟨r.value * r.scale / (4 * r.unit), 0⟩
  | fuel + 1 =>
    match r.onGrid k with
    | some found => found
    | none => r.search (k - 1) fuel

/-- A decimal without zeros at its end. -/
def Scaled.trimmed (x : Scaled) : Scaled :=
  let written := (Nat.toDigits 10 x.digits).reverse
  let zeros := (written.takeWhile (· == '0')).length
  if x.digits = 0 then x else ⟨x.digits / Nat.pow 10 zeros, x.exponent + zeros⟩

/-- The weight of the leading bit of a fraction, which the binary layout leaves out. -/
def hiddenBit : Nat := Nat.pow 2 52

/-- The shortest decimal of a positive finite number, from its binary layout. -/
def ofBits (bits : UInt64) : Scaled :=
  let fraction : Nat := bits.toNat % hiddenBit
  let field : Nat := bits.toNat / hiddenBit % 2048
  let m : Nat := if field = 0 then fraction else hiddenBit + fraction
  let q : Int := if field = 0 then -1074 else Int.ofNat field - 1075
  let r := Interval.of m q (fraction == 0 && decide (1 < field))
  (r.search (r.magnitude 309 700) 20).trimmed

/-- Digits with the point where it belongs: positional while the point stands no further than
    sixteen places to the right or five to the left, with a signed exponent otherwise. -/
def Scaled.display (x : Scaled) : String :=
  let digits := Nat.toDigits 10 x.digits
  let point := (digits.length : Int) + x.exponent
  let text : List Char :=
    if 0 ≤ x.exponent ∧ point ≤ 16 then
      digits ++ List.replicate x.exponent.toNat '0' ++ ['.', '0']
    else if 0 < point ∧ point ≤ 16 then
      digits.take point.toNat ++ '.' :: digits.drop point.toNat
    else if -5 < point ∧ point ≤ 0 then
      '0' :: '.' :: List.replicate (-point).toNat '0' ++ digits
    else
      let head := match digits with
        | [d] => [d]
        | d :: rest => d :: '.' :: rest
        | [] => []
      head ++ 'e' :: (if point ≤ 0 then '-' else '+') :: Nat.toDigits 10 (point - 1).natAbs
  String.ofList text

/-- The text of a finite number. -/
def display (x : Float) : String :=
  let bits := x.toBits
  let sign := if bits.toNat / (UInt64.size / 2) = 1 then "-" else ""
  let magnitude := bits.toNat % (UInt64.size / 2)
  if magnitude = 0 then sign ++ "0.0"
  else sign ++ (ofBits (UInt64.ofNat magnitude)).display

end SlashingGuard.Shortest
