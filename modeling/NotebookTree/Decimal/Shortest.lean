/-!
# Shortest decimal digits

A finite double is `m * 2 ^ q`. The reals that round to it form an interval around it, whose ends
belong to it exactly when `m` is even. Among the decimals in that interval `shortest` takes one
with the fewest digits, and of those the nearest to the double. All arithmetic is exact.
-/

namespace NotebookTree.Decimal

/-- A decimal `digits * 10 ^ exponent`. -/
structure Scientific where
  digits : Nat
  exponent : Int
  deriving Repr, DecidableEq

/-- A positive double `significand * 2 ^ exponent`, with a mark for the doubles whose lower
neighbour is only half as far away as the upper one. -/
structure Binary where
  significand : Nat
  exponent : Int
  closeBelow : Bool

/-- The binary form of the magnitude of a finite double, or nothing for zero. -/
def Binary.ofFloat? (x : Float) : Option Binary :=
  let bits : Nat := x.toBits.toNat
  let fraction : Nat := bits % Nat.pow 2 52
  let biased : Nat := bits / Nat.pow 2 52 % Nat.pow 2 11
  if biased = 0 then
    if fraction = 0 then none else some ⟨fraction, -1074, false⟩
  else
    some ⟨Nat.pow 2 52 + fraction, (biased : Int) - 1075,
      fraction == 0 && decide (1 < biased)⟩

/-- A double and its rounding interval over one common denominator: the numerators of the lower
end, the value and the upper end. -/
structure Interval where
  low : Nat
  value : Nat
  high : Nat
  denominator : Nat
  closed : Bool

/-- The reals that round to a double. -/
def Binary.interval (b : Binary) : Interval :=
  let value := b.significand * 4
  let low := value - if b.closeBelow then 1 else 2
  let scale := Nat.pow 2 (b.exponent - 2).toNat
  let divisor := Nat.pow 2 (2 - b.exponent).toNat
  ⟨low * scale, value * scale, (value + 2) * scale, divisor, b.significand % 2 = 0⟩

/-- Is `digits * 10 ^ exponent` inside the interval? -/
def Interval.contains (i : Interval) (s : Scientific) : Bool :=
  let left := s.digits * Nat.pow 10 s.exponent.toNat * i.denominator
  let factor := Nat.pow 10 (-s.exponent).toNat
  if i.closed then i.low * factor ≤ left && left ≤ i.high * factor
  else i.low * factor < left && left < i.high * factor

/-- The distance of `digits * 10 ^ exponent` from the value, over a denominator that depends on
the exponent alone. -/
def Interval.distance (i : Interval) (s : Scientific) : Nat :=
  let left := s.digits * Nat.pow 10 s.exponent.toNat * i.denominator
  let right := i.value * Nat.pow 10 (-s.exponent).toNat
  (left - right) + (right - left)

/-- The best point of the interval on the grid of the multiples of `10 ^ exponent`, if any. Of
two points that are equally near the even one is taken. -/
def Interval.onGrid? (i : Interval) (exponent : Int) : Option Scientific :=
  let below :=
    i.value * Nat.pow 10 (-exponent).toNat / (i.denominator * Nat.pow 10 exponent.toNat)
  let floor : Scientific := ⟨below, exponent⟩
  let ceiling : Scientific := ⟨below + 1, exponent⟩
  match i.contains floor && below != 0, i.contains ceiling with
  | true, false => some floor
  | false, true => some ceiling
  | false, false => none
  | true, true =>
    let down := i.distance floor
    let up := i.distance ceiling
    if down < up then some floor
    else if up < down then some ceiling
    else if below % 2 = 0 then some floor
    else some ceiling

/-- Tries grids from coarse to fine, `tries` of them. -/
def Interval.search (i : Interval) : Nat → Int → Option Scientific
  | 0, _ => none
  | tries + 1, exponent => (i.onGrid? exponent).orElse fun _ ↦ i.search tries (exponent - 1)

/-- Drops trailing zeros, at most `limit` of them. -/
def Scientific.trim : Nat → Scientific → Scientific
  | 0, s => s
  | limit + 1, s =>
    if s.digits % 10 = 0 && s.digits != 0 then trim limit ⟨s.digits / 10, s.exponent + 1⟩ else s

/-- The fewest digits that read back as the magnitude of a finite double; nothing for zero. -/
def shortest? (x : Float) : Option Scientific := do
  let b ← Binary.ofFloat? x
  let bits := Nat.log2 b.significand + 1
  -- The magnitude is below `2 ^ (bits + exponent)`, hence below `10 ^ start`.
  let start : Int := ((bits : Int) + b.exponent) * 30103 / 100000 + 1
  let found ← b.interval.search 400 start
  return found.trim 400

end NotebookTree.Decimal
