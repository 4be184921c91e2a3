import LayeredAnnotations.Binary64.Basic

namespace LayeredAnnotations

-- Powers are those of the natural numbers themselves.
attribute [local instance (high)] instPowNat

-- Which of two decimals at the same distance is taken.
inductive Tie where
  | up
  | toEven
deriving DecidableEq, Repr

-- Significant digits, read as `0.d₁d₂… * 10 ^ point`.
structure Decimal where
  digits : List Char
  point : Int
deriving DecidableEq, Repr

namespace Binary64

-- A finite double as a fraction, and the last place of its significand over the same denominator.
def numerator (d : Binary64) : Nat := d.significand * 2 ^ (d.scale - places)

def lastPlace (d : Binary64) : Nat := 2 ^ (d.scale - places)

def denominator (d : Binary64) : Nat := 2 ^ (places - d.scale)

-- The least `k` with `d < 10 ^ k`, for a positive double. The power of two just below `d` leaves
-- two candidates. Its decimal logarithm is close enough to the fraction given here, for all doubles.
def decimalPoint (d : Binary64) : Int :=
  let log2 : Int := d.significand.log2 + d.scale - places
  let k := log2 * 30103 / 100000 + 1
  if d.numerator * 10 ^ (-k).toNat < d.denominator * 10 ^ k.toNat then k else k + 1

end Binary64

-- A positive double among the multiples of a power of ten.
structure Grid where
  exponent : Int
  -- the double as a fraction of that power
  num : Nat
  den : Nat
  -- the largest multiple that is not above the double
  below : Nat
  -- the first and the last multiple that read back as the double
  first : Nat
  last : Nat
deriving DecidableEq, Repr

namespace Grid

-- The significant digits that are ever needed.
def digits : Nat := 17

-- The grid that is fine enough for every double. The reals that round to `d` reach halfway to its
-- neighbours, of which the lower one is twice as close below a power of two. The ends belong to
-- them if the significand is even. All of this is in quarters of the last place.
def ofDouble (d : Binary64) : Grid :=
  let exponent := d.decimalPoint - digits
  let up := 10 ^ (-exponent).toNat
  let den := 4 * d.denominator * 10 ^ exponent.toNat
  let num := 4 * d.numerator * up
  let quarter := d.lastPlace * up
  let lower := num - (if d.significand = Binary64.hiddenBit ∧ 0 < d.scale then 1 else 2) * quarter
  let upper := num + 2 * quarter
  let odd := d.significand % 2
  ⟨exponent, num, den, num / den, (lower + (den - 1 + odd)) / den, (upper - odd) / den⟩

-- The multiple of `10 ^ places` on the grid nearest to the double, among the two around it that
-- read back as the double.
def nearest? (tie : Tie) (g : Grid) (places : Nat) : Option Nat :=
  let step := 10 ^ places
  let below := g.below / step
  let above := below + 1
  match decide (g.first ≤ below * step), decide (above * step ≤ g.last) with
  | true, true =>
    let middle := (below + above) * step * g.den
    if 2 * g.num < middle then some below
    else if middle < 2 * g.num then some above
    else match tie with
      | .up => some above
      | .toEven => some (if below % 2 = 0 then below else above)
  | true, false => some below
  | false, true => some above
  | false, false => none

end Grid

-- The coarsest grid with a hit gives the fewest digits. Zero has no leading digit and is `0`.
def Binary64.shortest (tie : Tie) (d : Binary64) : Decimal :=
  if d.significand = 0 then ⟨['0'], 1⟩
  else
    let grid := Grid.ofDouble d
    let hit? := (List.range Grid.digits).reverse.findSome? fun (places : Nat) =>
      (grid.nearest? tie places).map fun n => (Nat.toDigits 10 n, grid.exponent + places)
    match hit? with
    | some (digits, exponent) =>
      ⟨(digits.reverse.dropWhile (· == '0')).reverse, exponent + digits.length⟩
    | none => ⟨['0'], 1⟩

end LayeredAnnotations
