import LayeredAnnotations.Binary64.Reading
import LayeredAnnotations.Json.Tree

namespace LayeredAnnotations

namespace Json

-- Minus zero is no integer, nor is a number with a point or an exponent.
def integer? (x : Numeral) : Option Int :=
  match x.fraction, x.exponent with
  | none, none =>
    let n := digitsValue x.whole
    if x.negative && n == 0 then none else some (if x.negative then -n else n)
  | _, _ => none

-- Significands have 64 bits.
def significandLimit : Nat := 0x10000000000000000

-- Reads digits into a significand until one does not fit any more. Returns the
-- significand and the number of digits taken.
def takeDigits (significand : Nat) : List Char → Nat × Nat
  | [] => (significand, 0)
  | c :: cs =>
    let next := significand * 10 + (c.toNat - '0'.toNat)
    if next < significandLimit then
      let (result, taken) := takeDigits next cs
      (result, taken + 1)
    else (significand, 0)

-- The leading digits of a number and the power of ten that they are taken with. Digits in front of
-- the point that do not fit count as places, those behind it not at all.
def leadingDigits (x : Numeral) : Nat × Int :=
  let (front, taken) := takeDigits 0 x.whole
  let places : Int := x.whole.length - taken
  let (significand, behind) := takeDigits front (x.fraction.getD [])
  (significand, places - behind)

-- The powers of ten that a double can hold.
def powerOfTen (n : Nat) : Binary64 := .ofDecimal false ['1'] n

-- Divides by the largest power of ten as long as the exponent is below its range. Four times are
-- enough for nothing to be left of any significand.
def scaleDown : Nat → Binary64 → Int → Binary64
  | 0, _, _ => .ofInt 0
  | steps + 1, d, exponent =>
    if exponent < -308 then scaleDown steps (d.div (powerOfTen 308)) (exponent + 308)
    else d.div (powerOfTen exponent.natAbs)

-- A significand and a power of ten are rounded each, and once more together. Numbers beyond the
-- largest double are refused.
def scaled? (significand : Nat) (exponent : Int) : Option Binary64 :=
  let d := Binary64.ofInt significand
  if significand = 0 then some d
  else if exponent < 0 then some (scaleDown 4 d exponent)
  else if 308 < exponent then none
  else
    let product := d.mul (powerOfTen exponent.toNat)
    if product.isFinite then some product else none

-- Exponents from here on are too large to be added up.
def exponentLimit : Nat := 0x80000000

def double? (x : Numeral) : Option Binary64 :=
  let magnitude? : Option Binary64 :=
    match x.fraction, x.exponent with
    | none, none =>
      let n := digitsValue x.whole
      if n < significandLimit then some (.ofInt n)
      else
        let (significand, exponent) := leadingDigits x
        scaled? significand exponent
    | _, _ =>
      let (significand, exponent) := leadingDigits x
      if x.exponentValue.natAbs < exponentLimit then
        scaled? significand (exponent + x.exponentValue)
      else if significand = 0 ∨ x.exponentValue < 0 then some (.ofInt 0)
      else none
  magnitude?.map fun d => if x.negative then d.neg else d

end Json

end LayeredAnnotations
