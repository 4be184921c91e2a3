namespace LayeredAnnotations

-- Powers are those of the natural numbers themselves.
attribute [local instance (high)] instPowNat

-- A double by its 64 bits, so that two values are equal exactly when their bits are: NaN equals
-- itself and the two zeros differ.
structure Binary64 where
  bits : UInt64
deriving DecidableEq, Repr

namespace Binary64

-- The bit in front of the fraction, which is not stored.
def hiddenBit : Nat := 0x10000000000000

def negative (d : Binary64) : Bool := d.bits.toNat.testBit 63

def exponentField (d : Binary64) : Nat := d.bits.toNat / hiddenBit % 0x800

def fractionField (d : Binary64) : Nat := d.bits.toNat % hiddenBit

def isFinite (d : Binary64) : Bool := d.exponentField != 2047

def isNaN (d : Binary64) : Bool := d.exponentField == 2047 && d.fractionField != 0

-- The hidden bit is set except for zeros and subnormal numbers.
def significand (d : Binary64) : Nat :=
  if d.exponentField = 0 then d.fractionField else hiddenBit + d.fractionField

-- The exponent of the last significand bit, counted from the smallest one.
def scale (d : Binary64) : Nat := d.exponentField - 1

-- The absolute value of a finite double in units of the smallest positive one.
def magnitude (d : Binary64) : Nat := d.significand * 2 ^ d.scale

-- The binary places behind the point that the smallest positive double has.
def places : Nat := 1074

-- The smallest positive double is the reciprocal of this.
def unit : Nat := 1 <<< places

-- The integer that a finite double is, if it is one.
def toInt? (d : Binary64) : Option Int :=
  if d.isFinite && d.magnitude % unit == 0 then
    let n : Int := d.magnitude / unit
    some (if d.negative then -n else n)
  else none

-- The nearest integer to `num / den`; a half goes to the even neighbour.
def roundHalfEven (num den : Nat) : Nat :=
  let q := num / den
  let r := num % den
  if 2 * r < den then q else if den < 2 * r then q + 1 else q + q % 2

def infinityBits : Nat := 2047 * hiddenBit

-- The bits of the double nearest to `num / den`. Of the quotient in units of the smallest double
-- 53 leading bits are kept; a carry out of them moves on to the exponent by itself.
def nearestBits (num den : Nat) : Nat :=
  let scale := (num * unit / den).log2 - 52
  min infinityBits (scale * hiddenBit + roundHalfEven (num * unit) (den * 2 ^ scale))

def signBit : Nat := 0x8000000000000000

def ofMagnitudeBits (negative : Bool) (bits : Nat) : Binary64 :=
  ⟨UInt64.ofNat (if negative then signBit + bits else bits)⟩

-- The double nearest to `num / den`, infinite from halfway beyond the largest finite one.
def nearest (negative : Bool) (num den : Nat) : Binary64 :=
  ofMagnitudeBits negative (nearestBits num den)

def ofInt (n : Int) : Binary64 := nearest (n < 0) n.natAbs 1

def infinity (negative : Bool) : Binary64 := ofMagnitudeBits negative infinityBits

-- The quiet NaN without payload.
def nan : Binary64 := ⟨0x7FF8000000000000⟩

-- The product of two finite doubles, rounded once.
def mul (a b : Binary64) : Binary64 :=
  nearest (a.negative != b.negative) (a.magnitude * b.magnitude) (unit * unit)

-- The quotient of two finite doubles, rounded once; the divisor is not zero.
def div (a b : Binary64) : Binary64 :=
  nearest (a.negative != b.negative) a.magnitude b.magnitude

def neg (a : Binary64) : Binary64 := ⟨a.bits ^^^ UInt64.ofNat signBit⟩

end Binary64

end LayeredAnnotations
