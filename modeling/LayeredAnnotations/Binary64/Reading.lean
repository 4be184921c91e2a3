import LayeredAnnotations.Binary64.Basic
import LayeredAnnotations.Numeral

namespace LayeredAnnotations

-- Powers are those of the natural numbers themselves.
attribute [local instance (high)] instPowNat

namespace Binary64

-- The double nearest to the number of `digits` times `10 ^ exponent`. Outside the range of doubles
-- the power of ten is not needed to know the answer.
def ofDecimal (negative : Bool) (digits : List Char) (exponent : Int) : Binary64 :=
  let significant := digits.dropWhile (· == '0')
  let point := exponent + significant.length
  if significant.isEmpty || point < -330 then nearest negative 0 1
  else if 330 < point then infinity negative
  else
    nearest negative (digitsValue significant * 10 ^ exponent.toNat) (10 ^ (-exponent).toNat)

-- An exponent that has come this far takes no further digits. A number of fewer than 65000 digits
-- is far out of the range of doubles by then, so the digits left out make no difference to it.
def exponentLimit : Nat := 0x10000

def ofNumeral (x : Numeral) : Binary64 :=
  ofDecimal x.negative x.digits (x.exponentBy (valueUpTo exponentLimit) - x.places)

-- An infinity or NaN by name, in any ASCII case.
def named? (cs : List Char) : Option Binary64 :=
  let (sign, name) := splitSign cs
  let negative := sign == ['-']
  match String.ofList (name.map Char.toLower) with
  | "inf" | "infinity" => some (infinity negative)
  | "nan" => some (if negative then nan.neg else nan)
  | _ => none

def longestName : Nat := "-infinity".length

def isNumeralChar (c : Char) : Bool :=
  c.isDigit || c == '.' || c == 'e' || c == 'E' || c == '-' || c == '+'

-- Two signs, a point and an exponent are all that a number can have between its digits. Most texts
-- that are no numbers are known by this.
def isNumeralLike (s : String) : Bool :=
  s.all isNumeralChar && s.foldl (fun n c => if c.isDigit then n else n + 1) 0 ≤ 4

-- The nearest double to a decimal number, or one that is given by name.
def read? (s : String) : Option Binary64 :=
  if isNumeralLike s then (Numeral.read? s.toList).map ofNumeral
  else if s.utf8ByteSize ≤ longestName then named? s.toList
  else none

end Binary64

end LayeredAnnotations
