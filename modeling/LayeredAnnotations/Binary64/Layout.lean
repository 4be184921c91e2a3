import LayeredAnnotations.Binary64.Shortest
import LayeredAnnotations.Numeral

namespace LayeredAnnotations

-- How the shortest decimal of a double is laid out as text.
structure Layout where
  -- exponents of the leading digit for which no exponent is written; all of them if absent
  positional : Option (Int × Int)
  -- whether whole numbers end in a fractional zero
  pointZero : Bool
  -- whether a positive exponent has a sign
  plus : Bool
  tie : Tie

namespace Layout

private def zeros (n : Int) : List Char := List.replicate n.toNat '0'

-- The digits before and after the point.
def parts (x : Decimal) : List Char × List Char :=
  if x.point ≤ 0 then (['0'], zeros (-x.point) ++ x.digits)
  else (x.digits.take x.point.toNat ++ zeros (x.point - x.digits.length),
    x.digits.drop x.point.toNat)

private def nonEmpty? (cs : List Char) : Option (List Char) := if cs.isEmpty then none else some cs

def isPositional (l : Layout) (x : Decimal) : Bool :=
  match l.positional with
  | none => true
  | some (low, high) => low ≤ x.point - 1 && x.point - 1 ≤ high

def exponent (l : Layout) (n : Int) : List Char × List Char :=
  (if n < 0 then ['-'] else if l.plus then ['+'] else [], Nat.toDigits 10 n.natAbs)

-- A decimal as a numeral, with one digit in front of the point if it has an exponent.
def decimal (l : Layout) (negative : Bool) (x : Decimal) : Numeral :=
  if l.isPositional x then
    let (whole, fraction) := parts x
    ⟨negative, whole, (nonEmpty? fraction).or (if l.pointZero then some ['0'] else none), none⟩
  else
    ⟨negative, x.digits.take 1, nonEmpty? (x.digits.drop 1), some (l.exponent (x.point - 1))⟩

-- The numeral of a finite double.
def numeral (l : Layout) (d : Binary64) : Numeral := l.decimal d.negative (d.shortest l.tie)

def text (l : Layout) (d : Binary64) : String :=
  if d.isNaN then "NaN"
  else if d.isFinite then String.ofList (l.numeral d).text
  else if d.negative then "-inf" else "inf"

end Layout

end LayeredAnnotations
