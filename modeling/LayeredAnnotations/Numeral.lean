namespace LayeredAnnotations

-- Powers are those of the natural numbers themselves.
attribute [local instance (high)] instPowNat

-- A decimal number as it is written.
structure Numeral where
  negative : Bool
  whole : List Char
  -- the digits after the point; `none` without a point
  fraction : Option (List Char)
  -- the sign of the exponent, if it has one, and its digits; `none` without an exponent
  exponent : Option (List Char × List Char)
deriving DecidableEq, Repr

-- Reads up to `2 ^ k` digits. Gives their value, the power of ten above them and what is left.
-- Both halves of a long number are put together at the same size, which keeps it fast.
def readBlock : Nat → List Char → Nat × Nat × List Char
  | 0, [] => (0, 1, [])
  | 0, c :: cs => (c.toNat - '0'.toNat, 10, cs)
  | k + 1, cs =>
    let (high, above, rest) := readBlock k cs
    let (low, weight, rest) := readBlock k rest
    (high * weight + low, above * weight, rest)

def digitsValue (cs : List Char) : Nat := (readBlock (cs.length.log2 + 1) cs).1

theorem ofDigitChars_eq_mul_add (cs : List Char) (n : Nat) :
    Nat.ofDigitChars 10 cs n = n * 10 ^ cs.length + Nat.ofDigitChars 10 cs 0 := by
  induction cs generalizing n with
  | nil => simp [Nat.ofDigitChars]
  | cons c cs ih =>
    rw [Nat.ofDigitChars_cons, Nat.ofDigitChars_cons, ih, ih (10 * 0 + _), List.length_cons]
    grind

theorem readBlock_eq (k : Nat) (cs : List Char) :
    readBlock k cs =
      (Nat.ofDigitChars 10 (cs.take (2 ^ k)) 0, 10 ^ (cs.take (2 ^ k)).length,
        cs.drop (2 ^ k)) := by
  induction k generalizing cs with
  | zero =>
    cases cs with
    | nil => rfl
    | cons c cs =>
      change (c.toNat - '0'.toNat, 10, cs) = (10 * 0 + (c.toNat - '0'.toNat), 10, cs)
      rw [Nat.mul_zero, Nat.zero_add]
  | succ k ih =>
    have htake : cs.take (2 ^ (k + 1)) = cs.take (2 ^ k) ++ (cs.drop (2 ^ k)).take (2 ^ k) := by
      rw [Nat.pow_succ, Nat.mul_two, List.take_add]
    have hdrop : cs.drop (2 ^ (k + 1)) = (cs.drop (2 ^ k)).drop (2 ^ k) := by
      rw [Nat.pow_succ, Nat.mul_two, List.drop_drop]
    simp only [readBlock, ih]
    rw [htake, hdrop, Nat.ofDigitChars_append,
      ofDigitChars_eq_mul_add _ (Nat.ofDigitChars 10 (cs.take (2 ^ k)) 0), List.length_append,
      Nat.pow_add]

-- The digits are taken one after another, from the left.
theorem digitsValue_eq (cs : List Char) : digitsValue cs = Nat.ofDigitChars 10 cs 0 := by
  rw [digitsValue, readBlock_eq, List.take_of_length_le (Nat.le_of_lt Nat.lt_log2_self)]

-- A non-empty run of ASCII digits.
def allDigits (cs : List Char) : Bool := !cs.isEmpty && cs.all Char.isDigit

def splitSign : List Char → List Char × List Char
  | '-' :: cs => (['-'], cs)
  | '+' :: cs => (['+'], cs)
  | cs => ([], cs)

def signed (sign : List Char) (n : Nat) : Int := if sign = ['-'] then -n else n

-- One more digit behind a value, unless the value has come to `limit`.
def nextDigit (limit n : Nat) (c : Char) : Nat :=
  if n < limit then n * 10 + (c.toNat - '0'.toNat) else n

-- The value of digits read from the left for as long as it is below `limit`. Those behind are
-- passed over.
def valueUpTo (limit : Nat) (digits : List Char) : Nat := digits.foldl (nextDigit limit) 0

theorem foldl_nextDigit_of_le {limit n : Nat} (h : limit ≤ n) (cs : List Char) :
    cs.foldl (nextDigit limit) n = n := by
  induction cs with
  | nil => rfl
  | cons c cs ih => rw [List.foldl_cons, nextDigit, if_neg (by omega), ih]

theorem le_ofDigitChars (cs : List Char) (n : Nat) : n ≤ Nat.ofDigitChars 10 cs n := by
  induction cs generalizing n with
  | nil => exact Nat.le_refl n
  | cons c cs ih =>
    rw [Nat.ofDigitChars_cons]
    have := ih (10 * n + (c.toNat - '0'.toNat))
    omega

-- Below the limit the value is the whole value, and it is below the limit if the whole value is.
theorem valueUpTo_eq_or_le (limit : Nat) (cs : List Char) :
    valueUpTo limit cs = digitsValue cs ∨
      limit ≤ valueUpTo limit cs ∧ limit ≤ digitsValue cs := by
  suffices h : ∀ n, cs.foldl (nextDigit limit) n = Nat.ofDigitChars 10 cs n ∨
      limit ≤ cs.foldl (nextDigit limit) n ∧ limit ≤ Nat.ofDigitChars 10 cs n by
    rw [digitsValue_eq]
    exact h 0
  induction cs with
  | nil => exact fun n => .inl rfl
  | cons c cs ih =>
    intro n
    by_cases hn : n < limit
    · rw [List.foldl_cons, nextDigit, if_pos hn, Nat.ofDigitChars_cons, Nat.mul_comm]
      exact ih _
    · rw [foldl_nextDigit_of_le (by omega)]
      exact .inr ⟨by omega, Nat.le_trans (by omega) (le_ofDigitChars (c :: cs) n)⟩

theorem ite_valueUpTo {α : Type} (limit : Nat) (cs : List Char) (f : Nat → α) (x : α) :
    (if valueUpTo limit cs < limit then f (valueUpTo limit cs) else x)
      = if digitsValue cs < limit then f (digitsValue cs) else x := by
  cases valueUpTo_eq_or_le limit cs with
  | inl h => rw [h]
  | inr h => rw [if_neg (by omega), if_neg (by omega)]

-- Integers have no more bits than this leaves room for.
def integerLimit : Nat := 0x10000000000000000

-- ASCII digits behind a sign, as many as there are. A number that no word holds is refused without
-- a look at the rest of its digits.
def readDigits? (sign : List Char) (digits : String.Slice) : Option Int :=
  if digits.isEmpty || !digits.all Char.isDigit then none
  else
    let n := digits.foldl (nextDigit integerLimit) 0
    if n < integerLimit then some (signed sign n) else none

-- An optional sign and digits.
def readInt? (s : String) : Option Int :=
  match s.front? with
  | some '-' => readDigits? ['-'] (s.drop 1)
  | some '+' => readDigits? ['+'] (s.drop 1)
  | _ => readDigits? [] s.toSlice

theorem readDigits?_eq (sign : List Char) (digits : String.Slice) :
    readDigits? sign digits =
      if allDigits digits.copy.toList ∧ digitsValue digits.copy.toList < integerLimit then
        some (signed sign (digitsValue digits.copy.toList))
      else none := by
  have hempty : digits.isEmpty = digits.copy.toList.isEmpty := by
    rw [Bool.eq_iff_iff, ← String.Slice.copy_eq_empty_iff, List.isEmpty_iff,
      String.toList_eq_nil_iff]
  rw [readDigits?, String.Slice.all_bool_eq, String.Slice.foldl_eq_foldl_toList, hempty, allDigits]
  change (if _ then none
    else if valueUpTo integerLimit _ < integerLimit then
      some (signed sign (valueUpTo integerLimit _))
    else none) = _
  rw [ite_valueUpTo integerLimit _ (fun n => some (signed sign n)) none]
  cases digits.copy.toList.isEmpty <;> cases digits.copy.toList.all Char.isDigit <;> simp

theorem readInt?_eq (s : String) :
    readInt? s =
      let (sign, digits) := splitSign s.toList
      if allDigits digits ∧ digitsValue digits < integerLimit then
        some (signed sign (digitsValue digits))
      else none := by
  rw [readInt?, String.front?_eq]
  simp only [readDigits?_eq, String.toList_copy_drop, String.copy_toSlice]
  cases s.toList with
  | nil => rfl
  | cons c cs =>
    by_cases hm : c = '-'
    · subst hm
      rfl
    · by_cases hp : c = '+'
      · subst hp
        rfl
      · simp [splitSign, hm, hp]

namespace Numeral

def ofInt (n : Int) : Numeral := ⟨n < 0, Nat.toDigits 10 n.natAbs, none, none⟩

-- The digits before and after the point.
def digits (x : Numeral) : List Char :=
  match x.fraction with
  | some fraction => x.whole ++ fraction
  | none => x.whole

-- The exponent, given how its digits are read.
def exponentBy (valueOf : List Char → Nat) (x : Numeral) : Int :=
  match x.exponent with
  | some (sign, digits) => signed sign (valueOf digits)
  | none => 0

def exponentValue (x : Numeral) : Int := x.exponentBy digitsValue

-- How many digits stand behind the point.
def places (x : Numeral) : Nat := (x.fraction.getD []).length

def text (x : Numeral) : List Char :=
  let fraction := match x.fraction with
    | some digits => '.' :: digits
    | none => []
  let exponent := match x.exponent with
    | some (sign, digits) => 'e' :: (sign ++ digits)
    | none => []
  (if x.negative then ['-'] else []) ++ x.whole ++ fraction ++ exponent

-- Takes off a point and the digits behind it.
def splitFraction : List Char → Option (List Char) × List Char
  | '.' :: cs => (some (cs.takeWhile Char.isDigit), cs.dropWhile Char.isDigit)
  | cs => (none, cs)

-- Takes off an exponent. One without digits is no number.
def splitExponent? (cs : List Char) : Option (Option (List Char × List Char) × List Char) :=
  match cs with
  | [] => some (none, [])
  | c :: rest =>
    if c = 'e' ∨ c = 'E' then
      let (sign, rest) := splitSign rest
      match rest.takeWhile Char.isDigit with
      | [] => none
      | digits => some (some (sign, digits), rest.dropWhile Char.isDigit)
    else some (none, cs)

-- Takes off everything behind the sign; neither side of the point needs digits here.
def splitUnsigned? (negative : Bool) (cs : List Char) : Option (Numeral × List Char) := do
  let (fraction, rest) := splitFraction (cs.dropWhile Char.isDigit)
  let (exponent, rest) ← splitExponent? rest
  some (⟨negative, cs.takeWhile Char.isDigit, fraction, exponent⟩, rest)

-- A number of which nothing is left over. One side of the point can do without digits.
def read? (cs : List Char) : Option Numeral :=
  let (sign, cs) := splitSign cs
  match splitUnsigned? (sign == ['-']) cs with
  | some (x, []) => if x.whole.isEmpty && x.places == 0 then none else some x
  | _ => none

end Numeral

def intText (n : Int) : String := String.ofList (Numeral.ofInt n).text

end LayeredAnnotations
