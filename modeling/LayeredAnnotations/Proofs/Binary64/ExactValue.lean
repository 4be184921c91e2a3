import LayeredAnnotations.Binary64.Basic
import Mathlib.Algebra.Order.Field.Power
import Mathlib.Data.Nat.Cast.Field
import Mathlib.Data.Rat.Cast.Order
import Mathlib.Tactic.FieldSimp
import Mathlib.Tactic.NormNum

namespace LayeredAnnotations

-- Powers are those of the natural numbers themselves.
attribute [local instance (high)] instPowNat

namespace Binary64

-- What the fields of a finite double stand for: a binary fraction with an exponent, and a leading
-- one in front of the point except for zeros and subnormal numbers.
def exactAbs (d : Binary64) : ℚ :=
  if d.exponentField = 0 then (d.fractionField / 2 ^ 52) * 2 ^ (-1022 : ℤ)
  else (1 + d.fractionField / 2 ^ 52) * 2 ^ ((d.exponentField : ℤ) - 1023)

def exactValue (d : Binary64) : ℚ := if d.negative then -d.exactAbs else d.exactAbs

theorem cast_unit : (unit : ℚ) = 2 ^ 52 * 2 ^ 1022 := by
  rw [unit, Nat.one_shiftLeft, ← pow_add]
  exact Nat.cast_pow 2 places

theorem cast_hiddenBit : (hiddenBit : ℚ) = 2 ^ 52 := by
  rw [hiddenBit]
  norm_num

theorem exactAbs_eq (d : Binary64) : d.exactAbs = d.magnitude / unit := by
  rw [cast_unit, magnitude, significand, scale, exactAbs]
  by_cases hzero : d.exponentField = 0
  · rw [if_pos hzero, if_pos hzero, hzero, Nat.zero_sub, Nat.pow_zero, Nat.mul_one, zpow_neg,
      ← div_div]
    exact (div_eq_mul_inv _ _).symm
  · have hpow : (2 : ℚ) ^ ((d.exponentField : ℤ) - 1023) =
        2 ^ (d.exponentField - 1) / 2 ^ 1022 := by
      have hexponent : (d.exponentField : ℤ) - 1023 = (d.exponentField - 1 : ℕ) - (1022 : ℕ) := by
        omega
      rw [hexponent, zpow_sub₀ (by norm_num), zpow_natCast, zpow_natCast]
    have htwo : ((2 ^ (d.exponentField - 1) : ℕ) : ℚ) = 2 ^ (d.exponentField - 1) :=
      Nat.cast_pow 2 _
    rw [if_neg hzero, if_neg hzero, hpow, Nat.cast_mul, Nat.cast_add, cast_hiddenBit, htwo]
    field_simp

theorem div_eq_intCast_iff {m u : ℕ} (hu : 0 < u) (k : ℤ) :
    (m : ℚ) / u = k ↔ m % u = 0 ∧ (m : ℤ) / u = k := by
  have hne : (u : ℚ) ≠ 0 := Nat.cast_ne_zero.mpr hu.ne'
  constructor
  · intro hdiv
    have hmul : (m : ℤ) = k * u := by
      rw [div_eq_iff hne] at hdiv
      exact_mod_cast hdiv
    constructor
    · rw [← Int.natCast_inj, Int.natCast_mod, hmul, Int.mul_emod_left]
      rfl
    · rw [hmul, Int.mul_ediv_cancel k (Int.natCast_ne_zero.mpr hu.ne')]
  · rintro ⟨hmod, rfl⟩
    rw [← Int.natCast_div, Int.cast_natCast, Nat.cast_div (Nat.dvd_of_mod_eq_zero hmod) hne]

theorem unit_pos : 0 < unit := by
  rw [unit, Nat.one_shiftLeft]
  exact Nat.two_pow_pos places

-- A double is read as an integer exactly if that integer is its value.
theorem toInt?_eq_some_iff (d : Binary64) (n : ℤ) :
    d.toInt? = some n ↔ d.isFinite ∧ d.exactValue = n := by
  have hvalue : d.exactValue = n ↔ d.magnitude % unit = 0 ∧
      (if d.negative then -((d.magnitude : ℤ) / unit) else (d.magnitude : ℤ) / unit) = n := by
    rw [exactValue, exactAbs_eq]
    cases d.negative with
    | true =>
      rw [if_pos rfl, if_pos rfl, neg_eq_iff_eq_neg, neg_eq_iff_eq_neg, ← Int.cast_neg,
        div_eq_intCast_iff unit_pos]
    | false => exact div_eq_intCast_iff unit_pos n
  rw [hvalue, toInt?, Option.ite_none_right_eq_some, Option.some.injEq, Bool.and_eq_true,
    beq_iff_eq, and_assoc]

end Binary64

end LayeredAnnotations
