import LayeredAnnotations.Numeral
import LayeredAnnotations.Proofs.Text.Trimming
import Mathlib.Data.Nat.Digits.Defs

namespace LayeredAnnotations

-- ASCII digits, at least one, behind an optional sign, with the integer that they stand for.
inductive WritesInt : List Char → Int → Prop
  | plain {digits : List Char} (hne : digits ≠ []) (hdigits : ∀ c ∈ digits, c.isDigit) :
    WritesInt digits (Nat.ofDigitChars 10 digits 0)
  | plus {digits : List Char} (hne : digits ≠ []) (hdigits : ∀ c ∈ digits, c.isDigit) :
    WritesInt ('+' :: digits) (Nat.ofDigitChars 10 digits 0)
  | minus {digits : List Char} (hne : digits ≠ []) (hdigits : ∀ c ∈ digits, c.isDigit) :
    WritesInt ('-' :: digits) (-Nat.ofDigitChars 10 digits 0)

theorem allDigits_iff (cs : List Char) : allDigits cs ↔ cs ≠ [] ∧ ∀ c ∈ cs, c.isDigit := by
  simp [allDigits]

theorem splitSign_of_isDigit {cs : List Char} (h : ∀ c ∈ cs, c.isDigit) :
    splitSign cs = ([], cs) := by
  fun_cases splitSign cs with
  | case1 => exact absurd (h '-' List.mem_cons_self) (by decide)
  | case2 => exact absurd (h '+' List.mem_cons_self) (by decide)
  | case3 => rfl

-- At most one sign is taken off, so what is behind it has to be digits.
theorem writesInt_iff (cs : List Char) (n : Int) :
    WritesInt cs n ↔
      allDigits (splitSign cs).2 ∧ signed (splitSign cs).1 (digitsValue (splitSign cs).2) = n := by
  rw [allDigits_iff, digitsValue_eq]
  constructor
  · intro h
    cases h with
    | plain hne hdigits =>
      rw [splitSign_of_isDigit hdigits]
      exact ⟨⟨hne, hdigits⟩, rfl⟩
    | plus hne hdigits => exact ⟨⟨hne, hdigits⟩, rfl⟩
    | minus hne hdigits => exact ⟨⟨hne, hdigits⟩, rfl⟩
  · fun_cases splitSign cs with
    | case1 =>
      rintro ⟨⟨hne, hdigits⟩, rfl⟩
      exact .minus hne hdigits
    | case2 =>
      rintro ⟨⟨hne, hdigits⟩, rfl⟩
      exact .plus hne hdigits
    | case3 =>
      rintro ⟨⟨hne, hdigits⟩, rfl⟩
      exact .plain hne hdigits

theorem natAbs_signed (sign : List Char) (n : Nat) : (signed sign n).natAbs = n := by
  rw [signed]
  split
  · rw [Int.natAbs_neg, Int.natAbs_natCast]
  · exact Int.natAbs_natCast n

-- Integers are read up to a size that no word has.
theorem readInt?_eq_some_iff (s : String) (n : Int) :
    readInt? s = some n ↔ WritesInt s.toList n ∧ n.natAbs < integerLimit := by
  rw [readInt?_eq, writesInt_iff]
  simp only [Option.ite_none_right_eq_some, Option.some.injEq]
  constructor
  · rintro ⟨⟨hdigits, hlt⟩, rfl⟩
    exact ⟨⟨hdigits, rfl⟩, by rwa [natAbs_signed]⟩
  · rintro ⟨⟨hdigits, rfl⟩, hlt⟩
    rw [natAbs_signed] at hlt
    exact ⟨⟨hdigits, hlt⟩, rfl⟩

theorem toList_intText (n : Int) :
    (intText n).toList = (if n < 0 then ['-'] else []) ++ Nat.toDigits 10 n.natAbs := by
  rw [intText, String.toList_ofList]
  simp [Numeral.text, Numeral.ofInt]

theorem isDigit_of_mem_toDigits {n : Nat} : ∀ c ∈ Nat.toDigits 10 n, c.isDigit :=
  fun _ hc => Nat.isDigit_of_mem_toDigits (by decide) (by decide) hc

theorem writesInt_intText (n : Int) : WritesInt (intText n).toList n := by
  have hvalue : Nat.ofDigitChars 10 (Nat.toDigits 10 n.natAbs) 0 = n.natAbs :=
    Nat.ofDigitChars_toDigits (by decide) (by decide)
  rw [toList_intText]
  by_cases hneg : n < 0
  · have hn : n = -(Nat.ofDigitChars 10 (Nat.toDigits 10 n.natAbs) 0 : Int) := by omega
    rw [if_pos hneg]
    conv => arg 2; rw [hn]
    exact .minus Nat.toDigits_ne_nil isDigit_of_mem_toDigits
  · have hn : n = Nat.ofDigitChars 10 (Nat.toDigits 10 n.natAbs) 0 := by omega
    rw [if_neg hneg]
    conv => arg 2; rw [hn]
    exact .plain Nat.toDigits_ne_nil isDigit_of_mem_toDigits

theorem isBlank_of_isDigit {c : Char} (h : c.isDigit) : Text.isBlank c = false := by
  obtain ⟨hlow, hhigh⟩ : 48 ≤ c.toNat ∧ c.toNat ≤ 57 := Char.isDigit_iff_toNat.mp h
  exact Text.isBlank_of_visible (by omega) (by omega)

theorem trimmed_intText (n : Int) : Text.trimmed (intText n) = intText n := by
  apply Text.trimmed_of_isTrimmed
  apply Text.isTrimmed_of_forall
  intro c hc
  rw [toList_intText, List.mem_append] at hc
  cases hc with
  | inl hsign =>
    obtain rfl : c = '-' := by
      split at hsign
      · exact List.mem_singleton.mp hsign
      · exact absurd hsign List.not_mem_nil
    rfl
  | inr hdigit => exact isBlank_of_isDigit (isDigit_of_mem_toDigits c hdigit)

theorem readInt?_intText {n : Int} (h : n.natAbs < integerLimit) :
    readInt? (Text.trimmed (intText n)) = some n := by
  rw [trimmed_intText, readInt?_eq_some_iff]
  exact ⟨writesInt_intText n, h⟩

end LayeredAnnotations
