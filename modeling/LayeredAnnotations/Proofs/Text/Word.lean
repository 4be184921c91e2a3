import LayeredAnnotations.Text.Word
import Mathlib.Data.List.Chain

namespace LayeredAnnotations.Text

-- Whether a range holds a code point.
def Holds (range : Nat × Nat) (n : Nat) : Prop := range.1 ≤ n ∧ n ≤ range.2

-- Whether a range ends before another begins, and neither is empty.
def Precedes (a b : Nat × Nat) : Prop := a.1 ≤ a.2 ∧ a.2 < b.1 ∧ b.1 ≤ b.2

instance : DecidableRel Precedes := fun _ _ => inferInstanceAs (Decidable (_ ∧ _))

instance : IsTrans (Nat × Nat) Precedes :=
  ⟨fun _ _ _ hab hbc => ⟨hab.1, hab.2.1.trans (hbc.1.trans_lt hbc.2.1), hbc.2.2⟩⟩

theorem pairwise_wordRanges : wordRanges.Pairwise Precedes :=
  List.isChain_iff_pairwise.mp (by decide +kernel)

section Search

variable {ranges : Array (Nat × Nat)} {n : Nat} (hranges : ranges.toList.Pairwise Precedes)

include hranges

theorem precedes_getElem {i j : Nat} (hj : j < ranges.size) (hij : i < j) :
    Precedes ranges[i] ranges[j] :=
  List.pairwise_iff_getElem.mp hranges i j (hij.trans hj) hj hij

-- What ends before a code point has only such ranges in front of it.
theorem end_lt_of_le {i m : Nat} (hm : m < ranges.size) (hend : ranges[m].2 < n) (him : i ≤ m) :
    ranges[i].2 < n := by
  obtain rfl | him := Nat.eq_or_lt_of_le him
  · exact hend
  · obtain ⟨-, hbefore, hle⟩ := precedes_getElem hranges hm him
    omega

-- What begins behind a code point has only such ranges behind it.
theorem lt_begin_of_le {i m : Nat} (hi : i < ranges.size) (hmi : m ≤ i) (hbegin : n < ranges[m].1) :
    n < ranges[i].1 := by
  obtain rfl | hmi := Nat.eq_or_lt_of_le hmi
  · exact hbegin
  · obtain ⟨hle, hbefore, -⟩ := precedes_getElem hranges hi hmi
    omega

-- The ranges in front of `lo` end before the code point and those behind `hi` begin behind it. Both
-- stay so while the search closes in.
theorem binSearchAux_iff (lo : Fin (ranges.size + 1)) (hi : Fin ranges.size) (h : lo.val ≤ hi.val)
    (hbelow : ∀ i, (hi : i < ranges.size) → i < lo.val → ranges[i].2 < n)
    (habove : ∀ i, (hi' : i < ranges.size) → hi.val < i → n < ranges[i].1) :
    Array.binSearchAux (fun a b => a.2 < b.1) Option.isSome ranges (n, n) lo hi h ↔
      ∃ range ∈ ranges, Holds range n := by
  fun_induction Array.binSearchAux with
  | case1 lo hi h m a hlt hle _ ih =>
    have hend : ranges[m].2 < n := of_decide_eq_true hlt
    exact ih (fun i hi him => end_lt_of_le hranges _ hend (Nat.le_of_lt_succ him)) habove
  | case2 lo hi h m a hlt hle =>
    have hend : ranges[m].2 < n := of_decide_eq_true hlt
    apply iff_of_false Bool.false_ne_true
    rintro ⟨range, hmem, hbegin, hn⟩
    obtain ⟨i, hi, rfl⟩ := Array.mem_iff_getElem.mp hmem
    by_cases him : i ≤ m
    · exact absurd (end_lt_of_le hranges _ hend him) (by omega)
    · exact absurd (habove i hi (by omega)) (by omega)
  | case3 lo hi h m a hlt hgt hle =>
    have hbegin : n < ranges[m].1 := of_decide_eq_true hgt
    apply iff_of_false Bool.false_ne_true
    rintro ⟨range, hmem, hn, hend⟩
    obtain ⟨i, hi, rfl⟩ := Array.mem_iff_getElem.mp hmem
    by_cases him : m ≤ i
    · exact absurd (lt_begin_of_le hranges hi him hbegin) (by omega)
    · exact absurd (hbelow i hi (by omega)) (by omega)
  | case4 lo hi h m a hlt hgt hle _ ih =>
    have hbegin : n < ranges[m].1 := of_decide_eq_true hgt
    exact ih hbelow fun i hi him => lt_begin_of_le hranges hi (Nat.le_of_pred_lt him) hbegin
  | case5 lo hi h m a hlt hgt =>
    have hm : m < ranges.size := by omega
    have hend : ¬ranges[m].2 < n := of_decide_eq_false (eq_false_of_ne_true hlt)
    have hbegin : ¬n < ranges[m].1 := of_decide_eq_false (eq_false_of_ne_true hgt)
    exact iff_of_true rfl
      ⟨ranges[m], Array.getElem_mem hm, Nat.not_lt.mp hbegin, Nat.not_lt.mp hend⟩

theorem binSearchContains_iff :
    ranges.binSearchContains (n, n) (fun a b => a.2 < b.1) ↔ ∃ range ∈ ranges, Holds range n := by
  rw [Array.binSearchContains]
  by_cases hsize : 0 < ranges.size
  · simp only [dif_pos hsize, ite_self, dif_pos (Nat.zero_le _)]
    apply binSearchAux_iff hranges
    · exact fun i _ hi => absurd hi (Nat.not_lt_zero i)
    · exact fun i hi hlast => absurd hi (Nat.not_lt.mpr (Nat.le_of_pred_lt hlast))
  · rw [dif_neg hsize]
    exact iff_of_false Bool.false_ne_true fun ⟨_, hmem, _⟩ => hsize (Array.size_pos_of_mem hmem)

end Search

-- The search finds what the table holds.
theorem isInTable_iff (n : Nat) : isInTable n ↔ ∃ range ∈ wordRanges, Holds range n := by
  have hsorted : wordTable.toList.Pairwise Precedes := by
    rw [wordTable, List.toList_toArray]
    exact pairwise_wordRanges
  rw [isInTable, binSearchContains_iff hsorted, wordTable]
  simp only [List.mem_toArray]

-- The characters of words: those of ASCII words and those in the table.
def IsWordCharacter (c : Char) : Prop :=
  c.isAlphanum ∨ c = '_' ∨ ∃ range ∈ wordRanges, Holds range c.toNat

theorem isWord_iff (c : Char) : isWord c ↔ IsWordCharacter c := by
  -- the table has nothing of ASCII
  have hascii : ∀ range ∈ wordRanges, 128 ≤ range.1 := by decide +kernel
  have hge : (∃ range ∈ wordRanges, Holds range c.toNat) → 128 ≤ c.toNat :=
    fun ⟨range, hmem, hbegin, _⟩ => (hascii range hmem).trans hbegin
  rw [isWord, Bool.or_eq_true, Bool.or_eq_true, Bool.and_eq_true, beq_iff_eq, decide_eq_true_eq,
    isInTable_iff, and_iff_right_of_imp hge, or_assoc]
  exact Iff.rfl

end LayeredAnnotations.Text
