import LayeredAnnotations.Proofs.Binary64.ExactValue
import LayeredAnnotations.Proofs.Numeral
import LayeredAnnotations.Value.Reading

namespace LayeredAnnotations

namespace Value

-- Whether a value stands for an integer, however it is stored. An array stands for what its first
-- element does.
def Denotes : Value → Int → Prop
  | .int i, n => i.toInt = n
  | .long l, n => l.toInt = n
  | .double d, n => d.isFinite ∧ d.exactValue = n
  | .string s, n => WritesInt (Text.trimmed s).toList n
  | .array (v :: _), n => v.Denotes n
  | _, _ => False
termination_by structural v => v

-- The integer that a value is read as, before it has to fit into a word.
def integer? (v : Value) : Option Int := v.leading?.bind scalarInt?

theorem integer?_string (s : String) : (string s).integer? = readInt? (Text.trimmed s) := by
  rw [integer?]
  simp only [leading?, Option.bind_some, scalarInt?]

theorem read?_int32_eq (v : Value) : v.read? Int32 = v.integer?.bind int32? := rfl

theorem read?_int64_eq (v : Value) : v.read? Int64 = v.integer?.bind int64? := rfl

-- Of the integers that are not too large for any word, the one that is read is the one meant.
theorem integer?_eq_some_iff (v : Value) {n : Int} (hn : n.natAbs < integerLimit) :
    v.integer? = some n ↔ v.Denotes n := by
  induction v using leading?.induct with
  | case1 v rest ih => exact ih
  | case2 => exact iff_of_false (nomatch ·) id
  | case3 v hcons hnil =>
    cases v with
    | int i => exact Option.some_inj
    | long l => exact Option.some_inj
    | double d => exact d.toInt?_eq_some_iff n
    | string s =>
      rw [integer?_string, readInt?_eq_some_iff, and_iff_left hn]
      exact Iff.rfl
    | array items =>
      cases items with
      | nil => exact (hnil rfl).elim
      | cons v rest => exact (hcons v rest rfl).elim
    | _ => exact iff_of_false (nomatch ·) id

end Value

-- Whatever fits between the limits gets through the check unchanged, and nothing else does.
theorem map_bind_bounded {α : Type} {toInt : α → Int} {ofInt : Int → α} {low high : Int}
    (hofInt : ∀ m, low ≤ m → m < high → toInt (ofInt m) = m) (o : Option Int) (n : Int) :
    (o.bind fun m => if low ≤ m ∧ m < high then some (ofInt m) else none).map toInt = some n ↔
      o = some n ∧ low ≤ n ∧ n < high := by
  cases o with
  | none => exact iff_of_false (nomatch ·) (nomatch ·)
  | some m =>
    rw [Option.bind_some, Option.some_inj]
    split
    · next hm =>
      rw [Option.map_some, Option.some_inj, hofInt m hm.1 hm.2]
      constructor
      · rintro rfl
        exact ⟨rfl, hm⟩
      · exact And.left
    · next hm =>
      refine iff_of_false (nomatch ·) ?_
      rintro ⟨rfl, hn⟩
      exact hm hn

theorem eq_none_iff_of_map {α β : Type} {o : Option α} {f : α → β} {p : β → Prop}
    (h : ∀ b, o.map f = some b ↔ p b) : o = none ↔ ¬∃ b, p b := by
  simp only [← h]
  cases o with
  | none => exact iff_of_true rfl (nomatch ·)
  | some a => exact iff_of_false (nomatch ·) fun hnot => hnot ⟨f a, rfl⟩

namespace Value

section Reading

variable (v : Value) (n : Int)

theorem map_toInt_read?_int64_iff :
    (v.read? Int64).map Int64.toInt = some n ↔ v.Denotes n ∧ -2 ^ 63 ≤ n ∧ n < 2 ^ 63 := by
  rw [read?_int64_eq]
  refine (map_bind_bounded (fun _ => Int64.toInt_ofInt_of_le) v.integer? n).trans ?_
  refine and_congr_left fun hn => integer?_eq_some_iff v ?_
  rw [integerLimit]
  omega

theorem map_toInt_read?_int32_iff :
    (v.read? Int32).map Int32.toInt = some n ↔ v.Denotes n ∧ -2 ^ 31 ≤ n ∧ n < 2 ^ 31 := by
  rw [read?_int32_eq]
  refine (map_bind_bounded (fun _ => Int32.toInt_ofInt_of_le) v.integer? n).trans ?_
  refine and_congr_left fun hn => integer?_eq_some_iff v ?_
  rw [integerLimit]
  omega

end Reading

-- A double of another value than an integer of the word is refused, even next to the limits.
theorem read?_int64_double_iff (d : Binary64) (l : Int64) :
    (double d).read? Int64 = some l ↔ d.isFinite ∧ d.exactValue = l.toInt := by
  have hinj : Function.Injective Int64.toInt := fun _ _ => Int64.toInt_inj.mp
  rw [← (Option.map_injective hinj).eq_iff, Option.map_some, map_toInt_read?_int64_iff]
  exact and_iff_left ⟨l.le_toInt, l.toInt_lt⟩

-- Both limits are doubles. Only the lower one is in the range.
example : (double ⟨0x43E0000000000000⟩).read? Int64 = none := by decide +kernel

example : (double ⟨0xC3E0000000000000⟩).read? Int64 = some (-0x8000000000000000) := by
  decide +kernel

theorem read?_int32_double_iff (d : Binary64) (i : Int32) :
    (double d).read? Int32 = some i ↔ d.isFinite ∧ d.exactValue = i.toInt := by
  have hinj : Function.Injective Int32.toInt := fun _ _ => Int32.toInt_inj.mp
  rw [← (Option.map_injective hinj).eq_iff, Option.map_some, map_toInt_read?_int32_iff]
  exact and_iff_left ⟨i.le_toInt, i.toInt_lt⟩

-- Whether a value and its text are read as the same integers.
def KeepsIntegers (v : Value) : Prop :=
  ∃ text, v.read? String = some text ∧ (string text).read? Int32 = v.read? Int32 ∧
    (string text).read? Int64 = v.read? Int64

theorem keepsIntegers_of_text {v : Value} {n : Int} (hn : n.natAbs < integerLimit)
    (htext : v.read? String = some (intText n)) (hv : v.integer? = some n) : v.KeepsIntegers := by
  have hinteger : (string (intText n)).integer? = v.integer? := by
    rw [integer?_string, readInt?_intText hn, hv]
  refine ⟨intText n, htext, ?_, ?_⟩
  · rw [read?_int32_eq, read?_int32_eq, hinteger]
  · rw [read?_int64_eq, read?_int64_eq, hinteger]

theorem keepsIntegers_int (i : Int32) : (int i).KeepsIntegers := by
  have hle := i.le_toInt
  have hlt := i.toInt_lt
  refine keepsIntegers_of_text ?_ rfl rfl
  rw [integerLimit]
  omega

theorem keepsIntegers_long (l : Int64) : (long l).KeepsIntegers := by
  have hle := l.le_toInt
  have hlt := l.toInt_lt
  refine keepsIntegers_of_text ?_ rfl rfl
  rw [integerLimit]
  omega

-- A value is read as the integer that it stands for if that fits into the word, and not at all
-- otherwise, whichever way the integer is stored.
theorem integers_exact :
    (∀ (v : Value) (n : Int),
      (v.read? Int64).map Int64.toInt = some n ↔ v.Denotes n ∧ -2 ^ 63 ≤ n ∧ n < 2 ^ 63) ∧
    (∀ (v : Value) (n : Int),
      (v.read? Int32).map Int32.toInt = some n ↔ v.Denotes n ∧ -2 ^ 31 ≤ n ∧ n < 2 ^ 31) ∧
    (∀ v : Value, v.read? Int64 = none ↔ ¬∃ n, v.Denotes n ∧ -2 ^ 63 ≤ n ∧ n < 2 ^ 63) ∧
    (∀ v : Value, v.read? Int32 = none ↔ ¬∃ n, v.Denotes n ∧ -2 ^ 31 ≤ n ∧ n < 2 ^ 31) ∧
    (∀ (d : Binary64) (l : Int64),
      (double d).read? Int64 = some l ↔ d.isFinite ∧ d.exactValue = l.toInt) ∧
    (∀ (d : Binary64) (i : Int32),
      (double d).read? Int32 = some i ↔ d.isFinite ∧ d.exactValue = i.toInt) ∧
    (∀ i : Int32, (int i).KeepsIntegers) ∧
    (∀ l : Int64, (long l).KeepsIntegers) :=
  ⟨map_toInt_read?_int64_iff, map_toInt_read?_int32_iff,
    fun v => eq_none_iff_of_map (map_toInt_read?_int64_iff v),
    fun v => eq_none_iff_of_map (map_toInt_read?_int32_iff v),
    read?_int64_double_iff, read?_int32_double_iff, keepsIntegers_int, keepsIntegers_long⟩

end Value

end LayeredAnnotations
