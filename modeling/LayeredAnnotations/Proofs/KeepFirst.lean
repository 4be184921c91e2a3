import LayeredAnnotations.Level.Layered
import Mathlib.Data.List.Induction

namespace LayeredAnnotations

variable {α : Type}

-- Leaves out what something kept before it is related to.
def keepFirst (r : α → α → Bool) (as : List α) : List α :=
  as.foldl (fun kept a => if kept.any (r · a) then kept else kept ++ [a]) []

theorem orderedUnion_eq (lists : List (List String)) :
    orderedUnion lists = keepFirst (· == ·) lists.flatten := by
  have hcontains : ∀ (names : List String) (name : String),
      names.contains name = names.any (· == name) := by
    intro names name
    rw [List.contains_eq_any_beq]
    simp only [BEq.comm]
  simp only [orderedUnion, keepFirst, hcontains]

theorem Occurrence.distinct_eq (os : List Occurrence) : distinct os = keepFirst (· == ·) os := rfl

section KeepFirst

variable (r : α → α → Bool)

theorem keepFirst_concat_eq (as : List α) (a : α) :
    keepFirst r (as ++ [a]) =
      if (keepFirst r as).any (r · a) then keepFirst r as else keepFirst r as ++ [a] := by
  rw [keepFirst, List.foldl_append, List.foldl_cons, List.foldl_nil]
  rfl

theorem sublist_keepFirst (as : List α) : (keepFirst r as).Sublist as := by
  induction as using List.reverseRecOn with
  | nil => exact .slnil
  | append_singleton as a ih =>
    rw [keepFirst_concat_eq]
    split
    · exact ih.trans (List.sublist_append_left as [a])
    · exact ih.append (.refl [a])

theorem keepFirst_eq_nil_iff (as : List α) : keepFirst r as = [] ↔ as = [] := by
  induction as using List.reverseRecOn with
  | nil => exact Iff.rfl
  | append_singleton as a ih =>
    rw [keepFirst_concat_eq]
    split
    · next hany =>
      -- what keeps `a` out is itself there
      obtain ⟨b, hb, -⟩ := List.any_eq_true.mp hany
      simp [List.ne_nil_of_mem hb]
    · simp

theorem pairwise_keepFirst (as : List α) : (keepFirst r as).Pairwise fun a b => r a b = false := by
  induction as using List.reverseRecOn with
  | nil => exact .nil
  | append_singleton as a ih =>
    rw [keepFirst_concat_eq]
    split
    · exact ih
    · next hnone =>
      refine List.pairwise_append.mpr ⟨ih, List.pairwise_singleton _ a, ?_⟩
      intro b hb c hc
      rw [List.mem_singleton.mp hc]
      exact Bool.eq_false_iff.mpr fun hba => hnone (List.any_eq_true.mpr ⟨b, hb, hba⟩)

theorem keepFirst_congr {r r' : α → α → Bool} {as : List α}
    (h : ∀ a ∈ as, ∀ b ∈ as, r a b = r' a b) : keepFirst r as = keepFirst r' as := by
  induction as using List.reverseRecOn with
  | nil => rfl
  | append_singleton as a ih =>
    have hbefore := ih fun b hb c hc =>
      h b (List.mem_append_left [a] hb) c (List.mem_append_left [a] hc)
    have hany : (keepFirst r' as).any (r · a) = (keepFirst r' as).any (r' · a) := by
      rw [Bool.eq_iff_iff, List.any_eq_true, List.any_eq_true]
      refine exists_congr fun b => and_congr_right fun hb => ?_
      rw [h b (List.mem_append_left [a] ((sublist_keepFirst r' as).mem hb)) a (by simp)]
    rw [keepFirst_concat_eq, keepFirst_concat_eq, hbefore, hany]

end KeepFirst

section Transitive

variable {r : α → α → Bool} (htrans : ∀ a b c, r a b → r b c → r a c)

include htrans

theorem find?_keepFirst (as : List α) (v : α) :
    (keepFirst r as).find? (r · v) = as.find? (r · v) := by
  induction as using List.reverseRecOn with
  | nil => rfl
  | append_singleton as a ih =>
    rw [keepFirst_concat_eq]
    split
    · next hsome =>
      obtain ⟨b, hb, hba⟩ := List.any_eq_true.mp hsome
      rw [List.find?_append, ← ih]
      cases hv : r a v with
      | false => simp [hv]
      | true =>
        -- `b`, which `a` is left out for, is related to `v` too and has been kept before
        have hfound : ((keepFirst r as).find? (r · v)).isSome :=
          List.find?_isSome.mpr ⟨b, hb, htrans b a v hba hv⟩
        rw [Option.or_of_isSome hfound]
    · rw [List.find?_append, List.find?_append, ih]

theorem any_keepFirst (as : List α) (v : α) : (keepFirst r as).any (r · v) = as.any (r · v) := by
  rw [Bool.eq_iff_iff, List.any_eq_true, List.any_eq_true, ← List.find?_isSome,
    find?_keepFirst htrans, List.find?_isSome]

theorem keepFirst_concat (as : List α) (a : α) :
    keepFirst r (as ++ [a]) =
      if as.any (r · a) then keepFirst r as else keepFirst r as ++ [a] := by
  rw [keepFirst_concat_eq, any_keepFirst htrans]

-- Kept are those that nothing in front of them is related to, in their order.
theorem keepFirst_eq_filter (as : List α) :
    keepFirst r as =
      (as.zipIdx.filter fun place => !(as.take place.2).any (r · place.1)).map (·.1) := by
  induction as using List.reverseRecOn with
  | nil => rfl
  | append_singleton as a ih =>
    have hbefore :
        (as.zipIdx.filter fun place => !((as ++ [a]).take place.2).any (r · place.1)) =
          as.zipIdx.filter fun place => !(as.take place.2).any (r · place.1) := by
      apply List.filter_congr
      intro place hplace
      have hlt : place.2 < as.length := List.snd_lt_of_mem_zipIdx hplace
      rw [List.take_append_of_le_length (Nat.le_of_lt hlt)]
    rw [keepFirst_concat htrans, List.zipIdx_append, List.filter_append, hbefore, List.map_append,
      ← ih]
    simp only [List.zipIdx_singleton, List.filter_cons, List.filter_nil, List.take_append]
    cases h : as.any (r · a) <;> simp [h]

theorem keepFirst_append_keepFirst (as bs : List α) :
    keepFirst r (as ++ keepFirst r bs) = keepFirst r (as ++ bs) := by
  induction bs using List.reverseRecOn with
  | nil => rfl
  | append_singleton bs b ih =>
    rw [← List.append_assoc, keepFirst_concat htrans bs, keepFirst_concat htrans (as ++ bs),
      List.any_append]
    by_cases hbs : bs.any (r · b)
    · rw [if_pos hbs, if_pos (by simp [hbs]), ih]
    · rw [if_neg hbs, ← List.append_assoc, keepFirst_concat htrans, List.any_append,
        any_keepFirst htrans, ih]

theorem keepFirst_keepFirst_append (as bs : List α) :
    keepFirst r (keepFirst r as ++ bs) = keepFirst r (as ++ bs) := by
  induction bs using List.reverseRecOn with
  | nil =>
    rw [List.append_nil, List.append_nil]
    exact keepFirst_append_keepFirst htrans [] as
  | append_singleton bs b ih =>
    rw [← List.append_assoc, ← List.append_assoc, keepFirst_concat htrans, keepFirst_concat htrans,
      ih]
    simp only [List.any_append, any_keepFirst htrans]

theorem keepFirst_append (as bs : List α) :
    keepFirst r (as ++ bs) = keepFirst r (keepFirst r as ++ keepFirst r bs) := by
  rw [keepFirst_append_keepFirst htrans, keepFirst_keepFirst_append htrans]

theorem keepFirst_keepFirst (as : List α) : keepFirst r (keepFirst r as) = keepFirst r as :=
  keepFirst_append_keepFirst htrans [] as

end Transitive

end LayeredAnnotations
