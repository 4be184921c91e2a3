import LayeredAnnotations.Placeholder.Template

namespace LayeredAnnotations

namespace Template

-- Whether `before` is the text up to the first opening of an expression, and `after` what follows it.
def OpensFirst (before after : List Char) : Prop :=
  ∀ u v, before ++ '$' :: '{' :: after = u ++ '$' :: '{' :: v → before.length ≤ u.length

-- What a text is cut into at its expressions. In front of each stands the text up to the first
-- opening behind the expression before it, and each ends at the first closing brace. No opening
-- in the tail has a closing brace behind it.
inductive Cuts : List Char → Template → Prop
  | tail {cs : List Char} (htail : ∀ u v, cs = u ++ '$' :: '{' :: v → '}' ∉ v) : Cuts cs ⟨[], cs⟩
  | hole {before body rest : List Char} {t : Template}
      (hfirst : OpensFirst before (body ++ '}' :: rest)) (hbody : '}' ∉ body) (hrest : Cuts rest t) :
      Cuts (before ++ '$' :: '{' :: (body ++ '}' :: rest)) ⟨(before, body) :: t.holes, t.tail⟩

-- The text with something in the place of each expression.
def interpolate (t : Template) (f : List Char → List Char) : List Char :=
  (t.holes.flatMap fun (before, body) => before ++ f body) ++ t.tail

-- An expression as it is written, with its braces.
def braced (body : List Char) : List Char := '$' :: '{' :: (body ++ ['}'])

theorem toList_written (body : List Char) : (written body).toList = braced body := by
  simp [written, braced]

theorem splitClose?_eq_some_iff {cs body rest : List Char} :
    splitClose? cs = some (body, rest) ↔ cs = body ++ '}' :: rest ∧ '}' ∉ body := by
  induction cs generalizing body with
  | nil => simp [splitClose?]
  | cons c cs ih =>
    rw [splitClose?]
    by_cases hc : c = '}'
    · subst hc
      cases body with
      | nil => simp [eq_comm]
      | cons b body => simp +contextual [eq_comm]
    · rw [if_neg hc]
      cases body with
      | nil => simp [hc]
      | cons b body =>
        simp only [Option.map_eq_some_iff, Prod.exists, Prod.mk.injEq, List.cons_append,
          List.cons.injEq, List.mem_cons, not_or]
        constructor
        · rintro ⟨body', rest', hsplit, ⟨rfl, rfl⟩, rfl⟩
          obtain ⟨hcs, hbody⟩ := ih.mp hsplit
          exact ⟨⟨rfl, hcs⟩, Ne.symm hc, hbody⟩
        · rintro ⟨⟨rfl, hcs⟩, -, hbody⟩
          exact ⟨body, rest, ih.mpr ⟨hcs, hbody⟩, ⟨rfl, rfl⟩, rfl⟩

theorem splitClose?_eq_none_iff {cs : List Char} : splitClose? cs = none ↔ '}' ∉ cs := by
  induction cs with
  | nil => simp [splitClose?]
  | cons c cs ih =>
    rw [splitClose?]
    by_cases hc : c = '}'
    · simp [hc]
    · simp [hc, Ne.symm hc, ih]

theorem opensFirst_nil (after : List Char) : OpensFirst [] after := fun _ _ _ => Nat.zero_le _

-- One character more in front is right if no opening stands there.
theorem OpensFirst.cons {c : Char} {before after : List Char} (h : OpensFirst before after)
    (hc : ∀ v, c :: (before ++ '$' :: '{' :: after) ≠ '$' :: '{' :: v) :
    OpensFirst (c :: before) after := by
  intro u v heq
  cases u with
  | nil => exact absurd heq (hc v)
  | cons d u => exact Nat.succ_le_succ (h u v (List.cons.inj heq).2)

theorem OpensFirst.of_cons {c : Char} {before after : List Char}
    (h : OpensFirst (c :: before) after) : OpensFirst before after := by
  intro u v heq
  exact Nat.le_of_succ_le_succ (h (c :: u) v (congrArg (c :: ·) heq))

-- Up to the first opening there is none.
theorem OpensFirst.ne_append {before after : List Char} (h : OpensFirst before after)
    (u v : List Char) : before ≠ u ++ '$' :: '{' :: v := by
  intro heq
  have hlength := h u (v ++ '$' :: '{' :: after) (by simp [heq])
  simp only [heq, List.length_append, List.length_cons] at hlength
  omega

theorem firstHole?_eq_some_iff {cs before body rest : List Char} :
    firstHole? cs = some (before, body, rest) ↔
      cs = before ++ '$' :: '{' :: (body ++ '}' :: rest) ∧ '}' ∉ body ∧
        OpensFirst before (body ++ '}' :: rest) := by
  fun_induction firstHole? cs generalizing before with
  | case1 cs =>
    simp only [Option.map_eq_some_iff, Prod.exists, Prod.mk.injEq]
    constructor
    · rintro ⟨body', rest', hsplit, rfl, rfl, rfl⟩
      obtain ⟨rfl, hbody⟩ := splitClose?_eq_some_iff.mp hsplit
      exact ⟨rfl, hbody, opensFirst_nil _⟩
    · rintro ⟨hcs, hbody, hfirst⟩
      -- an opening at the very start is the first one
      obtain rfl : before = [] := List.length_eq_zero_iff.mp (Nat.le_zero.mp (hfirst [] cs hcs.symm))
      simp only [List.nil_append, List.cons.injEq, true_and] at hcs
      exact ⟨body, rest, splitClose?_eq_some_iff.mpr ⟨hcs, hbody⟩, rfl, rfl, rfl⟩
  | case2 => simp
  | case3 c cs hno ih =>
    simp only [Option.map_eq_some_iff, Prod.exists, Prod.mk.injEq]
    constructor
    · rintro ⟨before', body', rest', hfound, rfl, rfl, rfl⟩
      obtain ⟨rfl, hbody, hfirst⟩ := ih.mp hfound
      refine ⟨rfl, hbody, hfirst.cons ?_⟩
      intro v heq
      obtain ⟨hdollar, hbrace⟩ := List.cons.inj heq
      exact hno v hdollar hbrace
    · rintro ⟨hcs, hbody, hfirst⟩
      cases before with
      | nil =>
        obtain ⟨hdollar, hbrace⟩ := List.cons.inj hcs
        exact absurd hbrace (hno _ hdollar)
      | cons b before =>
        obtain ⟨rfl, hrest⟩ := List.cons.inj hcs
        exact ⟨before, body, rest, ih.mpr ⟨hrest, hbody, hfirst.of_cons⟩, rfl, rfl, rfl⟩

theorem firstHole?_eq_none_iff {cs : List Char} :
    firstHole? cs = none ↔ ∀ u v, cs = u ++ '$' :: '{' :: v → '}' ∉ v := by
  fun_induction firstHole? cs with
  | case1 cs =>
    rw [Option.map_eq_none_iff, splitClose?_eq_none_iff]
    constructor
    · intro hcs u v heq hv
      have hmem : '}' ∈ '$' :: '{' :: cs := heq ▸ by simp [hv]
      simp [hcs] at hmem
    · intro h
      exact h [] cs rfl
  | case2 => simp
  | case3 c cs hno ih =>
    rw [Option.map_eq_none_iff, ih]
    constructor
    · intro h u v heq
      cases u with
      | nil =>
        obtain ⟨hdollar, hbrace⟩ := List.cons.inj heq
        exact absurd hbrace (hno v hdollar)
      | cons d u => exact h u v (List.cons.inj heq).2
    · intro h u v heq
      exact h (c :: u) v (congrArg (c :: ·) heq)

theorem cuts_parse (cs : List Char) : Cuts cs (parse cs) := by
  induction cs using parse.induct with
  | case1 cs hnone =>
    rw [parse_of_firstHole?_eq_none hnone]
    exact .tail (firstHole?_eq_none_iff.mp hnone)
  | case2 cs before body rest hsome _ ih =>
    obtain ⟨rfl, hbody, hfirst⟩ := firstHole?_eq_some_iff.mp hsome
    rw [parse_of_firstHole? hsome]
    exact .hole hfirst hbody ih

-- There is only one way to cut a text.
theorem cuts_iff {cs : List Char} {t : Template} : Cuts cs t ↔ t = parse cs := by
  constructor
  · intro h
    induction h with
    | tail htail => exact (parse_of_firstHole?_eq_none (firstHole?_eq_none_iff.mpr htail)).symm
    | hole hfirst hbody hrest ih =>
      rw [parse_of_firstHole? (firstHole?_eq_some_iff.mpr ⟨rfl, hbody, hfirst⟩), ← ih]
  · rintro rfl
    exact cuts_parse cs

theorem interpolate_cons (before body tail : List Char) (holes : List (List Char × List Char))
    (f : List Char → List Char) :
    interpolate ⟨(before, body) :: holes, tail⟩ f =
      before ++ (f body ++ interpolate ⟨holes, tail⟩ f) := by
  simp [interpolate]

theorem Cuts.interpolate_braced {cs : List Char} {t : Template} (h : Cuts cs t) :
    t.interpolate braced = cs := by
  induction h with
  | tail htail => rfl
  | @hole before body rest t hfirst hbody hrest ih =>
    rw [interpolate_cons, show interpolate ⟨t.holes, t.tail⟩ braced = rest from ih, braced]
    simp

theorem containsPlaceholder_iff {s : String} :
    containsPlaceholder s ↔ (parse s.toList).holes ≠ [] := by
  rw [containsPlaceholder_eq]
  cases h : firstHole? s.toList with
  | none => simp [parse_of_firstHole?_eq_none h]
  | some hole =>
    obtain ⟨before, body, rest⟩ := hole
    simp [parse_of_firstHole? h]

end Template

end LayeredAnnotations
