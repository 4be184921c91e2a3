import LayeredAnnotations.Proofs.Placeholder.Resolution
import Mathlib.Data.List.Induction

namespace LayeredAnnotations

namespace Template

-- Whether an opening comes about by what is put in the place of some expression: it can be cut, at an
-- end or in between, so that all that is in front ends in a dollar sign and all that is behind begins
-- with a brace, and the text after it has a closing brace.
def Reopens (t : Template) (f : List Char → List Char) : Prop :=
  ∃ front before body back d e, t.holes = front ++ (before, body) :: back ∧ f body = d ++ e ∧
    (interpolate ⟨front, before⟩ f ++ d).getLast? = some '$' ∧
    (e ++ interpolate ⟨back, t.tail⟩ f).head? = some '{' ∧ '}' ∈ interpolate ⟨back, t.tail⟩ f

theorem isSome_firstHole?_iff {cs : List Char} :
    (firstHole? cs).isSome ↔ ∃ u v, cs = u ++ '$' :: '{' :: v ∧ '}' ∈ v := by
  rw [← Option.ne_none_iff_isSome, ne_eq, firstHole?_eq_none_iff]
  push Not
  rfl

theorem interpolate_split (front back : List (List Char × List Char))
    (before body tail : List Char) (f : List Char → List Char) :
    interpolate ⟨front ++ (before, body) :: back, tail⟩ f =
      interpolate ⟨front, before⟩ f ++ (f body ++ interpolate ⟨back, tail⟩ f) := by
  simp [interpolate]

theorem isSome_firstHole?_of_reopens {t : Template} {f : List Char → List Char}
    (h : t.Reopens f) : (firstHole? (t.interpolate f)).isSome := by
  obtain ⟨front, before, body, back, d, e, hholes, hbody, hdollar, hbrace, hclose⟩ := h
  obtain ⟨x, hx⟩ := List.getLast?_eq_some_iff.mp hdollar
  obtain ⟨y, hy⟩ := List.head?_eq_some_iff.mp hbrace
  have hwhole : t.interpolate f = x ++ '$' :: '{' :: y :=
    calc t.interpolate f
      _ = interpolate ⟨front, before⟩ f ++ (f body ++ interpolate ⟨back, t.tail⟩ f) := by
        rw [← interpolate_split, ← hholes]
      _ = (interpolate ⟨front, before⟩ f ++ d) ++ (e ++ interpolate ⟨back, t.tail⟩ f) := by
        rw [hbody]
        simp only [List.append_assoc]
      _ = x ++ '$' :: '{' :: y := by
        rw [hx, hy, List.append_assoc]
        rfl
  refine isSome_firstHole?_iff.mpr ⟨x, y, hwhole, ?_⟩
  have hmem : '}' ∈ '{' :: y := hy ▸ List.mem_append_right e hclose
  simpa using hmem

-- The opening may also be further behind.
theorem Reopens.cons {t : Template} {f : List Char → List Char} (h : t.Reopens f)
    (before body : List Char) : Reopens ⟨(before, body) :: t.holes, t.tail⟩ f := by
  obtain ⟨front, before', body', back, d, e, hholes, hbody, hdollar, hbrace, hclose⟩ := h
  refine ⟨(before, body) :: front, before', body', back, d, e, by simp [hholes], hbody, ?_, hbrace,
    hclose⟩
  rw [interpolate_cons, List.append_assoc, List.append_assoc, List.getLast?_append,
    List.getLast?_append, hdollar]
  rfl

theorem reopens_of_split {t : Template} {f : List Char → List Char} {before body d e : List Char}
    (hsplit : f body = d ++ e) (hbody : '}' ∉ f body) {u v : List Char}
    (hu : u ++ ['$'] = before ++ d) (hv : '{' :: v = e ++ t.interpolate f) (hclose : '}' ∈ v) :
    Reopens ⟨(before, body) :: t.holes, t.tail⟩ f := by
  have he : '}' ∉ e := fun hmem => hbody (hsplit ▸ List.mem_append_right d hmem)
  have hmem : '}' ∈ e ++ t.interpolate f := hv ▸ List.mem_cons_of_mem '{' hclose
  refine ⟨[], before, body, t.holes, d, e, rfl, hsplit, ?_, ?_,
    (List.mem_append.mp hmem).resolve_left he⟩
  · rw [show interpolate ⟨[], before⟩ f = before from rfl, ← hu, List.getLast?_concat]
  · rw [show interpolate ⟨t.holes, t.tail⟩ f = t.interpolate f from rfl, ← hv, List.head?_cons]

-- Literal text has no closed opening of its own, and what is put in has no closing brace, so that a
-- closed opening must have come about where something was put in.
theorem reopens_of_isSome_firstHole? {cs : List Char} {t : Template} (h : Cuts cs t)
    {f : List Char → List Char} (hf : ∀ hole ∈ t.holes, '}' ∉ f hole.2)
    (hsome : (firstHole? (t.interpolate f)).isSome) : t.Reopens f := by
  induction h with
  | @tail cs htail =>
    rw [show interpolate ⟨[], cs⟩ f = cs from rfl, firstHole?_eq_none_iff.mpr htail] at hsome
    exact nomatch hsome
  | @hole before body rest t hfirst hbody hrest ih =>
    obtain ⟨hfbody, hfrest⟩ := List.forall_mem_cons.mp hf
    obtain ⟨u, v, heq, hclose⟩ := isSome_firstHole?_iff.mp hsome
    rw [interpolate_cons, List.append_cons] at heq
    -- the cases are where the cut between the dollar sign and the brace is
    rcases List.append_eq_append_iff.mp heq with ⟨c, hu, hv⟩ | ⟨b, hbefore, hv⟩
    · rcases List.append_eq_append_iff.mp hv with ⟨c', rfl, hrest⟩ | ⟨e, hsplit, hv⟩
      · cases c' using List.reverseRecOn with
        | nil =>
          rw [List.append_nil] at hu
          exact reopens_of_split (List.append_nil _).symm hfbody hu hrest.symm hclose
        | append_singleton u' last =>
          have hlast : '$' = last := by
            simpa using congrArg List.getLast? hu
          subst hlast
          have hbehind : (firstHole? (t.interpolate f)).isSome :=
            isSome_firstHole?_iff.mpr ⟨u', v, by simpa using hrest, hclose⟩
          exact (ih hfrest hbehind).cons before body
      · exact reopens_of_split hsplit hfbody hu hv hclose
    · cases b with
      | nil =>
        have hu : u ++ ['$'] = before ++ [] := by rw [hbefore, List.append_nil, List.append_nil]
        exact reopens_of_split (List.nil_append _).symm hfbody hu hv hclose
      | cons brace b =>
        obtain ⟨rfl, -⟩ := List.cons.inj hv
        rw [List.append_assoc, List.singleton_append] at hbefore
        exact absurd hbefore (hfirst.ne_append u b)

-- Nothing that ends in a dollar sign comes out of literal texts that do not, and of replacements that
-- have none.
theorem getLast?_interpolate_append_ne {f : List Char → List Char}
    {holes : List (List Char × List Char)} {tail rest : List Char}
    (h : ∀ hole ∈ holes, hole.1.getLast? ≠ some '$' ∧ '$' ∉ f hole.2)
    (htail : (tail ++ rest).getLast? ≠ some '$') :
    (interpolate ⟨holes, tail⟩ f ++ rest).getLast? ≠ some '$' := by
  induction holes with
  | nil => exact htail
  | cons hole holes ih =>
    obtain ⟨⟨hbefore, hbody⟩, hholes⟩ := List.forall_mem_cons.mp h
    rw [interpolate_cons, List.append_assoc, List.append_assoc, List.getLast?_append,
      List.getLast?_append]
    intro hlast
    rcases Option.or_eq_some_iff.mp hlast with hlast | ⟨-, hlast⟩
    · rcases Option.or_eq_some_iff.mp hlast with hlast | ⟨-, hlast⟩
      · exact ih hholes hlast
      · exact hbody (List.mem_of_getLast? hlast)
    · exact hbefore hlast

theorem not_reopens {t : Template} {f : List Char → List Char}
    (h : ∀ hole ∈ t.holes, hole.1.getLast? ≠ some '$' ∧ '$' ∉ f hole.2) : ¬ t.Reopens f := by
  rintro ⟨front, before, body, back, d, e, hholes, hbody, hdollar, -, -⟩
  rw [hholes, List.forall_mem_append, List.forall_mem_cons] at h
  obtain ⟨hfront, ⟨hbefore, hnone⟩, -⟩ := h
  refine getLast?_interpolate_append_ne hfront ?_ hdollar
  rw [List.getLast?_append]
  intro hlast
  rcases Option.or_eq_some_iff.mp hlast with hlast | ⟨-, hlast⟩
  · exact hnone (hbody ▸ List.mem_append_left e (List.mem_of_getLast? hlast))
  · exact hbefore hlast

end Template

namespace Resolver

open Template

variable {properties : Keyed String}

-- Whether an opening comes about where strict resolution replaces the expressions in a text.
def Reopens (properties : Keyed String) (text : String) : Prop :=
  (parse text.toList).Reopens fun body => ((answer? properties body).getD "").toList

-- What an expression stands for is a property or a part of it.
theorem notMem_answer? {c : Char}
    (hvalues : ∀ key value, properties.lookup key = some value → c ∉ value.toList)
    {body : List Char} (hbody : c ∉ body) : c ∉ ((answer? properties body).getD "").toList := by
  have hanswer : ∀ s, answer? properties body = some s → c ∉ s.toList := by
    intro s hs
    by_cases hcolon : ':' ∈ body
    · obtain ⟨key, default, rfl, hkey⟩ := List.eq_append_cons_of_mem hcolon
      rw [answer?_append properties hkey, Option.or_eq_some_iff] at hs
      rcases hs with hvalue | ⟨-, hdefault⟩
      · exact hvalues _ s hvalue
      · obtain rfl := Option.some.inj hdefault
        rw [String.toList_ofList]
        intro hmem
        exact hbody (List.mem_append_right key (List.mem_cons_of_mem ':' hmem))
    · rw [answer?_of_notMem properties hcolon] at hs
      exact hvalues _ s hs
  cases hs : answer? properties body with
  | none => simp
  | some s => exact hanswer s hs

theorem containsPlaceholder_strict_iff
    (hvalues : ∀ key value, properties.lookup key = some value → '}' ∉ value.toList)
    {text s : String} (h : (ofProperties properties).strict text = .ok s) :
    containsPlaceholder s ↔ Reopens properties text := by
  obtain ⟨-, rfl⟩ := (strict_eq_ok_iff properties).mp h
  have hcuts := cuts_parse text.toList
  rw [containsPlaceholder_eq, render_eq, String.toList_ofList]
  refine ⟨reopens_of_isSome_firstHole? hcuts ?_, isSome_firstHole?_of_reopens⟩
  intro hole hhole
  exact notMem_answer? hvalues (hcuts.notMem_expression hole.2 (List.mem_map_of_mem hhole))

theorem not_reopens
    (hvalues : ∀ key value, properties.lookup key = some value → '$' ∉ value.toList) {text : String}
    (h : ∀ hole ∈ (parse text.toList).holes, hole.1.getLast? ≠ some '$' ∧ '$' ∉ hole.2) :
    ¬ Reopens properties text := by
  apply Template.not_reopens
  intro hole hhole
  exact ⟨(h hole hhole).1, notMem_answer? hvalues (h hole hhole).2⟩

end Resolver

end LayeredAnnotations
