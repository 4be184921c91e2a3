import LayeredAnnotations.Proofs.Level.ExpandedViews
import LayeredAnnotations.Proofs.Placeholder.Reopening
import LayeredAnnotations.Proofs.Value.Texts

namespace LayeredAnnotations

-- Each string of an expanded value is what strict resolution makes of the string in its place.
theorem Value.forall₂_texts_of_expand_strict {properties : Keyed String} {v w : Value}
    (h : v.expand (.ofProperties properties) false = .ok w) :
    List.Forall₂ (fun text s => (Resolver.ofProperties properties).strict text = .ok s)
      v.texts w.texts := by
  rw [expand_strict] at h
  split at h
  · exact nomatch h
  · next hnone =>
    rw [Resolver.find?_unanswered_eq_none_iff] at hnone
    rw [← Except.ok.inj h, texts_mapTexts, List.forall₂_map_right_iff, List.forall₂_same]
    intro text htext
    obtain ⟨s, hs⟩ : ∃ s, (Resolver.ofProperties properties).strict text = .ok s := by
      refine ⟨_, (Resolver.strict_eq_ok_iff properties).mpr ⟨?_, rfl⟩⟩
      intro body hbody
      exact hnone body (List.mem_flatMap.mpr ⟨text, htext, hbody⟩)
    rw [Resolver.lenient_of_strict properties hs, hs]

namespace Resolver

-- Properties whose values have nothing in them that expressions are made of.
def PlainValues (properties : Keyed String) : Prop :=
  ∀ key value, properties.lookup key = some value →
    '$' ∉ value.toList ∧ '{' ∉ value.toList ∧ '}' ∉ value.toList

theorem plainValues_singleton {key value : String}
    (h : '$' ∉ value.toList ∧ '{' ∉ value.toList ∧ '}' ∉ value.toList) :
    PlainValues [(key, value)] := by
  intro key' value' hvalue
  obtain ⟨-, rfl⟩ := Prod.mk.inj (List.mem_singleton.mp (Keyed.mem_of_lookup hvalue))
  exact h

-- An expression in a default: the outer one ends with the inner one.
def nestedDefault : String := "$\x7ba:$\x7bb\x7d\x7d"

theorem parse_nestedDefault :
    Template.parse nestedDefault.toList = ⟨[([], "a:$\x7bb".toList)], ['}']⟩ := by
  have hhole : Template.firstHole? nestedDefault.toList =
      some ([], "a:$\x7bb".toList, ['}']) := rfl
  rw [Template.parse_of_firstHole? hhole, Template.parse_of_firstHole?_eq_none rfl]

theorem strict_nestedDefault :
    (ofProperties [("b", "x")]).strict nestedDefault = .ok "$\x7bb\x7d" := by
  rw [strict_eq_ok_iff, parse_nestedDefault]
  decide

theorem containsPlaceholder_braced_b : containsPlaceholder "$\x7bb\x7d" :=
  (containsPlaceholder_eq _).trans rfl

-- What is left of the inner expression is put together again with the closing brace behind it.
theorem not_forall_containsPlaceholder_strict_eq_false :
    ¬ ∀ properties : Keyed String, PlainValues properties →
      ∀ text s, (ofProperties properties).strict text = .ok s → containsPlaceholder s = false := by
  intro h
  have hnone := h [("b", "x")] (plainValues_singleton (by decide)) nestedDefault _
    strict_nestedDefault
  exact ne_true_of_eq_false hnone containsPlaceholder_braced_b

end Resolver

namespace Level

open Resolver

-- With such properties, strict resolution leaves an expression behind exactly if one comes about
-- where something was replaced. This takes a dollar sign in an expression, or one right in front of
-- an expression. The strings that a strict environment hands out are those that strict resolution
-- gives, as long as the level inside does not hide that there is something to expand.
theorem containsPlaceholder_of_strict_iff {properties : Keyed String}
    (hvalues : PlainValues properties) :
    let resolver := ofProperties properties
    (∀ text s, resolver.strict text = .ok s →
      (containsPlaceholder s ↔ Reopens properties text)) ∧
    (∀ text, (∀ hole ∈ (Template.parse text.toList).holes,
      hole.1.getLast? ≠ some '$' ∧ '$' ∉ hole.2) → ¬ Reopens properties text) ∧
    ∀ (sink : Sink) (inner : Level), inner.Built ∨ inner.answers.ask .hasExpressions →
      ∀ name member w, (expanding ⟨resolver, sink, false⟩ inner).value? name member = some w →
        ∃ raw, inner.value? name member = some raw ∧
          List.Forall₂ (fun text s => resolver.strict text = .ok s ∧
            (containsPlaceholder s ↔ Reopens properties text)) raw.texts w.texts := by
  intro resolver
  have hstrict : ∀ text s, resolver.strict text = .ok s →
      (containsPlaceholder s ↔ Reopens properties text) := fun text s =>
    containsPlaceholder_strict_iff fun key value hvalue => (hvalues key value hvalue).2.2
  refine ⟨hstrict, fun text => not_reopens fun key value hvalue => (hvalues key value hvalue).1, ?_⟩
  intro sink inner hinner name member w hw
  have hplain : inner.answers.ask .hasExpressions = false →
      ∀ v, inner.value? name member = some v → v.hasPlaceholder = false := by
    intro hnone v hv
    rcases hinner with hbuilt | hsome
    · exact hbuilt.plain_of_value? hnone hv
    · exact absurd hsome (ne_true_of_eq_false hnone)
  rw [value?_expanding_eq_bind _ hplain] at hw
  obtain ⟨raw, hraw, hexpanded⟩ := Option.bind_eq_some_iff.mp hw
  refine ⟨raw, hraw, ?_⟩
  cases hexpand : raw.expand resolver false with
  | error failure =>
    rw [hexpand] at hexpanded
    exact nomatch hexpanded
  | ok v =>
    rw [hexpand] at hexpanded
    obtain rfl : v = w := Option.some.inj hexpanded
    exact (Value.forall₂_texts_of_expand_strict hexpand).imp fun text s h => ⟨h, hstrict text s h⟩

theorem containsPlaceholder_of_strict_iff_nestedDefault :
    let properties : Keyed String := [("b", "x")]
    PlainValues properties ∧
      (ofProperties properties).strict nestedDefault = .ok "$\x7bb\x7d" ∧
      containsPlaceholder "$\x7bb\x7d" ∧ Reopens properties nestedDefault := by
  intro properties
  have hvalues : PlainValues properties := plainValues_singleton (by decide)
  obtain ⟨hiff, -, -⟩ := containsPlaceholder_of_strict_iff hvalues
  exact ⟨hvalues, strict_nestedDefault, containsPlaceholder_braced_b,
    (hiff _ _ strict_nestedDefault).mp containsPlaceholder_braced_b⟩

end Level

end LayeredAnnotations
