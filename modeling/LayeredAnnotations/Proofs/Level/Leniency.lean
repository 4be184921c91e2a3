import LayeredAnnotations.Proofs.Level.Wrapping
import LayeredAnnotations.Proofs.Value.Texts

namespace LayeredAnnotations

namespace Value

theorem expand_strict_eq_error_iff (properties : Keyed String) (v : Value) (failure : Failure) :
    v.expand (.ofProperties properties) false = .error failure ↔
      ∃ body, (v.expressions.find? fun body => (Resolver.answer? properties body).isNone) =
        some body ∧ failure = .unresolvable (Template.written body) := by
  rw [expand_strict]
  split
  · next body hbody => simp [hbody, eq_comm]
  · next hnone => simp [hnone]

theorem exists_expand_strict_eq_error_iff (properties : Keyed String) (v : Value) :
    (∃ failure, v.expand (.ofProperties properties) false = .error failure) ↔
      ∃ text ∈ v.texts, ∃ body ∈ (Template.parse text.toList).expressions,
        Resolver.answer? properties body = none := by
  constructor
  · rintro ⟨failure, h⟩
    obtain ⟨body, hfirst, -⟩ := (v.expand_strict_eq_error_iff properties failure).mp h
    obtain ⟨text, htext, hbody⟩ := List.mem_flatMap.mp (List.mem_of_find?_eq_some hfirst)
    have hnone := List.find?_some hfirst
    exact ⟨text, htext, body, hbody, Option.isNone_iff_eq_none.mp hnone⟩
  · rintro ⟨text, htext, body, hbody, hnone⟩
    have hsome : (v.expressions.find? fun body => (Resolver.answer? properties body).isNone).isSome :=
      List.find?_isSome.mpr
        ⟨body, List.mem_flatMap.mpr ⟨text, htext, hbody⟩, Option.isNone_iff_eq_none.mpr hnone⟩
    obtain ⟨first, hfirst⟩ := Option.isSome_iff_exists.mp hsome
    exact ⟨_, (v.expand_strict_eq_error_iff properties _).mpr ⟨first, hfirst, rfl⟩⟩

theorem expand_lenient_of_strict (properties : Keyed String) {v w : Value}
    (h : v.expand (.ofProperties properties) false = .ok w) :
    v.expand (.ofProperties properties) true = .ok w := by
  rw [expand_strict] at h
  split at h
  · exact nomatch h
  · rw [expand_lenient, h]

theorem outline_of_expand (properties : Keyed String) (lenient : Bool) {v w : Value}
    (h : v.expand (.ofProperties properties) lenient = .ok w) : w.outline = v.outline := by
  have hlenient : v.expand (.ofProperties properties) true = .ok w := by
    cases lenient with
    | true => exact h
    | false => exact expand_lenient_of_strict properties h
  rw [expand_lenient] at hlenient
  rw [← Except.ok.inj hlenient, outline_mapTexts]

end Value

namespace Expander

-- A caller without a mapper that accepts everything gets what the environment makes of the raw value.
theorem value_answers (x : Expander) (inner : Answers) (name member : String) :
    ((x.answers inner).value name member).value =
      (inner.value name member).value.bind fun raw =>
        if inner.ask .hasExpressions then (raw.expand x.resolver x.keepUnresolved).toOption
        else some raw := by
  have hscalar := x.value_scalar inner none name member fun _ => true
  rw [Level.filter_all, value_eq_map, Option.getD_none, Option.map_id] at hscalar
  exact hscalar

-- Strict expansion fails exactly if some expression in a string that it reaches stands for nothing,
-- and names the first of them. Lenient expansion never fails, and gives the same where strict
-- expansion succeeds. Neither changes anything but those strings. So the values that a strict
-- environment hands out stay as they are when it becomes lenient, whatever level it is around.
theorem strict_and_lenient_expansion (properties : Keyed String) :
    let resolver := Resolver.ofProperties properties
    (∀ v : Value,
      (∃ w, v.expand resolver true = .ok w) ∧
      ((∃ failure, v.expand resolver false = .error failure) ↔ ∃ text ∈ v.texts,
        ∃ body ∈ (Template.parse text.toList).expressions,
          Resolver.answer? properties body = none) ∧
      (∀ failure, v.expand resolver false = .error failure ↔
        ∃ body, (v.expressions.find? fun body => (Resolver.answer? properties body).isNone) =
          some body ∧ failure = .unresolvable (Template.written body)) ∧
      (∀ w, v.expand resolver false = .ok w → v.expand resolver true = .ok w) ∧
      ∀ lenient w, v.expand resolver lenient = .ok w → w.outline = v.outline) ∧
    ∀ (sink sink' : Sink) (inner : Answers) (name member : String) (w : Value),
      let strict : Expander := ⟨resolver, sink, false⟩
      let lenient : Expander := ⟨resolver, sink', true⟩
      ((strict.answers inner).value name member).value = some w →
        ((lenient.answers inner).value name member).value = some w := by
  intro resolver
  refine ⟨?_, ?_⟩
  · intro v
    exact ⟨⟨_, v.expand_lenient properties⟩, v.exists_expand_strict_eq_error_iff properties,
      v.expand_strict_eq_error_iff properties, fun w => Value.expand_lenient_of_strict properties,
      fun lenient w => Value.outline_of_expand properties lenient⟩
  · intro sink sink' inner name member w strict lenient h
    rw [value_answers] at h ⊢
    obtain ⟨raw, hraw, hvalue⟩ := Option.bind_eq_some_iff.mp h
    refine Option.bind_eq_some_iff.mpr ⟨raw, hraw, ?_⟩
    split
    · next hexpressions =>
      rw [if_pos hexpressions] at hvalue
      cases hexpand : raw.expand resolver false with
      | error failure =>
        rw [hexpand] at hvalue
        exact nomatch hvalue
      | ok v =>
        rw [hexpand] at hvalue
        rw [Value.expand_lenient_of_strict properties hexpand]
        exact hvalue
    · next hnone => rwa [if_neg hnone] at hvalue

end Expander

end LayeredAnnotations
