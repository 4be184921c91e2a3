import LayeredAnnotations.Proofs.Level.Built
import LayeredAnnotations.Proofs.Level.Wrapping
import LayeredAnnotations.Proofs.Record.Consistency

namespace LayeredAnnotations

theorem Logged.bind_congr_value {α β : Type} {x : Logged α} {f g : α → Logged β}
    (h : f x.value = g x.value) : (x >>= f) = (x >>= g) := by
  simp only [bind, h]

namespace Record

-- What can be looked up is there.
theorem holds_of_raw? {r : Record} {name member : String} {v : Value}
    (h : r.raw? name member = some v) : r.Holds v := by
  obtain ⟨entry, hentry, hvalue⟩ := Option.bind_eq_some_iff.mp h
  obtain hgiven | ⟨-, hdefault⟩ := Option.or_eq_some_iff.mp hvalue
  · exact .inl ⟨name, entry, member, Keyed.mem_of_lookup hentry, Keyed.mem_of_lookup hgiven⟩
  · rw [defaultsOf] at hdefault
    cases hvalues : r.defaults.lookup name with
    | none => simp [hvalues] at hdefault
    | some values =>
      rw [hvalues, Option.getD_some] at hdefault
      exact .inr ⟨name, values, member, Keyed.mem_of_lookup hvalues, Keyed.mem_of_lookup hdefault⟩

theorem plain_of_raw? {findings : List Finding} {name member : String} {v : Value}
    (h : (ofFindings findings).hasExpressions = false)
    (hv : (ofFindings findings).raw? name member = some v) : v.hasPlaceholder = false := by
  by_contra hplaceholder
  apply ne_true_of_eq_false h
  rw [Bool.not_eq_false] at hplaceholder
  exact (hasExpressions_ofFindings_iff findings).mpr ⟨v, holds_of_raw? hv, hplaceholder⟩

end Record

-- The same answers from somebody who cannot rule out expressions.
def Answers.withExpressions (a : Answers) : Answers where
  ask {α} (q : Question α) := match q with
    | .hasExpressions => true
    | q => a.ask q

namespace Expander

theorem expand_of_plain (x : Expander) (inner : Answers) (name member : String) {raw : Value}
    (h : raw.hasPlaceholder = false) : x.expand inner name member raw = pure (some raw) := by
  rw [expand]
  split
  · simp only [Value.expand_of_plain x.resolver x.keepUnresolved h, h, Bool.and_false,
      Bool.false_eq_true, if_false]
  · rfl

theorem value_withExpressions (x : Expander) {inner : Answers} (mapper : Option Mapper)
    {name member : String}
    (h : ∀ v, (inner.value name member).value = some v → v.hasPlaceholder = false) :
    x.value inner.withExpressions mapper name member = x.value inner mapper name member := by
  apply Logged.bind_congr_value (x := inner.value name member)
  cases hraw : (inner.value name member).value with
  | none => rfl
  | some raw => simp only [x.expand_of_plain _ name member (h raw hraw)]

end Expander

namespace Level

theorem plain_of_value?_recorded (findings : List Finding) (name member : String)
    (h : (recorded (.ofFindings findings)).answers.ask .hasExpressions = false) :
    ∀ v, (recorded (.ofFindings findings)).value? name member = some v →
      v.hasPlaceholder = false := by
  intro v hv
  rw [value?_recorded] at hv
  exact Record.plain_of_raw? h hv

theorem Built.plain_of_value? {l : Level} (h : l.Built)
    (hplain : l.answers.ask .hasExpressions = false) {name member : String} {v : Value}
    (hv : l.value? name member = some v) : v.hasPlaceholder = false := by
  induction h generalizing v with
  | empty => exact nomatch hv
  | recorded findings _ => exact plain_of_value?_recorded findings name member hplain v hv
  | @expanding x inner h ih =>
    -- the environment does not expand either, as its level is the one that is asked
    change inner.answers.ask .hasExpressions = false at hplain
    rw [value?_expanding, x.value_of_plain hplain] at hv
    obtain ⟨raw, hraw, rfl⟩ := Option.map_eq_some_iff.mp hv
    exact ih hplain hraw
  | @layered declared ancestors h ih =>
    rw [answers_layered] at hplain
    change (declared.answers :: ancestors.map answers).any (·.ask .hasExpressions) = false at hplain
    rw [← List.map_cons, List.any_map, List.any_eq_false] at hplain
    rw [value?_layered] at hv
    obtain ⟨l, hl, hvalue⟩ := List.exists_of_findSome?_eq_some hv
    exact ih l hl (eq_false_of_ne_true (hplain l hl)) hvalue

-- A level in which there is nothing to expand only holds values that expansion leaves as they are,
-- so that nobody can tell whether an environment around it skips expansion.
theorem Built.expansion_of_plain {l : Level} (h : l.Built)
    (hplain : l.answers.ask .hasExpressions = false) :
    (∀ (name member : String) (v : Value), l.value? name member = some v →
      v.hasPlaceholder = false ∧
        ∀ (resolver : Resolver) (lenient : Bool), v.expand resolver lenient = .ok v) ∧
    ∀ (x : Expander) (mapper : Option Mapper) (name member : String) (accept : Value → Bool),
      (x.answers l.answers.withExpressions).ask (.scalar mapper name member accept) =
          (Level.expanding x l).answers.ask (.scalar mapper name member accept) ∧
        (x.answers l.answers.withExpressions).ask (.array mapper name member accept) =
          (Level.expanding x l).answers.ask (.array mapper name member accept) := by
  refine ⟨?_, ?_⟩
  · intro name member v hv
    have hvalue := h.plain_of_value? hplain hv
    exact ⟨hvalue, fun resolver lenient => Value.expand_of_plain resolver lenient hvalue⟩
  · intro x mapper name member accept
    have hvalue : x.value l.answers.withExpressions mapper name member =
        x.value l.answers mapper name member :=
      x.value_withExpressions mapper fun _ hv => h.plain_of_value? hplain hv
    refine ⟨?_, ?_⟩
    · change x.scalar _ mapper name member accept = x.scalar _ mapper name member accept
      rw [Expander.scalar, Expander.scalar, hvalue]
    · change x.array _ mapper name member accept = x.array _ mapper name member accept
      rw [Expander.array, Expander.array, hvalue]

-- An opening brace that nothing closes is not the start of an expression.
def unclosedExpression : Level :=
  .recorded (.ofFindings
    [.present .declared ⟨"Tag", [("names", .array [.string "$\x7bopen"])], []⟩])

def numberedAncestor : Level :=
  .recorded (.ofFindings [.present .declared ⟨"Tag", [], []⟩, .defaults "Tag" [("level", .int 1)]])

theorem hasPlaceholder_unclosed : (Value.array [.string "$\x7bopen"]).hasPlaceholder = false := by
  rw [Value.hasPlaceholder_array, List.any_cons, List.any_nil, Bool.or_false]
  exact (containsPlaceholder_eq _).trans rfl

theorem hasExpressions_unclosedExpression :
    unclosedExpression.answers.ask .hasExpressions = false := by
  change ((((Value.array [.string "$\x7bopen"]).hasPlaceholder || false) || false) || false) = false
  rw [hasPlaceholder_unclosed]
  rfl

theorem Built.expansion_of_plain_unclosed :
    let x : Expander := ⟨.ofProperties [("open", "closed")], .silent, false⟩
    let l := Level.layered unclosedExpression [Level.expanding x numberedAncestor]
    let v := Value.array [.string "$\x7bopen"]
    l.Built ∧ l.answers.ask .hasExpressions = false ∧ l.value? "Tag" "names" = some v ∧
      v.hasPlaceholder = false ∧ v.expand x.resolver false = .ok v ∧
      (x.answers l.answers.withExpressions).ask (.scalar none "Tag" "names" fun _ => true) =
        (Level.expanding x l).answers.ask (.scalar none "Tag" "names" fun _ => true) := by
  intro x l v
  have hbuilt : l.Built := .layered (List.forall_mem_cons.mpr ⟨.recorded _ (by decide),
    List.forall_mem_singleton.mpr (.expanding x (.recorded _ (by decide)))⟩)
  have hplain : l.answers.ask .hasExpressions = false := by
    change (unclosedExpression.answers.ask .hasExpressions || _) = false
    rw [hasExpressions_unclosedExpression]
    rfl
  have hvalue : l.value? "Tag" "names" = some v := rfl
  obtain ⟨hvalues, hlookups⟩ := hbuilt.expansion_of_plain hplain
  obtain ⟨hnone, hexpand⟩ := hvalues "Tag" "names" v hvalue
  exact ⟨hbuilt, hplain, hvalue, hnone, hexpand x.resolver false,
    (hlookups x none "Tag" "names" _).1⟩

end Level

end LayeredAnnotations
