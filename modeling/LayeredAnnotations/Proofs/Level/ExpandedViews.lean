import LayeredAnnotations.Proofs.Level.Plain
import LayeredAnnotations.Proofs.Level.Views

namespace LayeredAnnotations

namespace Level

section Expanding

-- A level whose lookups give what views have, and that knows whether there is anything to expand.
variable (x : Expander) {inner : Level} {name member : String}
  (hplain : inner.answers.ask .hasExpressions = false →
    ∀ v, inner.value? name member = some v → v.hasPlaceholder = false)
  (hviewed : inner.value? name member = inner.answers.viewed? name member)

include hplain

-- That expansion is skipped where there are no expressions makes no difference.
theorem value?_expanding_eq_bind : (expanding x inner).value? name member =
    (inner.value? name member).bind fun v => (v.expand x.resolver x.keepUnresolved).toOption := by
  rw [value?_expanding, x.value_eq_map, Option.getD_none, Option.map_id]
  refine Option.bind_congr fun v hv => ?_
  split
  · rfl
  · next hnone =>
    rw [Value.expand_of_plain x.resolver x.keepUnresolved (hplain (eq_false_of_ne_true hnone) v hv)]
    rfl

include hviewed

theorem read?_expanding (α : Type) [OfValue α] :
    ((expanding x inner).answers.read? α none name member).value =
      ((inner.answers.viewed? name member).bind fun v =>
        (v.expand x.resolver x.keepUnresolved).toOption).bind (Value.read? α) := by
  rw [value_read?, scalar?_expanding, Value.filter_readable_bind, ← value?_expanding,
    value?_expanding_eq_bind x hplain, hviewed]

theorem forall_read?_expanding_iff :
    (∀ (α : Type) [OfValue α], ((expanding x inner).answers.ask (.find? name)).bind
        (·.read? α member) = ((expanding x inner).answers.read? α none name member).value) ↔
      ∀ v, inner.answers.viewed? name member = some v →
        v.expand x.resolver x.keepUnresolved = .ok v := by
  -- what is found is that of the inner level
  have hfound : (expanding x inner).answers.viewed? name member =
      inner.answers.viewed? name member := rfl
  simp only [Answers.bind_read?_find?, read?_expanding x hplain hviewed, hfound]
  cases inner.answers.viewed? name member with
  | none => simp
  | some v =>
    simp only [Option.bind_some, Option.some.injEq, forall_eq']
    constructor
    · intro h
      have hvalue := h Value
      cases hexpand : v.expand x.resolver x.keepUnresolved with
      | error failure =>
        rw [hexpand] at hvalue
        exact nomatch hvalue
      | ok w =>
        rw [hexpand] at hvalue
        exact congrArg _ (Option.some.inj hvalue).symm
    · intro h α _
      rw [h]
      rfl

end Expanding

-- An element with an expression in a member.
def templatedTag : List Finding :=
  [.present .declared ⟨"Tag", [("value", .string "$\x7bserver.port\x7d")], []⟩]

def serverPort : Resolver := .ofProperties [("server.port", "8080")]

theorem expand_serverPort :
    (Value.string "$\x7bserver.port\x7d").expand serverPort false = .ok (.string "8080") := by
  have hhole : Template.firstHole? "$\x7bserver.port\x7d".toList =
      some ([], "server.port".toList, []) := rfl
  have hparse : Template.parse "$\x7bserver.port\x7d".toList =
      ⟨[([], "server.port".toList)], []⟩ := by
    rw [Template.parse_of_firstHole? hhole, Template.parse_of_firstHole?_eq_none rfl]
  have hcontains : containsPlaceholder "$\x7bserver.port\x7d" := by
    rw [containsPlaceholder_eq, hhole, Option.isSome_some]
  have hresolve : serverPort.strict "$\x7bserver.port\x7d" = .ok "8080" := by
    change Resolver.resolveAll _ _ = _
    rw [Resolver.resolveAll, hparse]
    decide
  rw [Value.expand, Value.expandWith, if_pos hcontains]
  exact congrArg (Except.map Value.string) hresolve

-- An environment expands what is looked up, but not what is found.
theorem not_forall_read?_find?_expanding_eq :
    ¬ ∀ (findings : List Finding) (properties : Keyed String) (lenient : Bool)
      (name member : String),
      let inner := recorded (.ofFindings findings)
      let whole := expanding ⟨.ofProperties properties, .silent, lenient⟩ inner
      inner.answers.ask (.isRepeatable name) = false →
        ∀ (α : Type) [OfValue α], (whole.answers.ask (.find? name)).bind (·.read? α member) =
          (whole.answers.read? α none name member).value := by
  intro h
  have hagree := forall_read?_expanding_iff ⟨serverPort, .silent, false⟩
    (plain_of_value?_recorded templatedTag "Tag" "value")
    ((Single.recorded _).value?_eq "value" rfl)
  have hexpand := hagree.mp
    (h templatedTag [("server.port", "8080")] false "Tag" "value" rfl) _ rfl
  have heq := Except.ok.inj (hexpand.symm.trans expand_serverPort)
  exact absurd (Value.string.inj heq) (by decide)

-- What is found on an element has its members as they were written, and an environment around it
-- hands it on like that, also to those who build views from it. Only what is looked up is expanded,
-- and missing if that fails. So a view shows what lookups give, whatever a member is read as,
-- exactly if expansion leaves the member as it is, in particular if there is no expression in it.
theorem read?_find?_expanding (x : Expander) (findings : List Finding) {name : String}
    (hgrouped : (recorded (.ofFindings findings)).answers.ask (.isRepeatable name) = false)
    (member : String) :
    let inner := recorded (.ofFindings findings)
    let whole := expanding x inner
    let raw? := (whole.answers.ask (.find? name)).bind (·.get? member)
    whole.answers.ask (.find? name) = inner.answers.ask (.find? name) ∧
    (∀ (α : Type) [OfOccurrence α], whole.answers.build α = inner.answers.build α) ∧
    raw? = inner.value? name member ∧
    (∀ (α : Type) [OfValue α], (whole.answers.read? α none name member).value =
      (raw?.bind fun v => (v.expand x.resolver x.keepUnresolved).toOption).bind (Value.read? α)) ∧
    ((∀ (α : Type) [OfValue α], (whole.answers.ask (.find? name)).bind (·.read? α member) =
        (whole.answers.read? α none name member).value) ↔
      ∀ v, raw? = some v → v.expand x.resolver x.keepUnresolved = .ok v) ∧
    ((∀ v, raw? = some v → v.hasPlaceholder = false) →
      ∀ (α : Type) [OfValue α], (whole.answers.ask (.find? name)).bind (·.read? α member) =
        (whole.answers.read? α none name member).value) := by
  intro inner whole raw?
  have hplain := plain_of_value?_recorded findings name member
  have hviewed : inner.value? name member = inner.answers.viewed? name member :=
    (Single.recorded _).value?_eq member hgrouped
  have hagree := forall_read?_expanding_iff x hplain hviewed
  refine ⟨rfl, fun _ _ => rfl, hviewed.symm, fun α _ => read?_expanding x hplain hviewed α,
    hagree, ?_⟩
  intro hnone
  exact hagree.mpr fun v hv => Value.expand_of_plain x.resolver x.keepUnresolved (hnone v hv)

theorem read?_find?_expanding_templatedTag :
    let x : Expander := ⟨serverPort, .silent, false⟩
    let inner := recorded (.ofFindings templatedTag)
    let whole := expanding x inner
    inner.answers.ask (.isRepeatable "Tag") = false ∧
      (whole.answers.ask (.find? "Tag")).bind (·.read? String "value") =
        some "$\x7bserver.port\x7d" ∧
      (whole.answers.read? String none "Tag" "value").value = some "8080" := by
  intro x inner whole
  have hgrouped : inner.answers.ask (.isRepeatable "Tag") = false := rfl
  obtain ⟨-, -, -, hread, -, -⟩ := read?_find?_expanding x templatedTag hgrouped "value"
  refine ⟨hgrouped, rfl, ?_⟩
  rw [hread String]
  change (Except.toOption ((Value.string _).expand serverPort false)).bind _ = _
  rw [expand_serverPort]
  rfl

end Level

end LayeredAnnotations
