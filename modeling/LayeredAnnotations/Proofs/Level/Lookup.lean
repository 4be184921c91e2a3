import LayeredAnnotations.Level.Basic

namespace LayeredAnnotations

namespace Expander

-- What an environment makes of a raw value, whatever it logs about it.
theorem value_expand (x : Expander) (inner : Answers) (name member : String) (raw : Value) :
    (x.expand inner name member raw).value =
      if inner.ask .hasExpressions then (raw.expand x.resolver x.keepUnresolved).toOption
      else some raw := by
  rw [expand]
  split
  · split
    · next hfailure => rw [hfailure]; rfl
    · next hexpanded => rw [hexpanded]; split <;> rfl
  · rfl

theorem value_eq_map (x : Expander) (inner : Answers) (mapper : Option Mapper)
    (name member : String) :
    (x.value inner mapper name member).value =
      ((inner.value name member).value.bind fun raw =>
        if inner.ask .hasExpressions then (raw.expand x.resolver x.keepUnresolved).toOption
        else some raw).map (mapper.getD id) := by
  rw [value, Logged.value_bind]
  cases (inner.value name member).value with
  | none => rfl
  | some raw => simp only [Logged.value_bind, Logged.value_pure, Option.bind_some, value_expand]

-- Where there is nothing to expand, a value only goes through the mapper.
theorem value_of_plain (x : Expander) {inner : Answers} (h : inner.ask .hasExpressions = false)
    (mapper : Option Mapper) (name member : String) :
    (x.value inner mapper name member).value =
      (inner.value name member).value.map (mapper.getD id) := by
  simp only [value_eq_map, h, Bool.false_eq_true, if_false, Option.bind_fun_some]

theorem value_scalar (x : Expander) (inner : Answers) (mapper : Option Mapper)
    (name member : String) (accept : Value → Bool) :
    (x.scalar inner mapper name member accept).value =
      (x.value inner mapper name member).value.filter accept := by
  rw [scalar, Logged.value_bind]
  cases (x.value inner mapper name member).value with
  | none => rfl
  | some v => cases h : accept v <;> simp [h, Option.filter_some]

end Expander

-- The elements of a value that a caller accepts. Without a value there are none.
def acceptedElements (accept : Value → Bool) (v? : Option Value) : List Value :=
  (v?.map (·.elements.filter accept)).getD []

namespace Level

-- What holds of a layered level if it holds of all levels it is made of, and so on, holds of every
-- level.
@[elab_as_elim, induction_eliminator]
theorem induct {motive : Level → Prop} (empty : motive .empty)
    (recorded : ∀ r, motive (.recorded r))
    (expanding : ∀ x inner, motive inner → motive (.expanding x inner))
    (layered : ∀ declared ancestors, (∀ l ∈ declared :: ancestors, motive l) →
      motive (.layered declared ancestors))
    (forwarding : ∀ inner, motive inner → motive (.forwarding inner)) (l : Level) : motive l :=
  @Level.rec motive (fun ls => ∀ l ∈ ls, motive l) empty recorded expanding
    (fun declared ancestors hdeclared hancestors =>
      layered declared ancestors (List.forall_mem_cons.mpr ⟨hdeclared, hancestors⟩))
    forwarding (List.forall_mem_nil motive)
    (fun _ _ hl hrest => List.forall_mem_cons.mpr ⟨hl, hrest⟩) l

-- A member as one value, whatever is logged on the way.
def scalar? (l : Level) (mapper : Option Mapper) (name member : String)
    (accept : Value → Bool) : Option Value :=
  (l.answers.ask (.scalar mapper name member accept)).value

-- A member as the elements of an array, whatever is logged on the way.
def array (l : Level) (mapper : Option Mapper) (name member : String)
    (accept : Value → Bool) : List Value :=
  (l.answers.ask (.array mapper name member accept)).value

-- A member as it is, or its default.
def value? (l : Level) (name member : String) : Option Value :=
  l.scalar? none name member fun _ => true

section Lookups

variable (mapper : Option Mapper) (name member : String) (accept : Value → Bool)

theorem scalar?_recorded (r : Record) :
    (recorded r).scalar? mapper name member accept = (r.raw? name member).filter accept := rfl

theorem array_recorded (r : Record) :
    (recorded r).array mapper name member accept =
      acceptedElements accept (r.raw? name member) := rfl

theorem scalar?_expanding (x : Expander) (inner : Level) :
    (expanding x inner).scalar? mapper name member accept =
      (x.value inner.answers mapper name member).value.filter accept :=
  x.value_scalar inner.answers mapper name member accept

theorem scalar?_layered (declared : Level) (ancestors : List Level) :
    (layered declared ancestors).scalar? mapper name member accept =
      (declared :: ancestors).findSome? (·.scalar? mapper name member accept) := by
  rw [scalar?, answers_layered, Answers.layered, ← List.map_cons, Logged.value_first,
    List.findSome?_map]
  rfl

theorem array_layered (declared : Level) (ancestors : List Level) :
    (layered declared ancestors).array mapper name member accept =
      (declared :: ancestors).flatMap (·.array mapper name member accept) := by
  rw [array, answers_layered, Answers.layered, ← List.map_cons, Logged.value_concat,
    List.flatMap_map]
  rfl

-- However levels are nested, what comes out of a lookup has gone through a level that asked its
-- caller.
theorem accept_of_scalar? {l : Level} {v : Value}
    (h : l.scalar? mapper name member accept = some v) : accept v := by
  induction l generalizing mapper with
  | empty => exact nomatch h
  | recorded r => exact (Option.filter_eq_some_iff.mp h).2
  | expanding x inner =>
    rw [scalar?_expanding] at h
    exact (Option.filter_eq_some_iff.mp h).2
  | layered declared ancestors ih =>
    rw [scalar?_layered] at h
    obtain ⟨l, hl, hv⟩ := List.exists_of_findSome?_eq_some h
    exact ih l hl mapper hv
  | forwarding inner ih => exact ih none h

end Lookups

end Level

end LayeredAnnotations
