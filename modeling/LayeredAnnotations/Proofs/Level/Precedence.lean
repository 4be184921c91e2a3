import LayeredAnnotations.Proofs.Level.Lookup

namespace LayeredAnnotations

namespace Level

-- A mapper is for the levels that take one. The others are asked without it.
def mapperFor (l : Level) (mapper : Option Mapper) : Option Mapper :=
  if l.answers.ask .takesMapper then mapper else none

section Mappers

variable (l : Level) (mapper : Option Mapper) (name member : String) (accept : Value → Bool)

-- A layered level hands its mapper on to every level, and those that take none pass over it.
theorem ask_scalar_mapperFor :
    l.answers.ask (.scalar (l.mapperFor mapper) name member accept) =
      l.answers.ask (.scalar mapper name member accept) := by
  cases l with
  | layered declared ancestors => rw [mapperFor, answers_layered]; rfl
  | _ => rfl

theorem ask_array_mapperFor :
    l.answers.ask (.array (l.mapperFor mapper) name member accept) =
      l.answers.ask (.array mapper name member accept) := by
  cases l with
  | layered declared ancestors => rw [mapperFor, answers_layered]; rfl
  | _ => rfl

theorem scalar?_mapperFor :
    l.scalar? (l.mapperFor mapper) name member accept = l.scalar? mapper name member accept :=
  congrArg Logged.value (l.ask_scalar_mapperFor mapper name member accept)

theorem array_mapperFor :
    l.array (l.mapperFor mapper) name member accept = l.array mapper name member accept :=
  congrArg Logged.value (l.ask_array_mapperFor mapper name member accept)

end Mappers

section Typed

variable {α : Type}

theorem value_read? [OfValue α] (l : Level) (mapper : Option Mapper) (name member : String) :
    (l.answers.read? α mapper name member).value =
      (l.scalar? mapper name member (Value.readable α)).bind (Value.read? α) := rfl

theorem value_readAll [OfValue α] (l : Level) (mapper : Option Mapper) (name member : String) :
    (l.answers.readAll α mapper name member).value =
      (l.array mapper name member (Value.readable α)).filterMap (Value.read? α) := rfl

theorem value_constant? [Named α] (l : Level) (mapper : Option Mapper) (name member : String) :
    (l.answers.constant? α mapper name member).value =
      (l.scalar? mapper name member (Value.isConstant α)).bind (Value.constant? α) := rfl

theorem value_constants [Named α] (l : Level) (mapper : Option Mapper) (name member : String) :
    (l.answers.constants α mapper name member).value =
      (l.array mapper name member (Value.isConstant α)).filterMap (Value.constant? α) := rfl

-- If everything that is found can be read, it is the same to read the first that is found and to
-- take the first that is read.
theorem findSome?_bind {levels : List Level} {f : Level → Option Value} {read : Value → Option α}
    (h : ∀ l ∈ levels, ∀ v, f l = some v → (read v).isSome) :
    (levels.findSome? f).bind read = levels.findSome? fun l => (f l).bind read := by
  induction levels with
  | nil => rfl
  | cons l rest ih =>
    obtain ⟨hl, hrest⟩ := List.forall_mem_cons.mp h
    rw [List.findSome?_cons, List.findSome?_cons]
    cases hf : f l with
    | none => exact ih hrest
    | some v =>
      obtain ⟨a, ha⟩ := Option.isSome_iff_exists.mp (hl v hf)
      simp only [Option.bind_some, ha]

-- A level only answers with what can be read, so that one whose value cannot be read is passed over.
theorem scalar?_bind_layered (read : Value → Option α) (declared : Level) (ancestors : List Level)
    (mapper : Option Mapper) (name member : String) :
    ((layered declared ancestors).scalar? mapper name member fun v => (read v).isSome).bind read =
      (declared :: ancestors).findSome? fun l =>
        (l.scalar? (l.mapperFor mapper) name member fun v => (read v).isSome).bind read := by
  have hread : ∀ l ∈ declared :: ancestors, ∀ v,
      (l.scalar? mapper name member fun v => (read v).isSome) = some v → (read v).isSome := by
    intro l _ v hv
    exact accept_of_scalar? mapper name member _ hv
  rw [scalar?_layered, findSome?_bind hread]
  simp only [scalar?_mapperFor]

theorem array_filterMap_layered (read : Value → Option α) (declared : Level)
    (ancestors : List Level) (mapper : Option Mapper) (name member : String) :
    ((layered declared ancestors).array mapper name member fun v => (read v).isSome).filterMap
        read =
      (declared :: ancestors).flatMap fun l =>
        (l.array (l.mapperFor mapper) name member fun v => (read v).isSome).filterMap read := by
  rw [array_layered, List.filterMap_flatMap]
  simp only [array_mapperFor]

end Typed

-- No lookup answers with what its caller refuses. Read as any type, or as a constant of any
-- enumeration, a member of a layered level is what the first level that can read it makes of it, and
-- the elements of an array are those of all levels one after another.
theorem lookup_precedence (declared : Level) (ancestors : List Level) (mapper : Option Mapper)
    (name member : String) :
    let whole := layered declared ancestors
    let levels := declared :: ancestors
    (∀ (l : Level) (accept : Value → Bool) (v : Value),
      l.scalar? mapper name member accept = some v → accept v) ∧
    (∀ (α : Type) [OfValue α],
      (whole.answers.read? α mapper name member).value =
        levels.findSome? fun l => (l.answers.read? α (l.mapperFor mapper) name member).value) ∧
    (∀ (α : Type) [Named α],
      (whole.answers.constant? α mapper name member).value =
        levels.findSome? fun l =>
          (l.answers.constant? α (l.mapperFor mapper) name member).value) ∧
    (∀ (α : Type) [OfValue α],
      (whole.answers.readAll α mapper name member).value =
        levels.flatMap fun l => (l.answers.readAll α (l.mapperFor mapper) name member).value) ∧
    (∀ (α : Type) [Named α],
      (whole.answers.constants α mapper name member).value =
        levels.flatMap fun l =>
          (l.answers.constants α (l.mapperFor mapper) name member).value) := by
  intro whole levels
  refine ⟨?_, ?_, ?_, ?_, ?_⟩
  · intro l accept v h
    exact accept_of_scalar? mapper name member accept h
  · intro α _
    simp only [whole, value_read?]
    exact scalar?_bind_layered (Value.read? α) declared ancestors mapper name member
  · intro α _
    simp only [whole, value_constant?]
    exact scalar?_bind_layered (Value.constant? α) declared ancestors mapper name member
  · intro α _
    simp only [whole, value_readAll]
    exact array_filterMap_layered (Value.read? α) declared ancestors mapper name member
  · intro α _
    simp only [whole, value_constants]
    exact array_filterMap_layered (Value.constant? α) declared ancestors mapper name member

end Level

end LayeredAnnotations
