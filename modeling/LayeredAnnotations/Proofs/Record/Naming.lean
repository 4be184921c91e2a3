import LayeredAnnotations.Proofs.Record.Contents
import LayeredAnnotations.Proofs.Record.Grouping

namespace LayeredAnnotations

namespace Record

-- Whether everything that a container holds is an occurrence of the same annotation.
def HoldsOnly (findings : List Finding) (container name : String) : Prop :=
  ∀ o ∈ contentsOf findings container, o.name = name

-- Whether what was put into a container first is, if there is anything.
def HoldsFirst (findings : List Finding) (container name : String) : Prop :=
  ∀ o, (contentsOf findings container).head? = some o → o.name = name

section Naming

variable (findings : List Finding) (name : String) (mask : Presence)

-- What is found in a container is all that it holds, whatever its name.
theorem grouped?_eq_contentsOf :
    (scan findings).grouped? name mask = (latestContainer? findings name).bind fun container =>
      if ((scan findings).entryOf container).presence.intersects mask then
        some ((contentsOf findings container).map (·.withDefaults ((scan findings).defaultsOf name)))
      else none := by
  rw [grouped?_scan]
  congr 1
  funext container
  rw [entryIn?_eq, ← nestedAmong_scan]
  split <;> rfl

theorem name_of_mem_occurrencesIn_iff :
    (∀ o ∈ (scan findings).occurrencesIn name mask, o.name = name) ↔
      ∀ container, latestContainer? findings name = some container →
        ((scan findings).entryOf container).presence.intersects mask →
          HoldsOnly findings container name := by
  have hown : ∀ o ∈ (((scan findings).entryIn? name mask).map
      ((scan findings).occurrence name)).toList, o.name = name := by
    intro o ho
    obtain ⟨entry, -, rfl⟩ := Option.map_eq_some_iff.mp (Option.mem_toList.mp ho)
    rfl
  rw [occurrencesIn, grouped?_eq_contentsOf]
  cases latestContainer? findings name with
  | none => simpa using hown
  | some container =>
    simp only [Option.bind_some, Option.some.injEq, forall_eq']
    by_cases hmask : ((scan findings).entryOf container).presence.intersects mask
    · rw [if_pos hmask]
      simp only [hmask, forall_const, List.forall_mem_map]
      exact Iff.rfl
    · rw [if_neg hmask]
      exact iff_of_true hown fun h => absurd h hmask

-- Only what is found in a container can have the name of another annotation.
theorem name_of_findIn?_iff (own : Option Entry) :
    (∀ o, (scan findings).findIn? name mask own = some o → o.name = name) ↔
      own.isSome ∨ ∀ container, latestContainer? findings name = some container →
        ((scan findings).entryOf container).presence.intersects mask →
          HoldsFirst findings container name := by
  cases own with
  | some entry =>
    refine iff_of_true ?_ (Or.inl rfl)
    intro o ho
    obtain rfl := Option.some.inj ho
    rfl
  | none =>
    rw [findIn?, grouped?_eq_contentsOf, Option.isSome_none, or_iff_right Bool.false_ne_true]
    cases latestContainer? findings name with
    | none => simp
    | some container =>
      simp only [Option.bind_some, Option.some.injEq, forall_eq']
      by_cases hmask : ((scan findings).entryOf container).presence.intersects mask
      · rw [if_pos hmask, Option.bind_some, List.head?_map, HoldsFirst]
        simp only [hmask, forall_const, Option.map_eq_some_iff, forall_exists_index, and_imp,
          forall_apply_eq_imp_iff₂]
        exact Iff.rfl
      · simp [hmask]

-- The container that an annotation names last always is there.
theorem intersects_anywhere_of_latestContainer? {container : String}
    (h : latestContainer? findings name = some container) :
    ((scan findings).entryOf container).presence.intersects .anywhere := by
  rw [latestContainer?, ← lookup_containers_scan] at h
  exact Presence.intersects_anywhere_of_intersects (container_scan findings h).1

-- When the occurrences of an annotation are named so. Whatever else is in the container that the
-- annotation names last is given out under its own name, so that this depends on all that was put
-- there. An entry of the annotation itself only keeps the lookup of one occurrence away from the
-- container, and the declared lookups do not enter one that is not declared.
theorem names_of_occurrences :
    let answers := (ofFindings findings).answers
    ((∀ o ∈ answers.ask (.occurrences name), o.name = name) ↔
      ∀ container, latestContainer? findings name = some container →
        HoldsOnly findings container name) ∧
    ((∀ o ∈ answers.ask (.declaredOccurrences name), o.name = name) ↔
      ∀ container, latestContainer? findings name = some container →
        IsThroughDeclared findings container → HoldsOnly findings container name) ∧
    ((∀ o, answers.ask (.find? name) = some o → o.name = name) ↔
      (∃ f ∈ findings, f.target? = some name) ∨
        ∀ container, latestContainer? findings name = some container →
          HoldsFirst findings container name) ∧
    ((∀ o, answers.ask (.findDeclared? name) = some o → o.name = name) ↔
      IsThroughDeclared findings name ∨
        ∀ container, latestContainer? findings name = some container →
          IsThroughDeclared findings container → HoldsFirst findings container name) := by
  intro answers
  have hanywhere {P : String → Prop} :
      (∀ container, latestContainer? findings name = some container →
        ((scan findings).entryOf container).presence.intersects .anywhere → P container) ↔
      ∀ container, latestContainer? findings name = some container → P container := by
    refine forall₂_congr fun container h => ?_
    exact forall_prop_of_true (intersects_anywhere_of_latestContainer? findings name h)
  refine ⟨?_, ?_, ?_, ?_⟩
  · exact (name_of_mem_occurrencesIn_iff findings name .anywhere).trans hanywhere
  · simp only [← intersects_throughDeclared_scan]
    exact name_of_mem_occurrencesIn_iff findings name .throughDeclared
  · rw [← isSome_lookup_entries_scan, ← hanywhere]
    exact name_of_findIn?_iff findings name .anywhere _
  · rw [← isSome_entryIn?_throughDeclared]
    simp only [← intersects_throughDeclared_scan]
    exact name_of_findIn?_iff findings name .throughDeclared _

end Naming

-- Two annotations that are grouped in the same container come with each other.
theorem not_forall_name_of_occurrences :
    ¬ ∀ (findings : List Finding) (name : String),
      let answers := (ofFindings findings).answers
      (∀ o ∈ answers.ask (.occurrences name), o.name = name) ∧
        (∀ o ∈ answers.ask (.declaredOccurrences name), o.name = name) ∧
        (∀ o, answers.ask (.find? name) = some o → o.name = name) ∧
        ∀ o, answers.ask (.findDeclared? name) = some o → o.name = name := by
  intro h
  let findings : List Finding :=
    [.repeated .declared "Tags" ⟨"Label", [("value", .string "l")], []⟩,
      .repeated .declared "Tags" ⟨"Tag", [("value", .string "t")], []⟩]
  have hfind : (ofFindings findings).answers.ask (.find? "Tag") =
      some ⟨"Label", [("value", .string "l")], []⟩ := rfl
  exact absurd ((h findings "Tag").2.2.1 _ hfind) (by decide)

end Record

end LayeredAnnotations
