import LayeredAnnotations.Proofs.Record.Grouping

namespace LayeredAnnotations

namespace Record

-- Whether an annotation is on the element as an annotation of something declared, and not declared
-- itself.
def IsOnlyCarriedDeclared (findings : List Finding) (name : String) : Prop :=
  IsCarriedDeclared findings name ∧ ¬ IsDeclared findings name

section DeclaredPresence

variable (findings : List Finding) (name : String)

theorem containerIn_throughDeclared_scan :
    (scan findings).ContainerIn name .throughDeclared ↔
      ∃ container, latestContainer? findings name = some container ∧
        IsThroughDeclared findings container := by
  simp only [ContainerIn, lookup_containers_scan, latestContainer?, intersects_throughDeclared_scan]

theorem knowsDeclared_iff :
    (ofFindings findings).answers.ask (.knowsDeclared name) = true ↔
      IsThroughDeclared findings name ∨
        ∃ container, latestContainer? findings name = some container ∧
          IsDeclared findings container := by
  have hthrough : IsDeclared findings name → IsThroughDeclared findings name :=
    fun h => (isThroughDeclared_iff findings name).mpr (Or.inl h)
  change (((scan findings).entryIn? name .throughDeclared).isSome ||
    (scan findings).hasIn name .onlyDeclared) = true ↔ _
  rw [Bool.or_eq_true, isSome_entryIn?_throughDeclared, hasIn_onlyDeclared_scan, ← or_assoc,
    or_iff_left_of_imp hthrough]

theorem isSome_findDeclared?_iff :
    ((ofFindings findings).answers.ask (.findDeclared? name)).isSome ↔
      IsThroughDeclared findings name ∨
        ∃ container, latestContainer? findings name = some container ∧
          IsThroughDeclared findings container := by
  rw [← containerIn_throughDeclared_scan, ← isSome_entryIn?_throughDeclared]
  exact isSome_findIn?_scan findings name .throughDeclared _

theorem declaredOccurrences_ne_nil_iff :
    (ofFindings findings).answers.ask (.declaredOccurrences name) ≠ [] ↔
      IsThroughDeclared findings name ∨
        ∃ container, latestContainer? findings name = some container ∧
          IsThroughDeclared findings container := by
  rw [← containerIn_throughDeclared_scan, ← isSome_entryIn?_throughDeclared]
  exact occurrencesIn_ne_nil_iff findings name .throughDeclared

-- A declared annotation is found if and only if it has declared occurrences, and what is known to
-- be declared is found. What is found is known, but for what is grouped in a container that is on
-- the element only as an annotation of something declared: that container is looked into, and does
-- not count as declared.
theorem declared_presence_coherent_iff :
    let answers := (ofFindings findings).answers
    let known := answers.ask (.knowsDeclared name) = true
    let found := (answers.ask (.findDeclared? name)).isSome = true
    let occurs := answers.ask (.declaredOccurrences name) ≠ []
    (found ↔ occurs) ∧ (known → found) ∧
      ((known ↔ found) ↔ IsThroughDeclared findings name ∨
        ∀ container, latestContainer? findings name = some container →
          ¬ IsOnlyCarriedDeclared findings container) := by
  intro answers known found occurs
  have hknown : known ↔ _ := knowsDeclared_iff findings name
  have hfound : found ↔ _ := isSome_findDeclared?_iff findings name
  have hoccurs : occurs ↔ _ := declaredOccurrences_ne_nil_iff findings name
  refine ⟨hfound.trans hoccurs.symm, ?_, ?_⟩
  · rw [hknown, hfound]
    refine Or.imp_right (Exists.imp fun container => And.imp_right fun hdeclared => ?_)
    exact (isThroughDeclared_iff findings container).mpr (Or.inl hdeclared)
  · rw [hknown, hfound]
    by_cases hthrough : IsThroughDeclared findings name
    · simp only [hthrough, true_or]
    · cases latestContainer? findings name with
      | none => simp
      | some container =>
        simp only [hthrough, false_or, Option.some.injEq, exists_eq_left', forall_eq',
          isThroughDeclared_iff, IsOnlyCarriedDeclared]
        rw [not_and_not_right]
        exact iff_comm.trans or_iff_left_iff_imp

end DeclaredPresence

-- The container comes with something declared, and it already holds an occurrence when an inherited
-- one is grouped in it.
theorem not_forall_declared_presence_coherent :
    ¬ ∀ (findings : List Finding) (name : String),
      let answers := (ofFindings findings).answers
      (answers.ask (.knowsDeclared name) = true ↔ (answers.ask (.findDeclared? name)).isSome) ∧
        ((answers.ask (.findDeclared? name)).isSome ↔
          answers.ask (.declaredOccurrences name) ≠ []) := by
  intro h
  obtain ⟨hknown, -⟩ := h
    [.carried .declared "Service"
        ⟨"Tags", [("value", .array [.nested ⟨"Tag", [("value", .string "x")], []⟩])], []⟩,
      .repeated .inherited "Tags" ⟨"Tag", [("value", .string "y")], []⟩] "Tag"
  exact absurd hknown (by decide)

end Record

end LayeredAnnotations
