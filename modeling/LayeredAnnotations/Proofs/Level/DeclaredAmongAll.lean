import LayeredAnnotations.Proofs.Level.Aggregation
import LayeredAnnotations.Proofs.Level.Element
import LayeredAnnotations.Proofs.Record.Carriers
import LayeredAnnotations.Proofs.Record.Naming
import LayeredAnnotations.Proofs.Value.Likeness

namespace LayeredAnnotations

-- If there is at most one element that can be missed, it depends on that one alone whether one is.
theorem forall_mem_iff_of_missed {α : Type} {as : List α} {P : α → Prop} {missed : Prop} {a : α}
    (hmem : missed → a ∈ as) (hothers : ∀ b ∈ as, P b ∨ missed ∧ b = a) :
    (∀ b ∈ as, P b) ↔ (missed → P a) := by
  constructor
  · exact fun h hmissed => h a (hmem hmissed)
  · intro h b hb
    rcases hothers b hb with hP | ⟨hmissed, rfl⟩
    · exact hP
    · exact h hmissed

namespace Record

-- Whether the entry of a declared annotation stands behind a container that is not declared.
def IsShadowed (findings : List Finding) (name : String) : Prop :=
  IsThroughDeclared findings name ∧
    ∃ container, latestContainer? findings name = some container ∧
      ¬ IsThroughDeclared findings container

-- Whether an annotation stands in for itself among what is declared only: it is declared, and only
-- inherited annotations are found to carry it.
def StandsInDeclared (findings : List Finding) (name : String) : Prop :=
  (scan findings).hasIn name .onlyDeclared ∧
    carriersFound (declaredPart findings) name = [] ∧ carriersFound findings name ≠ []

section Findings

variable {findings : List Finding} {name : String}

theorem occurrencesIn_of_isShadowed (h : IsShadowed findings name) :
    (scan findings).occurrencesIn name .throughDeclared =
      [(scan findings).occurrence name ((scan findings).entryOf name)] := by
  obtain ⟨hthrough, container, hlatest, hcontainer⟩ := h
  have hrefused := mt (intersects_throughDeclared_scan findings container).mp hcontainer
  rw [occurrencesIn, grouped?_eq_contentsOf, hlatest, Option.bind_some, if_neg hrefused,
    entryIn?_of_isThroughDeclared hthrough]
  rfl

theorem occurrencesIn_subset_of_not_isShadowed (h : ¬ IsShadowed findings name) :
    (scan findings).occurrencesIn name .throughDeclared ⊆
      (scan findings).occurrencesIn name .anywhere := by
  have hnothing (hthrough : ¬ IsThroughDeclared findings name)
      (hgrouped : (scan findings).grouped? name .throughDeclared = none) :
      (scan findings).occurrencesIn name .throughDeclared = [] := by
    rw [occurrencesIn, hgrouped, entryIn?_of_not_isThroughDeclared hthrough]
    rfl
  cases hlatest : latestContainer? findings name with
  | none =>
    have hgrouped (mask : Presence) : (scan findings).grouped? name mask = none := by
      rw [grouped?_eq_contentsOf, hlatest, Option.bind_none]
    by_cases hthrough : IsThroughDeclared findings name
    · have hdeclared := (intersects_throughDeclared_scan findings name).mpr hthrough
      have hanywhere := Presence.intersects_anywhere_of_intersects hdeclared
      rw [occurrencesIn, occurrencesIn, hgrouped, hgrouped, entryIn?_eq, entryIn?_eq,
        if_pos hdeclared, if_pos hanywhere]
      exact List.Subset.refl _
    · rw [hnothing hthrough (hgrouped _)]
      exact List.nil_subset _
  | some container =>
    have hanywhere := intersects_anywhere_of_latestContainer? findings name hlatest
    by_cases hcontainer : IsThroughDeclared findings container
    · have hdeclared := (intersects_throughDeclared_scan findings container).mpr hcontainer
      rw [occurrencesIn, occurrencesIn, grouped?_eq_contentsOf, grouped?_eq_contentsOf, hlatest,
        Option.bind_some, Option.bind_some, if_pos hdeclared, if_pos hanywhere]
      exact List.Subset.refl _
    · have hthrough : ¬ IsThroughDeclared findings name :=
        fun hthrough => h ⟨hthrough, container, hlatest, hcontainer⟩
      have hrefused := mt (intersects_throughDeclared_scan findings container).mp hcontainer
      have hgrouped : (scan findings).grouped? name .throughDeclared = none := by
        rw [grouped?_eq_contentsOf, hlatest, Option.bind_some, if_neg hrefused]
      rw [hnothing hthrough hgrouped]
      exact List.nil_subset _

theorem mem_carriersOr {known : Keyed (List String)} {found : List String}
    (h : known.lookup name = listed found) (present : Bool) (carrier : String) :
    carrier ∈ carriersOr known name present ↔
      carrier ∈ found ∨ found = [] ∧ present ∧ carrier = name := by
  rw [carriersOr, h, listed]
  by_cases hfound : found = []
  · cases present <;> simp [hfound]
  · simp [hfound]

theorem mem_carriers_of_mem_declaredCarriers {carrier : String}
    (h : carrier ∈ (ofFindings findings).answers.ask (.declaredCarriers name)) :
    carrier ∈ (ofFindings findings).answers.ask (.carriers name) ∨
      StandsInDeclared findings name ∧ carrier = name := by
  have hdeclared := mem_carriersOr (lookup_declaredCarriers_scan findings name)
    ((scan findings).hasIn name .onlyDeclared) carrier
  have hall := mem_carriersOr (lookup_carriers_scan findings name)
    ((scan findings).hasIn name .proper) carrier
  rcases hdeclared.mp h with hfound | ⟨hnone, hhas, hname⟩
  · have hsublist : (declaredPart findings).Sublist findings := List.filter_sublist
    exact Or.inl (hall.mpr (Or.inl ((hsublist.filterMap _).mem hfound)))
  · by_cases hfound : carriersFound findings name = []
    · have hproper := hasIn_mono (fun _ => Presence.intersects_proper_of_onlyDeclared) hhas
      exact Or.inl (hall.mpr (Or.inr ⟨hfound, hproper, hname⟩))
    · exact Or.inr ⟨⟨hhas, hnone, hfound⟩, hname⟩

theorem mem_declaredCarriers_of_standsInDeclared (h : StandsInDeclared findings name) :
    name ∈ (ofFindings findings).answers.ask (.declaredCarriers name) := by
  obtain ⟨hhas, hnone, -⟩ := h
  exact (mem_carriersOr (lookup_declaredCarriers_scan findings name) _ name).mpr
    (Or.inr ⟨hnone, hhas, rfl⟩)

end Findings

end Record

namespace Level

open Record

section Occurrences

variable {l : Level} (h : l.Built) (name : String)

include h

theorem Built.exists_occurrence_iff (v : Occurrence) :
    (∃ p ∈ l.answers.ask (.occurrences name), p == v) ↔
      ∃ r ∈ l.records, ∃ p ∈ r.answers.ask (.occurrences name), p == v := by
  apply h.iff_exists_record (P := fun a => ∃ p ∈ a.ask (.occurrences name), p == v)
  · exact fun x inner => Iff.rfl
  · intro declared ancestors
    have hany (os : List Occurrence) : (∃ p ∈ os, p == v) ↔ os.any (· == v) := List.any_eq_true.symm
    rw [Answers.ask_occurrences_layered, Occurrence.distinct_eq, hany,
      any_keepFirst (r := (· == ·)) (fun _ _ _ => Occurrence.beq_trans), ← hany]
    simp only [Answers.mem_allOccurrences]
    constructor
    · rintro ⟨p, ⟨a, ha, hp⟩, hpv⟩
      exact ⟨a, ha, p, hp, hpv⟩
    · rintro ⟨a, ha, p, hp, hpv⟩
      exact ⟨p, ⟨a, ha, hp⟩, hpv⟩

theorem Built.wellFormed_element : l.element.WellFormed := by
  obtain ⟨findings, hfindings, heq⟩ := h.exists_element_eq
  rw [heq]
  exact wellFormed_ofFindings hfindings

-- The declared occurrences of an annotation are among all its occurrences, but for one: an entry of
-- its own that the element declares, while the container of the annotation is not declared there.
-- Among all occurrences the container then stands for the annotation, so that the entry only is
-- there if an equal occurrence comes from somewhere else.
theorem Built.declaredOccurrences_among_iff :
    (∃ findings, l.element = .ofFindings findings) ∧
      ∀ findings, l.element = .ofFindings findings →
        ((∀ o ∈ l.answers.ask (.declaredOccurrences name),
            ∃ p ∈ l.answers.ask (.occurrences name), p == o) ↔
          (IsShadowed findings name →
            ∃ r ∈ l.records, ∃ p ∈ r.answers.ask (.occurrences name),
              p == l.element.occurrence name (l.element.entryOf name))) := by
  refine ⟨h.exists_element_eq.imp fun _ => And.right, ?_⟩
  intro findings heq
  have hdeclared : l.answers.ask (.declaredOccurrences name) =
      (scan findings).occurrencesIn name .throughDeclared := by
    rw [ask_element (.declaredOccurrences name), heq]
    rfl
  have hown : l.element.occurrence name (l.element.entryOf name) =
      (scan findings).occurrence name ((scan findings).entryOf name) := by
    rw [heq]
    rfl
  simp only [h.exists_occurrence_iff, hdeclared]
  apply forall_mem_iff_of_missed
  · intro hshadowed
    rw [occurrencesIn_of_isShadowed hshadowed, hown]
    exact List.mem_singleton_self _
  · intro o ho
    by_cases hshadowed : IsShadowed findings name
    · rw [occurrencesIn_of_isShadowed hshadowed, List.mem_singleton, ← hown] at ho
      exact Or.inr ⟨hshadowed, ho⟩
    · have hall : o ∈ l.element.answers.ask (.occurrences name) := by
        rw [heq]
        exact occurrencesIn_subset_of_not_isShadowed hshadowed ho
      have hwell := h.wellFormed_element.occurrencesIn name .anywhere o hall
      exact Or.inl ⟨l.element, element_mem_records l, o, hall, Occurrence.beq_refl hwell⟩

end Occurrences

-- The container of the element is inherited. The ancestor has an equal occurrence in its place.
theorem declaredOccurrences_among_of_ancestor :
    let own : Occurrence := ⟨"Tag", [("value", .string "own")], []⟩
    let findings : List Finding :=
      [.present .declared own,
        .repeated .inherited "Tags" ⟨"Tag", [("value", .string "inherited")], []⟩]
    let ancestor := recorded (.ofFindings [.present .declared own])
    let l := layered (expanding ⟨.ofProperties [], .silent, true⟩ (recorded (.ofFindings findings)))
      [ancestor]
    l.Built ∧ IsShadowed findings "Tag" ∧ l.answers.ask (.declaredOccurrences "Tag") = [own] ∧
      ∀ o ∈ l.answers.ask (.declaredOccurrences "Tag"),
        ∃ p ∈ l.answers.ask (.occurrences "Tag"), p == o := by
  intro own findings ancestor l
  have hbuilt : l.Built := by
    apply Built.layered
    rw [List.forall_mem_cons, List.forall_mem_singleton]
    exact ⟨.expanding _ (.recorded findings (by decide)), .recorded _ (by decide)⟩
  have hshadowed : IsShadowed findings "Tag" := by
    refine ⟨⟨_, List.mem_cons_self, rfl, rfl⟩, "Tags", rfl, ?_⟩
    rintro ⟨f, hf, htarget, hinherited⟩
    rcases List.mem_pair.mp hf with rfl | rfl
    · exact absurd htarget (by decide)
    · exact absurd hinherited (by decide)
  obtain ⟨-, hamong⟩ := hbuilt.declaredOccurrences_among_iff "Tag"
  refine ⟨hbuilt, hshadowed, rfl, (hamong findings rfl).mpr fun _ => ?_⟩
  exact ⟨.ofFindings [.present .declared own], List.mem_cons_of_mem _ List.mem_cons_self, own,
    List.mem_singleton_self own, by decide⟩

-- Here there is none, and the occurrence that the element declares is lost among all.
theorem not_forall_declaredOccurrences_among :
    ¬ ∀ l : Level, l.Built → ∀ name, ∀ o ∈ l.answers.ask (.declaredOccurrences name),
      ∃ p ∈ l.answers.ask (.occurrences name), p == o := by
  intro h
  let own : Occurrence := ⟨"Tag", [("value", .string "own")], []⟩
  let inherited : Occurrence := ⟨"Tag", [("value", .string "inherited")], []⟩
  let findings : List Finding := [.present .declared own, .repeated .inherited "Tags" inherited]
  have hbuilt : (recorded (.ofFindings findings)).Built := .recorded findings (by decide)
  obtain ⟨p, hp, heq⟩ := h _ hbuilt "Tag" own (List.mem_singleton_self own)
  have hall : p = inherited := List.mem_singleton.mp hp
  exact absurd (hall ▸ heq) (by decide)

section Carriers

variable {l : Level} (h : l.Built) (name : String)

include h

theorem Built.mem_carriers_iff (carrier : String) :
    carrier ∈ l.answers.ask (.carriers name) ↔
      ∃ r ∈ l.records, carrier ∈ r.answers.ask (.carriers name) := by
  apply h.iff_exists_record (P := fun a => carrier ∈ a.ask (.carriers name))
  · exact fun x inner => Iff.rfl
  · exact fun declared ancestors => List.mem_flatMap

-- The annotations that carry a given one on the element itself are among all that carry it, but for
-- one: that annotation itself. It stands in for itself among what is declared if nothing declared
-- carries it, and does not among all if something inherited does.
theorem Built.declaredCarriers_among_iff :
    (∃ findings, l.element = .ofFindings findings) ∧
      ∀ findings, l.element = .ofFindings findings →
        ((∀ carrier ∈ l.answers.ask (.declaredCarriers name),
            carrier ∈ l.answers.ask (.carriers name)) ↔
          (StandsInDeclared findings name →
            ∃ r ∈ l.records, name ∈ r.answers.ask (.carriers name))) := by
  refine ⟨h.exists_element_eq.imp fun _ => And.right, ?_⟩
  intro findings heq
  have hdeclared : l.answers.ask (.declaredCarriers name) =
      (ofFindings findings).answers.ask (.declaredCarriers name) := by
    rw [ask_element (.declaredCarriers name), heq]
  simp only [h.mem_carriers_iff, hdeclared]
  apply forall_mem_iff_of_missed
  · exact mem_declaredCarriers_of_standsInDeclared
  · intro carrier hcarrier
    refine (mem_carriers_of_mem_declaredCarriers hcarrier).imp_left fun hall => ?_
    exact ⟨l.element, element_mem_records l, heq ▸ hall⟩

end Carriers

-- The element has nothing but an inherited annotation that carries the one that it declares. The
-- ancestor has nothing that carries it.
theorem declaredCarriers_among_of_ancestor :
    let scope : Occurrence := ⟨"Scope", [], []⟩
    let findings : List Finding :=
      [.present .declared scope, .carried .inherited "Transactional" scope]
    let ancestor := recorded (.ofFindings [.present .inherited scope])
    let l := layered (expanding ⟨.ofProperties [], .silent, true⟩ (recorded (.ofFindings findings)))
      [ancestor]
    l.Built ∧ StandsInDeclared findings "Scope" ∧
      l.answers.ask (.declaredCarriers "Scope") = ["Scope"] ∧
      ∀ carrier ∈ l.answers.ask (.declaredCarriers "Scope"),
        carrier ∈ l.answers.ask (.carriers "Scope") := by
  intro scope findings ancestor l
  have hbuilt : l.Built := by
    apply Built.layered
    rw [List.forall_mem_cons, List.forall_mem_singleton]
    exact ⟨.expanding _ (.recorded findings (by decide)), .recorded _ (by decide)⟩
  have hstands : StandsInDeclared findings "Scope" := ⟨rfl, rfl, List.cons_ne_nil _ _⟩
  obtain ⟨-, hamong⟩ := hbuilt.declaredCarriers_among_iff "Scope"
  refine ⟨hbuilt, hstands, rfl, (hamong findings rfl).mpr fun _ => ?_⟩
  exact ⟨.ofFindings [.present .inherited scope], List.mem_cons_of_mem _ List.mem_cons_self,
    List.mem_singleton_self "Scope"⟩

-- Where it has no ancestor, the annotation that the element declares is lost among all.
theorem not_forall_declaredCarriers_among :
    ¬ ∀ l : Level, l.Built → ∀ name, ∀ carrier ∈ l.answers.ask (.declaredCarriers name),
      carrier ∈ l.answers.ask (.carriers name) := by
  intro h
  let findings : List Finding :=
    [.present .declared ⟨"Scope", [], []⟩,
      .carried .inherited "Transactional" ⟨"Scope", [], []⟩]
  have hbuilt : (recorded (.ofFindings findings)).Built := .recorded findings (by decide)
  have hall := h _ hbuilt "Scope" "Scope" (List.mem_singleton_self "Scope")
  exact absurd hall (by decide)

end Level

end LayeredAnnotations
