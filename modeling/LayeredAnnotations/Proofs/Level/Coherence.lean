import LayeredAnnotations.Proofs.Level.Aggregation
import LayeredAnnotations.Proofs.Record.Grouping

namespace LayeredAnnotations

theorem mem_orderedUnion {lists : List (List String)} {name : String} :
    name ∈ orderedUnion lists ↔ ∃ names ∈ lists, name ∈ names := by
  have hany : ∀ names : List String, name ∈ names ↔ names.any (· == name) := by simp
  have htrans : ∀ a b c : String, a == b → b == c → a == c := by
    simp only [beq_iff_eq]
    exact fun _ _ _ => Eq.trans
  rw [orderedUnion_eq, hany, any_keepFirst htrans, ← hany, List.mem_flatten]

-- How the answers that tell whether an annotation is there go together.
structure Answers.Coherent (a : Answers) (name : String) : Prop where
  knows_iff : a.ask (.knows name) = true ↔ (a.ask (.find? name)).isSome
  occurs_iff : a.ask (.occurrences name) ≠ [] ↔ (a.ask (.find? name)).isSome
  isRepeatable_iff : a.ask (.isRepeatable name) = true ↔ (a.ask (.container? name)).isSome
  has_of_container : (a.ask (.container? name)).isSome → a.ask (.has name) = true
  has_of_hasDeclared : a.ask (.hasDeclared name) = true → a.ask (.has name) = true
  knows_of_has : a.ask (.has name) = true → a.ask (.knows name) = true
  knows_of_knowsDeclared : a.ask (.knowsDeclared name) = true → a.ask (.knows name) = true
  mem_names : name ∈ a.ask .declaredNames → name ∈ a.ask .names
  has_of_mem_names : name ∈ a.ask .names → a.ask (.has name) = true

theorem Record.coherent_ofFindings (findings : List Finding) (name : String) :
    (ofFindings findings).answers.Coherent name := by
  have hknows := knows_scan_iff findings name
  have hfound := isSome_find?_scan findings name
  have hhas := hasIn_proper_scan findings name
  have hlisted := fun mask => mem_namesIn (distinct_entries_scan findings) name mask
  constructor
  · exact hknows.trans hfound.symm
  · exact (occurrencesIn_ne_nil_scan findings name).trans hfound.symm
  · exact Iff.rfl
  · exact fun hcontainer => hhas.mpr (Or.inr hcontainer)
  · exact hasIn_mono fun _ => Presence.intersects_proper_of_onlyDeclared
  · exact fun h => Bool.or_eq_true_iff.mpr (Or.inr h)
  · intro h
    rcases Bool.or_eq_true_iff.mp h with hentry | hdeclared
    · exact hknows.mpr (Or.inl (isSome_lookup_of_entryIn? hentry))
    · have hproper := hasIn_mono (fun _ => Presence.intersects_proper_of_onlyDeclared) hdeclared
      exact Bool.or_eq_true_iff.mpr (Or.inr hproper)
  · exact fun h => (hlisted _).mpr (Presence.intersects_proper_of_onlyDeclared ((hlisted _).mp h))
  · intro h
    have hentry := (hlisted .proper).mp h
    rw [← isSome_entryIn?] at hentry
    exact hhas.mpr (Or.inl hentry)

theorem Expander.coherent_answers (x : Expander) {inner : Answers} {name : String}
    (h : inner.Coherent name) : (x.answers inner).Coherent name where
  knows_iff := h.knows_iff
  occurs_iff := h.occurs_iff
  isRepeatable_iff := Iff.rfl
  has_of_container := h.has_of_container
  has_of_hasDeclared := h.has_of_hasDeclared
  knows_of_has := h.knows_of_has
  knows_of_knowsDeclared := h.knows_of_knowsDeclared
  mem_names := h.mem_names
  has_of_mem_names := h.has_of_mem_names

namespace Answers

section Layered

variable {declared : Answers} {ancestors : List Answers} {name : String}

-- A layered level says yes if one of its levels does.
theorem any_ask_iff {q : Question Bool} {levels : List Answers} {P : Answers → Prop}
    (h : ∀ a ∈ levels, a.ask q = true ↔ P a) : levels.any (·.ask q) = true ↔ ∃ a ∈ levels, P a := by
  rw [List.any_eq_true]
  exact exists_congr fun a => and_congr_right (h a)

theorem any_ask_mono {q q' : Question Bool} {levels : List Answers}
    (h : ∀ a ∈ levels, a.ask q = true → a.ask q' = true) (hany : levels.any (·.ask q) = true) :
    levels.any (·.ask q') = true := by
  rw [List.any_eq_true] at hany ⊢
  exact hany.imp fun a ⟨ha, hq⟩ => ⟨ha, h a ha hq⟩

theorem isSome_find?_layered :
    ((layered declared ancestors).ask (.find? name)).isSome ↔
      ∃ a ∈ declared :: ancestors, (a.ask (.find? name)).isSome := by
  change (merged? (declared :: ancestors) name).isSome ↔ _
  rw [Option.isSome_iff_ne_none, Ne, merged?_eq_none_iff]
  simp only [not_forall, exists_prop, Option.isSome_iff_ne_none, Ne]

theorem occurrences_layered_ne_nil_iff :
    (layered declared ancestors).ask (.occurrences name) ≠ [] ↔
      ∃ a ∈ declared :: ancestors, a.ask (.occurrences name) ≠ [] := by
  rw [ask_occurrences_layered, Occurrence.distinct_eq, Ne, keepFirst_eq_nil_iff, allOccurrences,
    List.flatMap_eq_nil_iff]
  simp only [not_forall, exists_prop, Ne]

theorem mem_names_layered :
    name ∈ (layered declared ancestors).ask .names ↔
      ∃ a ∈ declared :: ancestors, name ∈ a.ask .names := by
  change name ∈ orderedUnion ((declared :: ancestors).map (·.ask .names)) ↔ _
  simp only [mem_orderedUnion, List.mem_map, exists_exists_and_eq_and]

theorem Coherent.layered (h : ∀ a ∈ declared :: ancestors, a.Coherent name) :
    (Answers.layered declared ancestors).Coherent name := by
  have hdeclared := h declared List.mem_cons_self
  -- what the first level answers is enough for all
  have hfirst : ∀ q : Question Bool, declared.ask q = true →
      (declared :: ancestors).any (·.ask q) = true := by
    intro q hq
    exact List.any_eq_true.mpr ⟨declared, List.mem_cons_self, hq⟩
  constructor
  · rw [isSome_find?_layered]
    exact any_ask_iff fun a ha => (h a ha).knows_iff
  · rw [isSome_find?_layered, occurrences_layered_ne_nil_iff]
    exact exists_congr fun a => and_congr_right fun ha => (h a ha).occurs_iff
  · refine (any_ask_iff fun a ha => (h a ha).isRepeatable_iff).trans ?_
    exact List.findSome?_isSome_iff.symm
  · intro hcontainer
    obtain ⟨a, ha, hsome⟩ := List.findSome?_isSome_iff.mp hcontainer
    exact List.any_eq_true.mpr ⟨a, ha, (h a ha).has_of_container hsome⟩
  · exact fun hhas => hfirst (.has name) (hdeclared.has_of_hasDeclared hhas)
  · exact any_ask_mono fun a ha => (h a ha).knows_of_has
  · exact fun hknows => hfirst (.knows name) (hdeclared.knows_of_knowsDeclared hknows)
  · intro hmem
    exact mem_names_layered.mpr ⟨declared, List.mem_cons_self, hdeclared.mem_names hmem⟩
  · intro hmem
    obtain ⟨a, ha, hname⟩ := mem_names_layered.mp hmem
    exact List.any_eq_true.mpr ⟨a, ha, (h a ha).has_of_mem_names hname⟩

end Layered

end Answers

namespace Level

-- However levels are nested, the questions about whether an annotation is there are never answered
-- at odds with each other: what is known is what is found and what has occurrences, repeatable
-- annotations and those that are listed are there, and what is declared is there too.
theorem Built.presence_coherent {l : Level} (h : l.Built) (name : String) :
    l.answers.Coherent name := by
  induction h with
  | empty => exact Record.coherent_ofFindings [] name
  | recorded findings _ => exact Record.coherent_ofFindings findings name
  | expanding x _ ih => exact x.coherent_answers ih
  | @layered declared ancestors _ ih =>
    rw [answers_layered]
    apply Answers.Coherent.layered
    rw [← List.map_cons, List.forall_mem_map]
    exact ih

-- The annotation only is in the container of an ancestor, and has no entry anywhere.
theorem Built.presence_coherent_grouped :
    let grouped := Level.recorded (.ofFindings [.repeated .inherited "Tags" ⟨"Tag", [], []⟩])
    let l := Level.layered .empty [.expanding ⟨.ofProperties [], .silent, true⟩ grouped]
    l.Built ∧ l.answers.Coherent "Tag" ∧ l.answers.ask (.has "Tag") = true ∧
      l.answers.ask (.occurrences "Tag") ≠ [] ∧ "Tag" ∉ l.answers.ask .names := by
  intro grouped l
  have hbuilt : l.Built := .layered (List.forall_mem_cons.mpr
    ⟨.empty, List.forall_mem_singleton.mpr (.expanding _ (.recorded _ (by decide)))⟩)
  have hcoherent := hbuilt.presence_coherent "Tag"
  have hcontainer : (l.answers.ask (.container? "Tag")).isSome := rfl
  have hhas := hcoherent.has_of_container hcontainer
  have hfound := hcoherent.knows_iff.mp (hcoherent.knows_of_has hhas)
  exact ⟨hbuilt, hcoherent, hhas, hcoherent.occurs_iff.mpr hfound, by decide⟩

end Level

end LayeredAnnotations
